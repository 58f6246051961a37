import DocClaims.Files.Node
import DocClaims.Path

/-!
# File trees

A file tree is a root directory and the place of the working directory in it.
Paths are resolved name by name, through links; what goes wrong on the way is
told in the words of the operating system. The system may refuse what is to be done
at a place, and may not keep all bytes that are written.
-/

namespace DocClaims

open Text (Bytes)

inductive FileError
  | notFound
  | notDirectory
  | isDirectory
  | alreadyExists
  | tooManyLinks
  | nameTooLong
  | nulInName
  | notUtf8
  /-- Any other error of the system, such as a lack of permission or of space. -/
  | other (message : String)
  deriving DecidableEq, Repr

namespace FileError

def message : FileError → String
  | notFound => "No such file or directory (os error 2)"
  | alreadyExists => "File exists (os error 17)"
  | notDirectory => "Not a directory (os error 20)"
  | isDirectory => "Is a directory (os error 21)"
  | nameTooLong => "File name too long (os error 36)"
  | tooManyLinks => "Too many levels of symbolic links (os error 40)"
  | nulInName => "file name contained an unexpected NUL byte"
  | notUtf8 => "stream did not contain valid UTF-8"
  | other message => message

def noSpace : FileError := other "No space left on device (os error 28)"

end FileError

/-- What a run does with a node or in a directory. -/
inductive Deed
  /-- To look a name up in a directory. -/
  | enter
  /-- To read the names in a directory. -/
  | list
  /-- To be told of an entry while its directory is read. -/
  | see
  | read
  /-- To open a file for writing, which may have to be made. -/
  | write
  /-- To make a directory. -/
  | make
  deriving DecidableEq, Repr

/-- What the system does not let a run do. Places are given by their names, innermost first. -/
structure Limits where
  refusal? : Deed → List Bytes → Option FileError
  /-- How many of the bytes are written to a file before the writing breaks off, if it does. -/
  shortage? : List Bytes → Bytes → Option (Nat × FileError)

def Limits.none : Limits := ⟨fun _ _ => Option.none, fun _ _ => Option.none⟩

structure FileTree where
  root : FileNode
  /-- The names that lead to the working directory, innermost first. -/
  here : List Bytes
  limits : Limits := .none

namespace FileTree

/-- Links that are followed on the way to one node. -/
def linkLimit : Nat := 40

def nameLimit : Nat := 255

def pathLimit : Nat := 4095

/-- The node at a place, which is given innermost first. -/
def nodeAt? (t : FileTree) (place : List Bytes) : Option FileNode := t.root.at? place.reverse

def isDirectoryAt (t : FileTree) (place : List Bytes) : Bool :=
  (t.nodeAt? place).any FileNode.isDirectory

def allow (t : FileTree) (deed : Deed) (place : List Bytes) : Except FileError Unit :=
  match t.limits.refusal? deed place with
  | some e => .error e
  | none => .ok ()

/-- What keeps a segment from being looked up at a place. -/
def obstacle? (t : FileTree) (place : List Bytes) (segment : Bytes) : Option FileError :=
  if !t.isDirectoryAt place then some .notDirectory
  else if segment == [] then none
  else t.limits.refusal? .enter place

/-- Goes on from a place by the segments of a path. A link is followed by `onward`, unless it
comes last and `follow` is false. -/
def walkOn (t : FileTree) (follow : Bool)
    (onward : List Bytes → List Bytes → Except FileError (List Bytes)) (place : List Bytes) :
    List Bytes → Except FileError (List Bytes)
  | [] => .ok place
  | name :: rest =>
      match t.obstacle? place name with
      | some e => .error e
      | none =>
          if name == [] || name == [Path.dot] then walkOn t follow onward place rest
          else if name == [Path.dot, Path.dot] then walkOn t follow onward place.tail rest
          else if nameLimit < name.length then .error .nameTooLong
          else
            match t.nodeAt? (name :: place) with
            | none => .error .notFound
            | some (.link target) =>
                if rest.isEmpty && !follow then .ok (name :: place)
                else
                  onward (if Path.isAbsolute target then [] else place)
                    (Path.segments target ++ rest)
            | some _ => walkOn t follow onward (name :: place) rest

/-- Goes on by the segments of a path and of at most `links` links. -/
def walkFrom (t : FileTree) (follow : Bool) :
    Nat → List Bytes → List Bytes → Except FileError (List Bytes)
  | 0 => t.walkOn follow fun _ _ => .error .tooManyLinks
  | links + 1 => t.walkOn follow (walkFrom t follow links)

/-- What is wrong with a path before it is resolved. -/
def checkPath (p : Bytes) : Except FileError Unit :=
  if p.contains 0 then .error .nulInName
  else if p.isEmpty then .error .notFound
  else if pathLimit < p.length then .error .nameTooLong
  else .ok ()

def startOf (t : FileTree) (p : Bytes) : List Bytes := if Path.isAbsolute p then [] else t.here

def resolve (t : FileTree) (follow : Bool) (p : Bytes) : Except FileError (List Bytes) := do
  checkPath p
  t.walkFrom follow linkLimit (t.startOf p) (Path.segments p)

/-- The place that a path leads to and the node there. -/
def find (t : FileTree) (follow : Bool) (p : Bytes) : Except FileError (List Bytes × FileNode) := do
  let place ← t.resolve follow p
  match t.nodeAt? place with
  | some n => return (place, n)
  | none => throw .notFound

def node (t : FileTree) (follow : Bool) (p : Bytes) : Except FileError FileNode := do
  return (← t.find follow p).2

def isFile (t : FileTree) (p : Bytes) : Bool :=
  match t.node true p with
  | .ok n => n.isFile
  | .error _ => false

def isDirectory (t : FileTree) (p : Bytes) : Bool :=
  match t.node true p with
  | .ok n => n.isDirectory
  | .error _ => false

def contains (t : FileTree) (p : Bytes) : Bool := (t.node true p).isOk

def read (t : FileTree) (p : Bytes) : Except FileError Bytes := do
  let (place, node) ← t.find true p
  t.allow .read place
  match node with
  | .file bytes => return bytes
  | .special bytes => return bytes
  | _ => throw .isDirectory

def readText (t : FileTree) (p : Bytes) : Except FileError String := do
  match Text.decode? (← t.read p) with
  | some cs => return String.ofList cs
  | none => throw .notUtf8

/-! ### Changes -/

/-- The files behind a change, and the error that it came to, if any: what was changed before
stays changed. -/
structure Changed where
  files : FileTree
  error? : Option FileError

/-- The last name of a path, what comes before it, and whether a slash follows. -/
def splitLast (segments : List Bytes) : Option (List Bytes × Bytes × Bool) :=
  match segments.reverse.dropWhile (· == []) with
  | [] => none
  | name :: others => some (others.reverse, name, segments.getLast? == some [])

def putAt (t : FileTree) (place : List Bytes) (new : FileNode) : FileTree :=
  { t with root := t.root.put new place.reverse }

/-- The place of a file that is to be written, which need not exist yet. Links are followed by
`onward`, also when they come last. -/
def targetOn (t : FileTree)
    (onward : List Bytes → List Bytes → Except FileError (List Bytes)) (place : List Bytes) :
    List Bytes → Except FileError (List Bytes)
  | [] => .error .isDirectory
  | name :: rest =>
      let isLast := rest.all (· == [])
      match t.obstacle? place name with
      | some e => .error e
      | none =>
          if name == [] then targetOn t onward place rest
          else if isLast && (!rest.isEmpty || name == [Path.dot] || name == [Path.dot, Path.dot]) then
            .error .isDirectory
          else if name == [Path.dot] then targetOn t onward place rest
          else if name == [Path.dot, Path.dot] then targetOn t onward place.tail rest
          else if nameLimit < name.length then .error .nameTooLong
          else
            match t.nodeAt? (name :: place) with
            | some (.link target) =>
                onward (if Path.isAbsolute target then [] else place) (Path.segments target ++ rest)
            | some (.directory _) =>
                if isLast then .error .isDirectory else targetOn t onward (name :: place) rest
            | some _ =>
                if isLast then .ok (name :: place) else targetOn t onward (name :: place) rest
            | none => if isLast then .ok (name :: place) else .error .notFound

def targetFrom (t : FileTree) : Nat → List Bytes → List Bytes → Except FileError (List Bytes)
  | 0 => t.targetOn fun _ _ => .error .tooManyLinks
  | links + 1 => t.targetOn (targetFrom t links)

/-- Where a file is opened for writing. -/
def target (t : FileTree) (p : Bytes) : Except FileError (List Bytes) := do
  checkPath p
  let place ← t.targetFrom linkLimit (t.startOf p) (Path.segments p)
  t.allow .write place
  return place

/-- Writes to what was opened at a place. A file holds nothing but what is written, even if the
writing breaks off. -/
def fill (t : FileTree) (place : List Bytes) (bytes : Bytes) : Changed :=
  let kept := t.limits.shortage? place bytes
  let written := (kept.map fun (n, _) => bytes.take n).getD bytes
  match t.nodeAt? place with
  | some (.special _) => ⟨t, kept.map (·.2)⟩
  | _ => ⟨t.putAt place (.file written), kept.map (·.2)⟩

/-- Writes a file in place of what the file held before. -/
def writeBytes (t : FileTree) (p : Bytes) (bytes : Bytes) : Changed :=
  match t.target p with
  | .ok place => t.fill place bytes
  | .error e => ⟨t, some e⟩

def write (t : FileTree) (p : Bytes) (s : String) : Changed := t.writeBytes p (Text.encode s)

def makeDirectory (t : FileTree) (p : Bytes) : Except FileError FileTree := do
  checkPath p
  match splitLast (Path.segments p) with
  | none => throw .alreadyExists
  | some (before, name, _) =>
      let place ← t.walkFrom true linkLimit (t.startOf p) before
      if let some e := t.obstacle? place name then throw e
      if name == [Path.dot] || name == [Path.dot, Path.dot] then throw .alreadyExists
      if nameLimit < name.length then throw .nameTooLong
      if (t.nodeAt? (name :: place)).isSome then throw .alreadyExists
      t.allow .make (name :: place)
      return t.putAt (name :: place) .emptyDirectory

/-- Makes a directory with all directories above it; `fuel` bounds their number. -/
def makeDirectoriesFrom (t : FileTree) : Nat → Bytes → Changed
  | 0, _ => ⟨t, some .notFound⟩
  | fuel + 1, p =>
      if p.isEmpty then ⟨t, none⟩
      else
        match t.makeDirectory p with
        | .ok t => ⟨t, none⟩
        | .error .notFound =>
            match Path.parent? p with
            | none => ⟨t, some (.other "failed to create whole tree")⟩
            | some parent =>
                match makeDirectoriesFrom t fuel parent with
                | ⟨t, some e⟩ => ⟨t, some e⟩
                | ⟨t, none⟩ =>
                    match t.makeDirectory p with
                    | .ok t => ⟨t, none⟩
                    | .error e => ⟨t, if t.isDirectory p then none else some e⟩
        | .error e => ⟨t, if t.isDirectory p then none else some e⟩

def makeDirectories (t : FileTree) (p : Bytes) : Changed := t.makeDirectoriesFrom (p.length + 1) p

end FileTree
end DocClaims
