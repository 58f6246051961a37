import DocClaims.Glob.Reader

/-!
# File classes

A search covers files of one class. Source and markup files are told by lists of
extensions, of which each is made a glob; without any, all files are covered.
-/

namespace DocClaims

inductive FileClass
  | source
  | markup
  | any
  deriving DecidableEq, Repr

structure Extensions where
  source : List String
  markup : List String
  deriving DecidableEq, Repr

/-- The globs for a class; a path need only match one of them. -/
structure FileFilter where
  globs : List (List Glob.Piece)

def FileFilter.accepts (f : FileFilter) (path : String) : Bool :=
  f.globs.any fun pieces => Glob.accepts pieces path

namespace Extensions

def ofClass (e : Extensions) : FileClass → List String
  | .source => e.source
  | .markup => e.markup
  | .any => []

def globs (e : Extensions) (c : FileClass) : List String := (e.ofClass c).map ("*." ++ ·)

/-- The filter for a class; none if all files belong to it. -/
def filter (e : Extensions) (c : FileClass) : Except Glob.Fault (Option FileFilter) := do
  let globs ← (e.globs c).mapM Glob.read
  return if globs.isEmpty then none else some ⟨globs⟩

end Extensions

/-- The path passes the filter, if there is one. -/
def FileFilter.admits (filter : Option FileFilter) (path : String) : Bool :=
  filter.all (·.accepts path)

end DocClaims
