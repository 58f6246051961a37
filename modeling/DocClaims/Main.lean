import DocClaims.Command.Run
import DocClaims.Timestamp
import Std.Time.DateTime.Timestamp

/-!
# The program

The files that a run may look at are read first, then the run is computed and
what it wrote is stored. No external program is started, so only the walk can
answer a search. Names and paths of which the bytes are no text are not reached.
-/

namespace DocClaims
namespace CommandLine

/-- What an entry of a directory holds. Links are kept as links. -/
partial def nodeOf (entry : IO.FS.DirEntry) : IO FileNode := do
  match (← entry.path.symlinkMetadata).type with
  | .symlink =>
      try return .link (← IO.FS.realPath entry.path).toString
      catch _ => return .link []
  | .dir =>
      let entries ← (← entry.path.readDir).toList.mapM fun e =>
        return (Text.encode e.fileName, ← nodeOf e)
      return .directory entries
  | _ => return .file (← IO.FS.readBinFile entry.path).toList

def namesOf (here : List Text.Bytes) (path : Text.Bytes) : List Text.Bytes :=
  ((if Path.isAbsolute path then [] else here.reverse) ++ Path.segments path).filter fun s =>
    s != [] && s != [Path.dot]

/-- Adds what stands at a path, if anything does; below a directory only if
`deep`. -/
def load (deep : Bool) (files : FileTree) (path : Text.Bytes) : IO FileTree := do
  try
    let place ← IO.FS.realPath (Text.lossy path)
    let node ←
      if ← place.isDir then
        let inner ← if deep then place.readDir else pure #[]
        pure (FileNode.directory (← inner.toList.mapM fun e =>
          return (Text.encode e.fileName, ← nodeOf e)))
      else pure (FileNode.file (← IO.FS.readBinFile place).toList)
    let names := namesOf files.here path
    if !deep && (files.root.at? names).isSome then return files
    else return { files with root := files.root.put node names }
  catch _ => return files

/-- The paths that a run may look at, besides the source root. -/
def pathsOf (s : Session) (common : CommonOptions) (command : Command) : List Text.Bytes :=
  let own := match command with
    | .extract r => r.document :: r.output.toList
    | .validate r => r.claims :: r.output.toList
    | .init r => [r.output]
  let configs := common.config.toList ++ Config.localNames.map Text.encode ++ s.userConfig.toList
  own ++ configs ++ own.filterMap Path.parent?

def sourceRootOf (s : Session) (common : CommonOptions) : Command → Option Text.Bytes
  | .validate r =>
      r.sourceRoot.or
        (match s.loadConfig common s.files with
          | .ok config => config.validation.sourceRoot.map Text.encode
          | .error _ => none)
  | _ => none

def withFiles (s : Session) (files : FileTree) : Session :=
  { s with surroundings := { s.surroundings with files := files } }

def prepare (s : Session) : Request → IO Session
  | .perform common command => do
      let s := withFiles s (← (pathsOf s common command).foldlM (load false) s.files)
      return withFiles s (← (sourceRootOf s common command).toList.foldlM (load true) s.files)
  | _ => return s

def store (files : FileTree) (path : Text.Bytes) (text : String) : IO Unit := do
  match Path.parent? path with
  | some parent =>
      if files.isDirectory parent && !parent.isEmpty then IO.FS.createDirAll (Text.lossy parent)
  | none => pure ()
  IO.FS.writeFile (Text.lossy path) text

def machine : Machine := ⟨1, fun _ => none, by decide⟩

def startingSession : IO Session := do
  let here := (Path.segments (← IO.currentDir).toString).filter (· != [])
  let names :=
    ["HOME", "XDG_CONFIG_HOME", "CLAIMCHECK_CONFIG", "CLICOLOR", "CLICOLOR_FORCE", "NO_COLOR"]
  let set ← names.mapM fun name => return (name, (← IO.getEnv name).map Text.encode)
  let instant ← IO.monoNanosNow
  let now ← Std.Time.Timestamp.now
  let files : FileTree :=
    { root := FileNode.emptyDirectory.put .emptyDirectory here, here := here.reverse }
  return {
    surroundings := ⟨files, fun _ => none, fun _ => instant⟩
    machine := machine
    environment := fun name => (set.lookup name).join
    accountHome := none
    onTerminal := ← (← IO.getStdout).isTty
    time := Timestamp.text now.toSecondsSinceUnixEpoch.val.toNat }

def run (args : List String) : IO UInt32 := do
  let s ← startingSession
  match Request.read args s.configVariable with
  | .error e =>
      IO.eprint ("error: " ++ e.message ++ "\n\n" ++ helpText)
      return 2
  | .ok request =>
      let s ← prepare s request
      match s.serve request with
      | .error e =>
          IO.eprint e.text
          return (e.exitCode?.getD .aborted).number.toUInt32
      | .ok o =>
          match o.written with
          | some (path, text) => store o.files path text
          | none => pure ()
          IO.print o.output
          return o.exitCode.number.toUInt32

end CommandLine
end DocClaims

def main (args : List String) : IO UInt32 := DocClaims.CommandLine.run args
