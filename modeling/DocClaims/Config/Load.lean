import DocClaims.Config.Basic
import DocClaims.Files.Tree

/-!
# Finding the configuration

A run uses the configuration file that it is told to use, or else the first that
it finds: in the working directory, then in the directory of the user. Without
any file the standard configuration holds.
-/

namespace DocClaims
namespace Config

def fileName : String := "claimcheck.yaml"

/-- The names in the working directory, in order. -/
def localNames : List String := [fileName, "." ++ fileName]

/-- The user's configuration file, below the directory that is named for such files if that is an
absolute path. There is none without a home. -/
def userPath? (home configHome : Option Text.Bytes) : Option Text.Bytes :=
  home.map fun home =>
    let directory := (configHome.filter Path.isAbsolute).getD (Path.join home ".config")
    Path.join (Path.join directory "claimcheck") fileName

def discover (files : FileTree) (user : Option Text.Bytes) : Option Text.Bytes :=
  (localNames.map Text.encode ++ user.toList).find? files.isFile

inductive LoadError
  | unreadable (path : Text.Bytes) (error : FileError)
  | malformed (path : Text.Bytes) (error : Yaml.ReadError)
  | invalid (problem : ConfigProblem)

def LoadError.message : LoadError → String
  | unreadable path error => "parsing config " ++ Text.lossy path ++ ": " ++ error.message
  | malformed path error => "parsing config " ++ Text.lossy path ++ ": " ++ error.message
  | invalid problem => problem.message

def loadFrom (files : FileTree) (path : Text.Bytes) : Except LoadError Config := do
  let text ← (files.readText path).mapError (.unreadable path)
  let config ← (parse text).mapError (.malformed path)
  match config.problem? with
  | some problem => throw (.invalid problem)
  | none => return config

/-- The configuration of a run, and the path it was read from. -/
def load (files : FileTree) (user explicit : Option Text.Bytes) :
    Except LoadError (Config × Option Text.Bytes) :=
  match explicit.or (discover files user) with
  | some path => do return (← loadFrom files path, some path)
  | none => .ok (standard, none)

end Config
end DocClaims
