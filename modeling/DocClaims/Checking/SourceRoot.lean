import DocClaims.Config.Basic
import DocClaims.Files.Tree

/-!
# Source roots

The modules of a source tree lie side by side in one directory: the root itself
or one of several candidates below it, known by a module that it must hold.
-/

namespace DocClaims

structure SourceRoot where
  given : Text.Bytes
  modules : Text.Bytes
  deriving DecidableEq, Repr

inductive SourceRootError
  | missing (root : Text.Bytes)
  | noModules (root : Text.Bytes) (marker : String) (tried : List String)
  deriving DecidableEq, Repr

def SourceRootError.message : SourceRootError → String
  | missing root => "source root " ++ Text.lossy root ++ " does not exist or is not a directory"
  | noModules root marker tried =>
      "no module directory containing " ++ marker ++ " under " ++ Text.lossy root ++ " (tried: " ++
        String.intercalate ", " tried ++ ")"

namespace SourceRoot

def within (directory : Text.Bytes) : SourceRoot := ⟨directory, directory⟩

def candidate (root : Text.Bytes) (sub : String) : Text.Bytes :=
  if sub == "" || sub == "." then root else Path.join root sub

def holdsModules (files : FileTree) (marker : String) (directory : Text.Bytes) : Bool :=
  files.isDirectory (Path.join directory marker)

/-- Finds the first candidate that holds the module `marker`. -/
def resolve (files : FileTree) (root : Text.Bytes) (candidates : List String) (marker : String) :
    Except SourceRootError SourceRoot :=
  if !files.isDirectory root then .error (.missing root)
  else
    match (candidates.map (candidate root)).find? (holdsModules files marker) with
    | some directory => .ok ⟨root, directory⟩
    | none => .error (.noModules root marker candidates)

def ofSettings (files : FileTree) (root : Text.Bytes) (settings : ValidationSettings) :
    Except SourceRootError SourceRoot :=
  resolve files root settings.vendorPaths settings.markerModule

end SourceRoot
end DocClaims
