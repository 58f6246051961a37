import DocClaims.Checking.Batch
import DocClaims.ClaimDocument
import DocClaims.Command.Request
import DocClaims.Command.Texts
import DocClaims.Config.Load
import DocClaims.Extraction
import DocClaims.OutputPath
import DocClaims.Report.Format
import DocClaims.Report.Overview

/-!
# Running commands

A run starts in given surroundings. It looks at files, changes some and comes to an
end with an exit status and what it printed, unless an error stops it on the way.
-/

namespace DocClaims

/-- What a run finds where it is started. -/
structure Session where
  surroundings : Surroundings
  machine : Machine
  environment : String → Option Text.Bytes
  /-- The home directory that the account of the user has. -/
  accountHome : Option Text.Bytes
  onTerminal : Bool
  time : String

namespace Session

def files (s : Session) : FileTree := s.surroundings.files

def home (s : Session) : Option Text.Bytes :=
  ((s.environment "HOME").filter (!·.isEmpty)).or s.accountHome

def userConfig (s : Session) : Option Text.Bytes :=
  Config.userPath? s.home (s.environment "XDG_CONFIG_HOME")

def configVariable (s : Session) : Option Text.Bytes := s.environment "CLAIMCHECK_CONFIG"

/-- The value of a variable, if that is a text. -/
def text? (s : Session) (name : String) : Option String :=
  ((s.environment name).bind Text.decode?).map String.ofList

def isOn (value : String) : Bool := value != "0"

/-- Output is coloured on request, else on a terminal if nothing forbids it. -/
def color (s : Session) : Bool :=
  if (s.text? "CLICOLOR_FORCE").any isOn then true
  else if (s.text? "NO_COLOR").isSome then false
  else s.onTerminal && (s.text? "CLICOLOR").all isOn

end Session

inductive ExitCode
  | success
  /-- Some claim was not found, and that was to count as a failure. -/
  | failed
  | error
  | aborted
  deriving DecidableEq, Repr

def ExitCode.number : ExitCode → Nat
  | success => 0
  | failed => 1
  | error => 2
  | aborted => 101

/-- The end of a run that no error stopped. -/
structure Ending where
  exitCode : ExitCode
  output : String
  /-- The file that was written, with its text. -/
  written : Option (Text.Bytes × String)

/-- The end of a run, and the files as it leaves them. -/
structure Outcome extends Ending where
  files : FileTree

inductive CommandError
  | config (e : Config.LoadError)
  | noDocument (path : Text.Bytes)
  | unreadable (e : ReadFailure)
  | unwritable (e : FileError)
  | invalidFormat (name : String)
  | noClaims (path : Text.Bytes)
  | noSourceRoot
  | sourceRoot (e : SourceRootError)
  | unknownBackend (e : SearchChain.UnknownBackend)
  | claims (e : ClaimDocument.ReadError)
  | pool (e : PoolError)
  | noReturn (e : NoReturn)
  | fileExists (path : Text.Bytes)
  | noDirectory (e : FileError)
  | configUnwritable (e : FileError)

/-- What is printed about an error, line by line. -/
def CommandError.lines : CommandError → List String
  | config e => [e.message]
  | noDocument path => ["file not found: " ++ Text.lossy path]
  | unreadable e => [e.message]
  | unwritable e => [e.message]
  | invalidFormat name =>
      ["invalid format " ++ Text.quoted name ++ ", must be 'yaml' or 'json'"]
  | noClaims path => ["claims file not found: " ++ Text.lossy path]
  | noSourceRoot =>
      ["no source root given",
        "Pass it as an argument or set validation.source_root in the config"]
  | sourceRoot e => [e.message]
  | unknownBackend e => [e.message]
  | claims e => [e.message]
  | pool e => [e.reason]
  | noReturn e => e.message?.toList
  | fileExists path =>
      ["file already exists: " ++ Text.lossy path,
        "Use --force to overwrite or --output to choose another path"]
  | noDirectory e => ["failed to create directory: " ++ e.message]
  | configUnwritable e => ["failed to write config: " ++ e.message]

/-- The exit status after an error; a run that does not return has none. -/
def CommandError.exitCode? : CommandError → Option ExitCode
  | noReturn .waitsForever => none
  | noReturn _ => some .aborted
  | _ => some .error

def CommandError.text (e : CommandError) : String := "Error: " ++ textOfLines e.lines

/-- A piece of a run: it sees the files as they are by then, and may be stopped by an
error. What was changed before stays changed. -/
abbrev Work := ExceptT CommandError (StateM FileTree)

namespace Work

variable {α : Type}

def look (f : FileTree → Except CommandError α) : Work α := do
  match f (← get) with
  | .ok a => return a
  | .error e => throw e

def require (p : FileTree → Bool) (e : CommandError) : Work Unit := do
  if !p (← get) then throw e

def change (f : FileTree → FileTree.Changed) (failure : FileError → CommandError) : Work Unit := do
  let changed := f (← get)
  set changed.files
  if let some e := changed.error? then throw (failure e)

def write (path : Text.Bytes) (text : String) (failure : FileError → CommandError) : Work Unit :=
  change (fun files => files.write path text) failure

end Work

namespace Session

open Work

def loadConfig (s : Session) (common : CommonOptions) (files : FileTree) :
    Except CommandError Config := do
  let (config, _) ← (Config.load files s.userConfig common.config).mapError .config
  return config

/-- Writes `text` to a file and ends the run; a quiet run prints nothing. -/
def finish (common : CommonOptions) (code : ExitCode) (path : Text.Bytes)
    (text overview : String) : Work Ending := do
  write path text .unwritable
  return ⟨code, if common.quiet then "" else overview, some (path, text)⟩

def extract (s : Session) (common : CommonOptions) (r : ExtractRequest) : Work Ending := do
  let config ← look (s.loadConfig common)
  require (·.isFile r.document) (.noDocument r.document)
  let scanner := Scanner.ofTags config.verbatimTags qualifiedMarker
  let set ← look fun files => (extractFile files scanner r.document s.time).mapError .unreadable
  let output := r.output.getD (defaultOutput r.document "_claims" "yaml")
  finish common .success output (ClaimDocument.ofSet set).write
    (set.overview s.color (Text.lossy output))

def checker (s : Session) (config : Config) (sourceRoot : Option Text.Bytes)
    (backends : List String) (files : FileTree) : Except CommandError Checker := do
  match sourceRoot.or (config.validation.sourceRoot.map Text.encode) with
  | none => throw .noSourceRoot
  | some path =>
      let root ← (SourceRoot.ofSettings files path config.validation).mapError .sourceRoot
      let chain ← (SearchChain.ofSettings { s.surroundings with files := files } config.search
        backends).mapError .unknownBackend
      return ⟨files, root, chain⟩

def validate (s : Session) (common : CommonOptions) (r : ValidateRequest) : Work Ending := do
  let config ← look (s.loadConfig common)
  match Format.ofName? r.format with
  | none => throw (.invalidFormat r.format)
  | some format =>
      require (·.isFile r.claims) (.noClaims r.claims)
      let checker ← look (s.checker config r.sourceRoot r.backends)
      let doc ← look fun files => (ClaimDocument.load files r.claims).mapError .claims
      let _ ← look fun _ => (s.machine.pool (r.jobs.getD config.validation.jobs)).mapError .pool
      let report ← look fun _ => (checker.report doc.toSet s.time).mapError .noReturn
      let output := r.output.getD (defaultOutput r.claims "_validation" format.extension)
      finish common (if r.strict && report.hasMissing then .failed else .success) output
        (report.render format) (report.overview s.color (Text.lossy output))

/-- Makes the directory above a file, unless it is the working directory. -/
def makeParent (files : FileTree) (path : Text.Bytes) : FileTree.Changed :=
  match Path.parent? path with
  | some parent =>
      if parent.isEmpty || Path.components parent == [.here] then ⟨files, none⟩
      else files.makeDirectories parent
  | none => ⟨files, none⟩

def init (r : InitRequest) : Work Ending := do
  require (fun files => !files.contains r.output || r.force) (.fileExists r.output)
  change (makeParent · r.output) .noDirectory
  write r.output configTemplate .configUnwritable
  return ⟨.success, nextSteps (Text.lossy r.output), some (r.output, configTemplate)⟩

def perform (s : Session) (common : CommonOptions) : Command → Work Ending
  | .extract r => s.extract common r
  | .validate r => s.validate common r
  | .init r => init r

def work (s : Session) : Request → Work Ending
  | .version => return ⟨.success, versionText, none⟩
  | .help => return ⟨.success, helpText, none⟩
  | .perform common command => s.perform common command

/-- How the run ends, and the files as it leaves them. -/
def run (s : Session) (request : Request) : Except CommandError Ending × FileTree :=
  (s.work request).run.run s.files

def serve (s : Session) (request : Request) : Except CommandError Outcome :=
  match s.run request with
  | (.ok ending, files) => .ok ⟨ending, files⟩
  | (.error e, _) => .error e

end Session
end DocClaims
