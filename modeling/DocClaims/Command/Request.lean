import DocClaims.Command.Option
import DocClaims.Number.Literal
import DocClaims.Text.Utf8

/-!
# Requests

What the arguments of a run ask for. Options that all commands share may stand
before the command or behind it; there the ones behind it count. Asking for the
version or for help ends the reading of arguments.
-/

namespace DocClaims

structure ExtractRequest where
  document : Text.Bytes
  output : Option Text.Bytes
  deriving DecidableEq, Repr

structure ValidateRequest where
  claims : Text.Bytes
  sourceRoot : Option Text.Bytes
  output : Option Text.Bytes
  format : String
  jobs : Option Nat
  backends : List String
  strict : Bool
  deriving DecidableEq, Repr

structure InitRequest where
  output : Text.Bytes
  force : Bool
  deriving DecidableEq, Repr

inductive Command
  | extract (r : ExtractRequest)
  | validate (r : ValidateRequest)
  | init (r : InitRequest)
  deriving DecidableEq, Repr

structure CommonOptions where
  verbosity : Nat
  quiet : Bool
  config : Option Text.Bytes
  deriving DecidableEq, Repr

inductive Request
  | version
  | help
  | perform (common : CommonOptions) (command : Command)
  deriving DecidableEq, Repr

inductive Stop
  | version
  | help
  | fault (e : UsageError)
  deriving DecidableEq, Repr

inductive CommandName
  | extract
  | validate
  | init
  deriving DecidableEq, Repr

namespace CommandName

def ofName? : String → Option CommandName
  | "extract" => some extract
  | "validate" | "check" => some validate
  | "init" => some init
  | _ => none

def common : List CommandOption := [.verbose, .quiet, .config, .help]

def options : CommandName → List CommandOption
  | extract => common
  | validate => common ++ [.format, .jobs, .backend, .strict]
  | init => common ++ [.output, .force]

/-- The words that may follow, of which only the first is required. -/
def words : CommandName → List String
  | extract => ["<DOCUMENT>", "[OUTPUT]"]
  | validate => ["<CLAIMS>", "[SOURCE_ROOT]", "[OUTPUT]"]
  | init => []

end CommandName

/-- What was given so far to one command; words and backends are in reverse. -/
structure Given where
  verbosity : Nat
  flags : List CommandOption
  values : List (CommandOption × String)
  backends : List String
  words : List String
  deriving DecidableEq, Repr

namespace Given

def nothing : Given := ⟨0, [], [], [], []⟩

def has (g : Given) (o : CommandOption) : Bool := g.flags.contains o

def value? (g : Given) (o : CommandOption) : Option String := g.values.lookup o

def jobsLimit : Nat := Nat.pow 2 64

def jobs? (s : String) : Option Nat := do
  let cs := s.toList
  let n ← Number.whole? 10 (if cs.head? == some '+' then cs.tail else cs)
  if n < jobsLimit then some n else none

def isPath : CommandOption → Bool
  | .config | .output => true
  | _ => false

def checkValue (o : CommandOption) (value : String) : Except Stop Unit :=
  if isPath o && value.isEmpty then .error (.fault (.emptyValue o.display))
  else if o == .jobs && (jobs? value).isNone then .error (.fault (.invalidNumber o value))
  else .ok ()

def addValue (g : Given) (o : CommandOption) (value : String) : Except Stop Given := do
  if o == .backend then return { g with backends := value :: g.backends }
  if (g.value? o).isSome then throw (.fault (.repeated o))
  checkValue o value
  return { g with values := (o, value) :: g.values }

def addFlag (g : Given) (o : CommandOption) : Except Stop Given :=
  match o with
  | .version => .error .version
  | .help => .error .help
  | .verbose => .ok { g with verbosity := g.verbosity + 1 }
  | o =>
      if g.has o then .error (.fault (.repeated o)) else .ok { g with flags := o :: g.flags }

def addAll (g : Given) : List Occurrence → Except Stop (Given × Option CommandOption)
  | [] => .ok (g, none)
  | .flag o :: rest => do addAll (← g.addFlag o) rest
  | .valued o value :: rest => do addAll (← g.addValue o value) rest
  | .waiting o :: _ => .ok (g, some o)
  | .faulty e :: _ => .error (.fault e)

/-- Adds a word, if one more of the `names` is left for it. -/
def addWord (g : Given) (names : List String) (w : String) : Except Stop Given :=
  match names[g.words.length]? with
  | none => .error (.fault (.unexpectedWord w))
  | some name =>
      if w.isEmpty then .error (.fault (.emptyValue name))
      else .ok { g with words := w :: g.words }

def addWords (names : List String) (g : Given) (ws : List String) : Except Stop Given :=
  ws.foldlM (fun g w => g.addWord names w) g

def checkConflict (g : Given) : Except Stop Unit :=
  if g.has .quiet && 0 < g.verbosity then .error (.fault (.conflict .quiet .verbose)) else .ok ()

/-- The value that an option waits for, and the arguments behind it. -/
def awaited (options : List CommandOption) (o : CommandOption) :
    List String → Except Stop (String × List String)
  | [] => .error (.fault (.missingValue o))
  | value :: rest =>
      if (Argument.read options value).isValue then .ok (value, rest)
      else .error (.fault (.missingValue o))

/-- Reads the arguments of a command, `fuel` bounds their number. -/
def read (options : List CommandOption) (names : List String) :
    Nat → Given → List String → Except Stop Given
  | 0, g, _ => .ok g
  | _ + 1, g, [] => .ok g
  | fuel + 1, g, arg :: rest =>
      match Argument.read options arg with
      | .wordsOnly => g.addWords names rest
      | .word w => do read options names fuel (← g.addWord names w) rest
      | .options occurrences => do
          match ← g.addAll occurrences with
          | (g, none) => read options names fuel g rest
          | (g, some o) =>
              let (value, rest) ← awaited options o rest
              read options names fuel (← g.addValue o value) rest

/-- Reads arguments up to the first word, which names a command. -/
def readCommon (options : List CommandOption) :
    Nat → Given → List String → Except Stop (Given × String × List String)
  | 0, _, _ => .error (.fault .noCommand)
  | _ + 1, _, [] => .error (.fault .noCommand)
  | fuel + 1, g, arg :: rest =>
      match Argument.read options arg with
      | .wordsOnly =>
          .error (.fault (match rest with | [] => .noCommand | w :: _ => .unexpectedWord w))
      | .word w => .ok (g, w, rest)
      | .options occurrences => do
          match ← g.addAll occurrences with
          | (g, none) => readCommon options fuel g rest
          | (g, some o) =>
              let (value, rest) ← awaited options o rest
              readCommon options fuel (← g.addValue o value) rest

end Given

namespace Request

/-- The file that `init` writes unless told otherwise. -/
def defaultOutput : String := "claimcheck.yaml"

def defaultFormat : String := "yaml"

def command (name : CommandName) (g : Given) : Except Stop Command :=
  match name, g.words.reverse with
  | .init, _ =>
      .ok (.init ⟨(g.value? .output).getD defaultOutput, g.has .force⟩)
  | name, [] => .error (.fault (.missingWord (name.words.headD "")))
  | .extract, document :: others => .ok (.extract ⟨document, others.head?.map Text.encode⟩)
  | .validate, claims :: others =>
      .ok (.validate ⟨claims, others.head?.map Text.encode, others.tail.head?.map Text.encode,
        (g.value? .format).getD defaultFormat, (g.value? .jobs).bind Given.jobs?,
        g.backends.reverse, g.has .strict⟩)

/-- The options given before and behind the command, and the path of a
configuration file in the environment. -/
def commonOptions (outer inner : Given) (named : Option Text.Bytes) :
    Except Stop CommonOptions := do
  let outerConfig := outer.value? .config
  let innerConfig := inner.value? .config
  if named == some [] && (outerConfig.isNone || innerConfig.isNone) then
    throw (.fault (.emptyValue CommandOption.config.display))
  inner.checkConflict
  outer.checkConflict
  return ⟨if inner.verbosity == 0 then outer.verbosity else inner.verbosity,
    outer.has .quiet || inner.has .quiet, ((innerConfig.or outerConfig).map Text.encode).or named⟩

/-- Help may be asked for by a command too, about a command or in general. -/
def helpCommand : List String → Except Stop Request
  | [] => .ok .help
  | name :: others =>
      if (CommandName.ofName? name).isNone && name != "help" then
        .error (.fault (.unknownCommand name))
      else
        match others with
        | [] => .ok .help
        | other :: _ => .error (.fault (.unknownCommand other))

def readAll (args : List String) (named : Option Text.Bytes) : Except Stop Request := do
  let (outer, word, rest) ←
    Given.readCommon (CommandName.common ++ [.version]) args.length .nothing args
  if word == "help" then helpCommand rest
  else
    match CommandName.ofName? word with
    | none => throw (.fault (.unknownCommand word))
    | some name =>
        let inner ← Given.read name.options name.words rest.length .nothing rest
        let c ← command name inner
        return .perform (← commonOptions outer inner named) c

/-- What the arguments ask for; `named` is the configuration file that the
environment names. -/
def read (args : List String) (named : Option Text.Bytes) : Except UsageError Request :=
  match readAll args named with
  | .ok r => .ok r
  | .error .version => .ok .version
  | .error .help => .ok .help
  | .error (.fault e) => .error e

end Request
end DocClaims
