/-!
# Options

The options of each command, and how arguments are read into options, values
and words. Short options may share one argument.
-/

namespace DocClaims

inductive CommandOption
  | verbose
  | quiet
  | config
  | help
  | version
  | format
  | jobs
  | backend
  | strict
  | output
  | force
  deriving DecidableEq, Repr

namespace CommandOption

def long : CommandOption → String
  | verbose => "verbose"
  | quiet => "quiet"
  | config => "config"
  | help => "help"
  | version => "version"
  | format => "format"
  | jobs => "jobs"
  | backend => "backend"
  | strict => "strict"
  | output => "output"
  | force => "force"

def short? : CommandOption → Option Char
  | verbose => some 'v'
  | quiet => some 'q'
  | config => some 'c'
  | help => some 'h'
  | version => some 'V'
  | format => some 'f'
  | jobs => some 'j'
  | output => some 'o'
  | backend | strict | force => none

def takesValue : CommandOption → Bool
  | config | format | jobs | backend | output => true
  | _ => false

def display (o : CommandOption) : String := "--" ++ o.long

end CommandOption

inductive UsageError
  | unknownOption (argument : String)
  | missingValue (o : CommandOption)
  | unneededValue (o : CommandOption)
  | emptyValue (name : String)
  | invalidNumber (o : CommandOption) (value : String)
  | repeated (o : CommandOption)
  | conflict (o other : CommandOption)
  | unknownCommand (name : String)
  | noCommand
  | unexpectedWord (word : String)
  | missingWord (name : String)
  deriving DecidableEq, Repr

def UsageError.message : UsageError → String
  | unknownOption argument => "unexpected argument '" ++ argument ++ "' found"
  | missingValue o => "a value is required for '" ++ o.display ++ "' but none was supplied"
  | unneededValue o => "unexpected value for '" ++ o.display ++ "' found; no more were expected"
  | emptyValue name => "a value is required for '" ++ name ++ "' but none was supplied"
  | invalidNumber o value => "invalid value '" ++ value ++ "' for '" ++ o.display ++ "'"
  | repeated o => "the argument '" ++ o.display ++ "' cannot be used multiple times"
  | conflict o other =>
      "the argument '" ++ o.display ++ "' cannot be used with '" ++ other.display ++ "'"
  | unknownCommand name => "unrecognized subcommand '" ++ name ++ "'"
  | noCommand => "a command is required but one was not provided"
  | unexpectedWord word => "unexpected argument '" ++ word ++ "' found"
  | missingWord name => "the required argument '" ++ name ++ "' was not provided"

/-- An option in an argument: complete, or waiting for the next argument. -/
inductive Occurrence
  | flag (o : CommandOption)
  | valued (o : CommandOption) (value : String)
  | waiting (o : CommandOption)
  | faulty (e : UsageError)
  deriving DecidableEq, Repr

namespace Occurrence

/-- An option that begins with two hyphens, without them. -/
def ofLong (options : List CommandOption) (body : List Char) : Occurrence :=
  let name := String.ofList (body.takeWhile (· != '='))
  match options.find? (·.long == name), body.dropWhile (· != '=') with
  | none, _ => .faulty (.unknownOption ("--" ++ name))
  | some o, [] => if o.takesValue then .waiting o else .flag o
  | some o, _ :: value =>
      if o.takesValue then .valued o (String.ofList value) else .faulty (.unneededValue o)

/-- The options of an argument that begins with one hyphen, without it. What
follows an option with a value is its value, behind an equals sign or not. -/
def ofShort (options : List CommandOption) : List Char → List Occurrence
  | [] => []
  | c :: rest =>
      match options.find? (·.short? == some c) with
      | none => [.faulty (.unknownOption ("-" ++ String.singleton c))]
      | some o =>
          if !o.takesValue then .flag o :: ofShort options rest
          else
            match rest with
            | [] => [.waiting o]
            | '=' :: value => [.valued o (String.ofList value)]
            | value => [.valued o (String.ofList value)]

end Occurrence

inductive Argument
  | options (occurrences : List Occurrence)
  | word (w : String)
  | wordsOnly
  deriving DecidableEq, Repr

def Argument.read (options : List CommandOption) (s : String) : Argument :=
  match s.toList with
  | ['-', '-'] => .wordsOnly
  | '-' :: '-' :: body => .options [Occurrence.ofLong options body]
  | '-' :: c :: body => .options (Occurrence.ofShort options (c :: body))
  | _ => .word s

/-- The argument may be the value of the option before it. -/
def Argument.isValue : Argument → Bool
  | .word _ => true
  | _ => false

end DocClaims
