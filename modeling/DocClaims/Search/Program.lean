import DocClaims.Search.Query
import DocClaims.Text.Blank

/-!
# External programs

A search program is started, its output is read while it runs, and it is killed when its time is
over. Its end says what came of the search: status 0 means that something was found, 1 that
nothing was, and 2 that not everything could be searched.
-/

namespace DocClaims

open Text (Bytes)

inductive ExitStatus
  | code (n : Nat)
  | signal (n : Nat) (dumped : Bool)
  deriving DecidableEq, Repr

namespace ExitStatus

def signalNames : List (Nat × String) :=
  [(1, "SIGHUP"), (2, "SIGINT"), (3, "SIGQUIT"), (4, "SIGILL"), (5, "SIGTRAP"), (6, "SIGABRT"),
    (7, "SIGBUS"), (8, "SIGFPE"), (9, "SIGKILL"), (10, "SIGUSR1"), (11, "SIGSEGV"),
    (12, "SIGUSR2"), (13, "SIGPIPE"), (14, "SIGALRM"), (15, "SIGTERM"), (16, "SIGSTKFLT"),
    (17, "SIGCHLD"), (18, "SIGCONT"), (19, "SIGSTOP"), (20, "SIGTSTP"), (21, "SIGTTIN"),
    (22, "SIGTTOU"), (23, "SIGURG"), (24, "SIGXCPU"), (25, "SIGXFSZ"), (26, "SIGVTALRM"),
    (27, "SIGPROF"), (28, "SIGWINCH"), (29, "SIGIO"), (30, "SIGPWR"), (31, "SIGSYS")]

def text : ExitStatus → String
  | code n => "exit status: " ++ toString n
  | signal n dumped =>
      "signal: " ++ toString n ++
        (match signalNames.lookup n with
          | some name => " (" ++ name ++ ")"
          | none => "") ++ if dumped then " (core dumped)" else ""

end ExitStatus

/-- What waiting for a program comes to within its time. -/
inductive Waiting
  | exited (status : ExitStatus)
  | overdue
  | failed (reason : String)
  deriving DecidableEq, Repr

/-- What reading a pipe comes to. It ends when no program holds the pipe any more, which may be
never; an error that breaks it off is ignored. -/
inductive PipeReading
  | toEnd (bytes : Bytes)
  | brokenOff (bytes : Bytes)
  | endless
  deriving DecidableEq, Repr

def PipeReading.bytes? : PipeReading → Option Bytes
  | toEnd bytes => some bytes
  | brokenOff bytes => some bytes
  | endless => none

/-- A program that was started, and how it behaves. -/
structure Child where
  waiting : Waiting
  /-- It comes to its end when it is killed. -/
  dies : Bool
  output : PipeReading
  errors : PipeReading
  deriving DecidableEq, Repr

inductive Launch
  | notStarted (reason : String)
  /-- There is no thread to read what the program prints. -/
  | noThread (reason : String)
  | started (child : Child)
  deriving DecidableEq, Repr

/-- What comes of starting a program with a list of arguments. -/
abbrev Program := List Bytes → Launch

structure Invocation where
  program : String
  arguments : List Bytes
  deriving DecidableEq, Repr

def Invocation.isSound (c : Invocation) : Bool := !c.arguments.any fun a => a.contains 0

def Program.start (p : Program) (c : Invocation) : Launch :=
  if c.isSound then p c.arguments else .notStarted "nul byte found in provided data"

/-- What a program that has ended leaves. -/
structure ProgramOutput where
  status : ExitStatus
  output : Bytes
  errors : Bytes
  deriving DecidableEq, Repr

/-- Waits for a program and for both pipes to be read. A program whose time is over is killed
first, and then, too, both pipes are waited for. -/
def Child.finish (backend : String) (limit : Nat) (c : Child) :
    Except NoReturn (Except SearchFailure ProgramOutput) :=
  match c.waiting with
  | .exited status =>
      match c.output.bytes?, c.errors.bytes? with
      | some output, some errors => .ok (.ok ⟨status, output, errors⟩)
      | _, _ => .error .waitsForever
  | .overdue =>
      if c.dies && c.output.bytes?.isSome && c.errors.bytes?.isSome then
        .ok (.error (.overdue backend limit))
      else .error .waitsForever
  | .failed reason =>
      if c.dies then .ok (.error (.notStarted backend reason)) else .error .waitsForever

def Launch.finish (backend : String) (limit : Nat) :
    Launch → Except NoReturn (Except SearchFailure ProgramOutput)
  | notStarted reason => .ok (.error (.notStarted backend reason))
  | noThread reason => .error (.noThread reason)
  | started child => child.finish backend limit

namespace ProgramOutput

def errorText (o : ProgramOutput) : String := Text.trim (Text.lossy o.errors)

def failure (backend : String) (o : ProgramOutput) : SearchFailure :=
  .failed backend o.status.text o.errorText

/-- The answer of a backend that runs a program whose output `parse` reads. What
was found in part of the tree is kept. -/
def answer (backend : String) (parse : Bytes → Except String (List Hit)) (o : ProgramOutput) :
    Answer :=
  match o.status with
  | .code 0 => (parse o.output).mapError (.unreadable backend)
  | .code 1 => .ok []
  | .code 2 =>
      match parse o.output with
      | .ok (hit :: hits) => .ok (hit :: hits)
      | _ => .error (o.failure backend)
  | _ => .error (o.failure backend)

end ProgramOutput
end DocClaims
