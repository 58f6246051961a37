import DocClaims.Number.Decimal
import DocClaims.Search.FileClass
import DocClaims.Search.Hit
import DocClaims.Text.Utf8

/-!
# Queries and answers

A query asks for the lines below a directory that hold a text. A backend answers
with hits, perhaps none, or fails, unless it does not return at all.
-/

namespace DocClaims

structure Query where
  pattern : String
  root : Text.Bytes
  fileClass : FileClass
  deriving DecidableEq, Repr

inductive SearchFailure
  | notInstalled (backend : String)
  | notStarted (backend reason : String)
  | overdue (backend : String) (nanoseconds : Nat)
  | failed (backend status errors : String)
  | unreadable (backend reason : String)
  deriving DecidableEq, Repr

def nanosecondsInSecond : Nat := 1000000000

/-- A duration in seconds, rounded to a double. -/
def secondsText (nanoseconds : Nat) : String :=
  let whole := Number.Double.ofNat (nanoseconds / nanosecondsInSecond)
  let part :=
    Number.Double.ofRatio (nanoseconds % nanosecondsInSecond) nanosecondsInSecond
  (Number.Decimal.shortest (whole.add part)).positional

def SearchFailure.message : SearchFailure → String
  | notInstalled backend => backend ++ " is not installed"
  | notStarted backend reason => "failed to start " ++ backend ++ ": " ++ reason
  | overdue backend nanoseconds => backend ++ " timed out after " ++ secondsText nanoseconds ++ "s"
  | failed backend status errors => backend ++ " exited with " ++ status ++ ": " ++ errors
  | unreadable backend reason => "unreadable output from " ++ backend ++ ": " ++ reason

abbrev Answer := Except SearchFailure (List Hit)

/-- Why a search never gives its answer: it panics, or what it waits for does not happen. -/
inductive NoReturn
  /-- The instant at which the search has to end lies beyond the end of the clock. -/
  | clockOverflow
  /-- No thread is left to read what a program prints. -/
  | noThread (reason : String)
  | waitsForever
  deriving DecidableEq, Repr

/-- What is printed about a panic. -/
def NoReturn.message? : NoReturn → Option String
  | clockOverflow => some "overflow when adding duration to instant"
  | noThread reason => some ("failed to spawn thread: " ++ reason)
  | waitsForever => none

end DocClaims
