import DocClaims.Number.Literal
import DocClaims.Path
import DocClaims.Search.Query
import DocClaims.Text.Quoted

/-!
# Searching with grep

The program prints a record for each line found: the path, a NUL, the number of
the line and the line itself.
-/

namespace DocClaims
namespace Grep

def program : String := "grep"

def arguments (globs : List String) (q : Query) : List Text.Bytes :=
  (["-rnFI", "--null"] ++ globs.map ("--include=" ++ ·) ++ ["-e", q.pattern]).map Text.encode ++
    [q.root]

inductive Fault
  | noSeparator (record : String)
  | noLineNumber (path : String)
  deriving DecidableEq, Repr

def Fault.message : Fault → String
  | noSeparator record => "missing file separator in " ++ Text.quoted record
  | noLineNumber path => "missing line number after " ++ path

def isDigit (b : UInt8) : Bool := 48 ≤ b && b ≤ 57

def lineLimit : Nat := Nat.pow 2 64

def lineNumber? (bytes : Text.Bytes) : Option Nat := do
  let ds := bytes.takeWhile isDigit
  let n ← Number.whole? 10 (ds.map fun b => Char.ofNat b.toNat)
  if n < lineLimit then some n else none

def readRecord (root : Text.Bytes) (record : Text.Bytes) : Except Fault Hit :=
  let path := Text.lossy (record.takeWhile (· != 0))
  match record.dropWhile (· != 0) with
  | [] => .error (.noSeparator (Text.lossy record))
  | _ :: rest =>
      match lineNumber? rest with
      | some n => .ok ⟨Path.relativize root (Text.encode path), n⟩
      | none => .error (.noLineNumber path)

/-- The hits in the output of a search below `root`. -/
def parse (root : Text.Bytes) (output : Text.Bytes) : Except Fault (List Hit) :=
  ((Text.split 10 output).filter (!·.isEmpty)).mapM (readRecord root)

end Grep
end DocClaims
