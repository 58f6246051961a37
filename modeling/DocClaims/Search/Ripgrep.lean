import DocClaims.Json.Value
import DocClaims.Path
import DocClaims.Search.Query
import DocClaims.Text.Split

/-!
# Searching with ripgrep

The program prints a message on each line. Messages about lines found hold the
path, if it is a text, and the number of the line.
-/

namespace DocClaims
namespace Ripgrep

def program : String := "rg"

def arguments (globs : List String) (q : Query) : List Text.Bytes :=
  (["--json", "--fixed-strings", "--no-ignore", "--hidden", "--no-messages"] ++
    globs.flatMap (["--glob", ·]) ++ ["-e", q.pattern]).map Text.encode ++ [q.root]

inductive Fault
  | malformed (line : Text.Bytes) (error : Json.ReadError)
  | mismatch (m : Mismatch)
  deriving DecidableEq, Repr

def Fault.message : Fault → String
  | malformed line error => error.message line
  | mismatch m => m.message

structure Message where
  kind : String
  data : Datum

def messageReader : Json.Reader Datum :=
  Json.record "Message"
    [⟨"type", none, none, Json.reader .text⟩,
      ⟨"data", some .null, some .null, Json.anything (Json.depthLimit - 1)⟩]

def readMessage (line : Text.Bytes) : Except Json.ReadError Message := do
  let d ← Json.readWith messageReader line
  return ⟨((d.get? "type").bind Datum.toText?).getD "", (d.get? "data").getD .null⟩

def pathFit : Json.Fit :=
  Json.fitRecord "Data" [⟨"text", some .null, none, Json.fitOptional Json.fitText⟩]

def matchFit : Json.Fit :=
  Json.fitRecord "MatchData"
    [⟨"path", none, none, pathFit⟩,
      ⟨"line_number", some .null, none, Json.fitOptional (Json.fitCount "usize")⟩]

/-- The hit that a message tells of, if it tells of one. -/
def readHit (root : Text.Bytes) (line : Text.Bytes) : Except Fault (Option Hit) := do
  let m ← (readMessage line).mapError (.malformed line)
  if m.kind != "match" then return none
  else
    let d ← (matchFit m.data).mapError .mismatch
    return do
      let path ← ((← d.get? "path").get? "text").bind Datum.toText?
      let n ← (d.get? "line_number").bind Datum.toCount?
      some ⟨Path.relativize root (Text.encode path), n⟩

def isBlank (b : UInt8) : Bool := b == 32 || b == 9 || b == 10 || b == 12 || b == 13

/-- The hits in the output of a search below `root`. -/
def parse (root : Text.Bytes) (output : Text.Bytes) : Except Fault (List Hit) := do
  let hits ← ((Text.split 10 output).filter (!·.all isBlank)).mapM (readHit root)
  return hits.filterMap id

end Ripgrep
end DocClaims
