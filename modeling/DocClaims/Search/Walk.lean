import DocClaims.Files.Visit
import DocClaims.Search.Query
import DocClaims.Text.Lines

/-!
# Searching by a walk

The files below a directory are visited one after the other. Files that cannot be read or look
binary are passed over, and the clock is read at every visit.
-/

namespace DocClaims

/-- What a clock shows, in nanoseconds, each time it is read during one search. -/
abbrev Clock := Nat → Nat

/-- The first instant that no clock shows. -/
def clockEnd : Nat := Nat.pow 2 63 * nanosecondsInSecond

namespace Walk

/-- A NUL among this many first bytes makes a file binary. -/
def sampleSize : Nat := 8192

def isBinary (bytes : Text.Bytes) : Bool := (bytes.take sampleSize).contains 0

def matchingLines (pattern : String) (bytes : Text.Bytes) : List Nat :=
  ((Text.lines (Text.decodeLossy bytes)).zipIdx 1).filterMap fun (line, n) =>
    if Text.occursIn pattern.toList line then some n else none

def hitsAt (files : FileTree) (q : Query) (filter : Option FileFilter) (v : Visit) : List Hit :=
  match v.node with
  | .file _ =>
      let path := Path.below q.root v.names
      let relative := Path.relativize q.root path
      if FileFilter.admits filter relative then
        match files.read path with
        | .ok bytes =>
            if isBinary bytes then []
            else (matchingLines q.pattern bytes).map fun n => ⟨relative, n⟩
        | .error _ => []
      else []
  | _ => []

def name : String := "walk"

def search (files : FileTree) (clock : Clock) (extensions : Extensions) (limit : Nat) (q : Query) :
    Except NoReturn Answer :=
  let deadline := clock 0 + limit
  if clockEnd ≤ deadline then .error .clockOverflow
  else .ok <|
    match extensions.filter q.fileClass with
    | .error fault => .error (.failed name "invalid glob" fault.message)
    | .ok filter =>
        let visits := files.visits q.root
        if (List.range visits.length).any fun i => deadline ≤ clock (i + 1) then
          .error (.overdue name limit)
        else .ok (visits.flatMap (hitsAt files q filter))

end Walk
end DocClaims
