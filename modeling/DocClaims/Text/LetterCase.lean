import DocClaims.Text.CaseRanges
import DocClaims.Text.WordChar

/-!
# Letter case

Upper and lower case by the Unicode properties, and the lowercase mapping of
characters and of whole texts.
-/

namespace DocClaims
namespace Text

def inRuns (n : Nat) (runs : List (Nat × Nat × Nat)) : Bool :=
  runs.any fun (first, last, step) => first ≤ n && n ≤ last && (n - first) % step == 0

def isUpper (c : Char) : Bool :=
  if c.toNat < 128 then isAsciiUpper c else inRuns c.toNat upperRuns

def isLower (c : Char) : Bool :=
  if c.toNat < 128 then isAsciiLower c else inRuns c.toNat lowerRuns

/-- The lowercase of one character. Capital I with a dot above is the only
character that becomes two. -/
def lowerChar (c : Char) : List Char :=
  let n := c.toNat
  if n < 128 then
    [if isAsciiUpper c then Char.ofNat (n + 32) else c]
  else if n == 0x130 then
    ['i', Char.ofNat 0x307]
  else
    match lowercaseRuns.find? fun (first, last, step, _) =>
        first ≤ n && n ≤ last && (n - first) % step == 0 with
    | some (_, _, _, distance) => [Char.ofNat (n + distance).toNat]
    | none => [c]

def isCased (c : Char) : Bool := isUpper c || isLower c || inRanges c.toNat titleRanges

/-- A cased letter comes next, after any case-ignorable characters. -/
def casedNext (cs : List Char) : Bool :=
  ((cs.dropWhile fun c => inRanges c.toNat caseIgnorableRanges).head?.map isCased).getD false

/-- Lowercases `rest`, which comes after the characters of `before` (latest
first). A capital sigma that ends a word takes its final form. -/
def lowerFrom (before : List Char) : List Char → List Char
  | [] => []
  | c :: rest =>
      let low :=
        if c.toNat == 0x3A3 && casedNext before && !casedNext rest then [Char.ofNat 0x3C2]
        else lowerChar c
      low ++ lowerFrom (c :: before) rest

def lower (s : String) : String := String.ofList (lowerFrom [] s.toList)

def lowerAscii (s : String) : String :=
  String.ofList (s.toList.map fun c => if isAsciiUpper c then Char.ofNat (c.toNat + 32) else c)

end Text
end DocClaims
