import DocClaims.Yaml.Plain
import DocClaims.Text.Lines

/-!
# Styles of scalars

Which of the ways to write a scalar is taken for a text: without quotes where
that reads back as the same text, on lines of its own where the text has line
feeds, and between single or double quotes otherwise.
-/

namespace DocClaims
namespace Yaml

inductive Style
  | plain
  | single
  | double
  | literal
  | folded
  deriving DecidableEq, Repr

def isBreak (c : Char) : Bool :=
  c == '\n' || c == '\r' || c.toNat == 0x85 || c.toNat == 0x2028 || c.toNat == 0x2029

def isGap (c : Char) : Bool := c == ' ' || c == '\t'

def isGapOrBreak (c : Char) : Bool := isGap c || isBreak c

/-- At the end of the text, or before a gap or a break. -/
def endsWord : List Char → Bool
  | [] => true
  | c :: _ => isGapOrBreak c

def isPrintable (c : Char) : Bool :=
  let n := c.toNat
  n == 10 || (0x20 ≤ n && n ≤ 0x7E) || (0xA0 ≤ n && n ≤ 0xD7FF) ||
    (0xE000 ≤ n && n ≤ 0xFFFD && n != 0xFEFF) || 0x10000 ≤ n

def firstIndicators : List Char :=
  ['#', ',', '[', ']', '\x7b', '\x7d', '&', '*', '!', '|', '>', '\'', '"', '%', '@', '\x60']

def startsLikeIndicator : List Char → Bool
  | [] => false
  | c :: rest =>
      firstIndicators.contains c || ((c == '?' || c == ':' || c == '-') && endsWord rest)

/-- A colon that ends a word, or a number sign that begins one, behind the
character `before`. -/
def hasInnerIndicator (before : Char) : List Char → Bool
  | [] => false
  | c :: rest =>
      (c == ':' && endsWord rest) || (c == '#' && isGapOrBreak before) || hasInnerIndicator c rest

/-- Something in the text means more than itself when it is not quoted. -/
def hasIndicator (cs : List Char) : Bool :=
  "---".toList.isPrefixOf cs || "...".toList.isPrefixOf cs || startsLikeIndicator cs ||
    match cs with
    | [] => false
    | c :: rest => hasInnerIndicator c rest

/-- A character of the first kind stands directly before one of the second. -/
def hasPair (first second : Char → Bool) : List Char → Bool
  | [] => false
  | [_] => false
  | c :: d :: rest => (first c && second d) || hasPair first second (d :: rest)

def isSpace (c : Char) : Bool := c == ' '

def hasLooseEnd (cs : List Char) : Bool :=
  cs.head?.any (fun c => isSpace c || isBreak c) ||
    cs.getLast?.any (fun c => isSpace c || isBreak c)

def needsEscapes (cs : List Char) : Bool :=
  !cs.all isPrintable || hasPair isSpace isBreak cs

def allowsPlain (cs : List Char) : Bool :=
  !hasLooseEnd cs && !cs.any isBreak && !hasIndicator cs

def allowsSingle (cs : List Char) : Bool := !hasPair isBreak isSpace cs

def allowsLiteral (cs : List Char) : Bool := !cs.getLast?.any isSpace

def Style.ofText (s : String) : Style :=
  let cs := s.toList
  if cs.contains '\n' then
    if needsEscapes cs || !allowsLiteral cs then .double else .literal
  else if needsEscapes cs then .double
  else if Plain.readsAsText s && allowsPlain cs then .plain
  else if allowsSingle cs then .single
  else .double

end Yaml
end DocClaims
