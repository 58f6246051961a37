import DocClaims.Data.Datum
import DocClaims.Number.Literal

/-!
# Plain scalars

A scalar written without quotes stands for null, a truth value or a number if it
is spelled like one, and else for its own text. Whole numbers may be given in
base 16, 8 or 2; digits behind a leading zero are a text.
-/

namespace DocClaims
namespace Yaml

inductive Plain
  | null
  | flag (b : Bool)
  | integer (n : Int)
  | wide (n : Int)
  | real (negative : Bool) (x : Number.Double)
  | infinite (negative : Bool)
  | notANumber
  | text
  deriving DecidableEq

namespace Plain

def isNullWord (s : String) : Bool := s == "null" || s == "Null" || s == "NULL" || s == "~"

def flag? (s : String) : Option Bool :=
  if s == "true" || s == "True" || s == "TRUE" then some true
  else if s == "false" || s == "False" || s == "FALSE" then some false
  else none

def isSign (c : Char) : Bool := c == '+' || c == '-'

/-- Zeros in front of more digits, behind an optional sign. -/
def isPaddedDigits (cs : List Char) : Bool :=
  let (_, digits) := Number.Literal.splitSign cs
  match digits with
  | '0' :: d :: rest => (d :: rest).all Text.isAsciiDigit
  | _ => false

def dropPlus : List Char → List Char
  | '+' :: rest => rest
  | cs => cs

/-- The base of a number that begins with a zero and a letter, and its digits. -/
def baseOf : List Char → Option (Nat × List Char)
  | '0' :: 'x' :: rest => some (16, rest)
  | '0' :: 'o' :: rest => some (8, rest)
  | '0' :: 'b' :: rest => some (2, rest)
  | _ => none

/-- A whole number of one of the bases, without a sign. -/
def magnitude? (cs : List Char) : Option Nat :=
  match baseOf cs with
  | some (base, digits) => Number.whole? base digits
  | none => Number.whole? 10 cs

/-- A whole number below `limit`, with or without a plus sign. -/
def unsigned? (limit : Nat) (cs : List Char) : Option Nat :=
  if isPaddedDigits cs then none
  else (magnitude? (dropPlus cs)).filter (· < limit)

/-- A whole number down to `-limit`, with a minus sign. -/
def negative? (limit : Nat) : List Char → Option Int
  | '-' :: rest =>
      if isPaddedDigits rest then none
      else ((magnitude? rest).filter (· ≤ limit)).map fun n => -(n : Int)
  | _ => none

def isInfinityWord (s : String) : Bool := s == ".inf" || s == ".Inf" || s == ".INF"

def isNanWord (s : String) : Bool := s == ".nan" || s == ".NaN" || s == ".NAN"

/-- A number with a point or an exponent, or one of the special values. -/
def real? (s : String) : Option Plain :=
  let unsigned := dropPlus s.toList
  if s.toList.head? == some '+' && unsigned.head?.any isSign then none
  else if isInfinityWord (String.ofList unsigned) then some (infinite false)
  else if s.toList.head? == some '-' && isInfinityWord (String.ofList (s.toList.drop 1)) then
    some (infinite true)
  else if isNanWord s then some notANumber
  else (Number.Literal.read? unsigned).bind fun x => x.toDouble?.map (real x.negative)

def integer? (cs : List Char) : Option Plain :=
  match unsigned? (Nat.pow 2 64) cs with
  | some n => some (integer n)
  | none =>
      match negative? (Nat.pow 2 63) cs with
      | some n => some (integer n)
      | none =>
          match unsigned? (Nat.pow 2 128) cs with
          | some n => some (wide n)
          | none => (negative? (Nat.pow 2 127) cs).map wide

def read (s : String) : Plain :=
  if s.isEmpty || isNullWord s then null
  else
    match flag? s with
    | some b => flag b
    | none =>
        match integer? s.toList with
        | some n => n
        | none => if isPaddedDigits s.toList then text else (real? s).getD text

/-- Without quotes the text would be read as itself. -/
def readsAsText (s : String) : Bool := read s == text && !isPaddedDigits s.toList

end Plain
end Yaml
end DocClaims
