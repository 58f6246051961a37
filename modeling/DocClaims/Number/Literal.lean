import DocClaims.Number.Double
import DocClaims.Text.WordChar

/-!
# Reading numbers

Whole numbers in a given base, and decimal numbers with an optional point and
an optional exponent.
-/

namespace DocClaims
namespace Number

def digitValue (c : Char) : Nat :=
  if Text.isAsciiDigit c then c.toNat - 48
  else if Text.isAsciiLower c then c.toNat - 87
  else if Text.isAsciiUpper c then c.toNat - 55
  else 36

def valueOfDigits (base : Nat) (ds : List Char) : Nat :=
  ds.foldl (fun n c => n * base + digitValue c) 0

def whole? (base : Nat) (cs : List Char) : Option Nat :=
  if cs.isEmpty || !cs.all (fun c => digitValue c < base) then none
  else some (valueOfDigits base cs)

/-- The number `coefficient * 10 ^ exponent`, or its negative. -/
structure Literal where
  negative : Bool
  coefficient : Nat
  exponent : Int
  deriving DecidableEq, Repr

namespace Literal

/-- A sign, if there is one, and what follows it. -/
def splitSign : List Char → Bool × List Char
  | '-' :: rest => (true, rest)
  | '+' :: rest => (false, rest)
  | cs => (false, cs)

/-- The value of an exponent mark with its digits, or of nothing. -/
def readExponent : List Char → Option Int
  | [] => some 0
  | c :: rest =>
      if c == 'e' || c == 'E' then
        let (negative, ds) := splitSign rest
        (whole? 10 ds).map fun n => if negative then -(n : Int) else n
      else none

/-- The places behind the point, if there is one, and what follows them. -/
def splitPlaces : List Char → List Char × List Char
  | '.' :: rest => (rest.takeWhile Text.isAsciiDigit, rest.dropWhile Text.isAsciiDigit)
  | cs => ([], cs)

/-- Digits before the point or behind it, with an optional sign and an optional
exponent. -/
def read? (cs : List Char) : Option Literal :=
  let (negative, cs) := splitSign cs
  let before := cs.takeWhile Text.isAsciiDigit
  let (places, rest) := splitPlaces (cs.dropWhile Text.isAsciiDigit)
  if before.isEmpty && places.isEmpty then none
  else (readExponent rest).map fun e =>
    ⟨negative, valueOfDigits 10 (before ++ places), e - places.length⟩

/-- The nearest double, unless the number is too large. -/
def toDouble? (x : Literal) : Option Double :=
  let size : Int := (toString x.coefficient).length + x.exponent
  if x.coefficient == 0 || size < -400 then some (Double.ofNat 0)
  else if 400 < size then none
  else
    let d := if 0 ≤ x.exponent then Double.ofNat (x.coefficient * Nat.pow 10 x.exponent.toNat)
      else Double.ofRatio x.coefficient (Nat.pow 10 (-x.exponent).toNat)
    if d.overflows then none else some d

end Literal
end Number
end DocClaims
