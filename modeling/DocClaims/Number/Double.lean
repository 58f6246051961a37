/-!
# Double precision numbers

Nonnegative binary numbers with a significand of at most 53 bits, as exact
values. Operations are exact first and then rounded to the nearest such number,
a tie going to the even significand.
-/

namespace DocClaims
namespace Number

/-- The nearest whole number to `num / den`; a tie goes to the even one. -/
def roundDiv (num den : Nat) : Nat :=
  let q := num / den
  let r := num % den
  if den < 2 * r || (2 * r == den && q % 2 == 1) then q + 1 else q

/-- The value `significand * 2 ^ exponent`. -/
structure Double where
  significand : Nat
  exponent : Int
  deriving DecidableEq, Repr

namespace Double

def leastExponent : Int := -1074

def scaled (num den : Nat) (e : Int) : Nat × Nat :=
  if 0 ≤ e then (num, den * Nat.pow 2 e.toNat) else (num * Nat.pow 2 (-e).toNat, den)

def ofRatio (num den : Nat) : Double :=
  if num == 0 then ⟨0, leastExponent⟩
  else
    let low : Int := (Nat.log2 num : Int) - Nat.log2 den - 53
    let (a, b) := scaled num den low
    let e := max leastExponent (if Nat.pow 2 53 ≤ a / b then low + 1 else low)
    let (a, b) := scaled num den e
    let m := roundDiv a b
    if m == Nat.pow 2 53 then ⟨Nat.pow 2 52, e + 1⟩ else ⟨m, e⟩

def ofNat (n : Nat) : Double := ofRatio n 1

def overflows (x : Double) : Bool := x.significand != 0 && 971 < x.exponent

def num (x : Double) : Nat :=
  if 0 ≤ x.exponent then x.significand * Nat.pow 2 x.exponent.toNat else x.significand

def den (x : Double) : Nat := if 0 ≤ x.exponent then 1 else Nat.pow 2 (-x.exponent).toNat

def add (x y : Double) : Double := ofRatio (x.num * y.den + y.num * x.den) (x.den * y.den)

def mul (x y : Double) : Double := ofRatio (x.num * y.num) (x.den * y.den)

def div (x y : Double) : Double := ofRatio (x.num * y.den) (x.den * y.num)

end Double
end Number
end DocClaims
