import DocClaims.Number.Double

/-!
# Decimal texts of numbers

The fewest digits that read back as the same number, and of those the nearest;
written in positional notation or with an exponent. Percentages have one
decimal place.
-/

namespace DocClaims
namespace Number

def digits (n : Nat) : String := toString n

/-- The value `coefficient * 10 ^ exponent`. -/
structure Decimal where
  coefficient : Nat
  exponent : Int
  deriving DecidableEq, Repr

namespace Decimal

/-- The powers of ten and two of `10 ^ k / 2 ^ e`, as a quotient. -/
def gridStep (k e : Int) : Nat × Nat :=
  let (a, b) := if 0 ≤ k then (Nat.pow 10 k.toNat, 1) else (1, Nat.pow 10 (-k).toNat)
  if 0 ≤ e then (a, b * Nat.pow 2 e.toNat) else (a * Nat.pow 2 (-e).toNat, b)

/-- The multiple of `10 ^ k` nearest to `x` among those that round to `x`. -/
def onGrid (x : Double) (k : Int) : Option Nat :=
  let m := 4 * x.significand
  let low :=
    if x.significand == Nat.pow 2 52 && Double.leastExponent < x.exponent then m - 1 else m - 2
  let high := m + 2
  -- a multiple `d` is compared as `d * a / b` with quarters of the last place
  let (a, b) := gridStep k (x.exponent - 2)
  let reads := fun d =>
    if x.significand % 2 == 0 then low * b ≤ d * a && d * a ≤ high * b
    else low * b < d * a && d * a < high * b
  let below := m * b / a
  let above := below + 1
  if reads below && below != 0 then
    if reads above && above * a - m * b < m * b - below * a then some above else some below
  else if reads above then some above
  else none

/-- The decimal of the coarsest grid, from `10 ^ k` down, that reads back as `x`. -/
def shortestFrom (x : Double) (k : Int) : Nat → Decimal
  | 0 => ⟨x.num / x.den, 0⟩
  | fuel + 1 =>
      match onGrid x k with
      | some d => ⟨d, k⟩
      | none => shortestFrom x (k - 1) fuel

def shortest (x : Double) : Decimal :=
  if x.significand == 0 then ⟨0, 0⟩
  else shortestFrom x (((Nat.log2 x.significand : Int) + x.exponent) * 30103 / 100000 + 2) 24

/-- Positional notation, with a point only where there are decimal places. -/
def positional (d : Decimal) : String :=
  let text := digits d.coefficient
  if 0 ≤ d.exponent then
    if d.coefficient == 0 then text
    else text ++ String.ofList (List.replicate d.exponent.toNat '0')
  else
    let places := (-d.exponent).toNat
    let padded := String.ofList (List.replicate (places + 1 - text.length) '0') ++ text
    let whole := padded.length - places
    String.ofList (padded.toList.take whole) ++ "." ++ String.ofList (padded.toList.drop whole)

/-- Positional notation with at least one decimal place. -/
def pointed (d : Decimal) : String :=
  if 0 ≤ d.exponent then d.positional ++ ".0" else d.positional

def twoDigits (n : Nat) : String := if n < 10 then "0" ++ digits n else digits n

/-- Positional where the point falls among or near the digits, else with an
exponent behind the first digit. -/
def scientific (d : Decimal) : String :=
  let text := digits d.coefficient
  let point := (text.length : Int) + d.exponent
  if d.coefficient == 0 || (-5 < point && point ≤ 16) then d.pointed
  else
    let e := point - 1
    let first := String.ofList (text.toList.take 1)
    let others := String.ofList (text.toList.drop 1)
    first ++ (if others.isEmpty then "" else "." ++ others) ++ "e" ++
      (if 0 ≤ e then "+" else "-") ++ twoDigits e.natAbs

end Decimal

/-- The share of `part` in `total` as a percentage; a total of zero counts as one. -/
def percentText (part total : Nat) : String :=
  let share := ((Double.ofNat part).div (Double.ofNat (max total 1))).mul (Double.ofNat 100)
  let tenths := roundDiv (share.num * 10) share.den
  digits (tenths / 10) ++ "." ++ digits (tenths % 10)

end Number
end DocClaims
