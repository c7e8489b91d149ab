import ContentionChart.Binary64.Basic

/-!
# Decimals

A decimal is a whole coefficient times a power of ten. This module has the value of a decimal, the
two ways to round a value to one (to a number of places, or to a number of significant digits) and
the two ways to write one down.

## Main definitions

* `Decimal.toRat` — the value of a decimal.
* `Decimal.toPlaces`, `Decimal.toSignificant` — rounding, ties to even.
* `Decimal.positional`, `Decimal.scientific` — the written forms.
-/

namespace ContentionChart

/-- The number `coefficient * 10 ^ exponent`. -/
structure Decimal where
  coefficient : Nat
  exponent : Int
  deriving DecidableEq, Repr

namespace Decimal

def toRat (d : Decimal) : Rat := d.coefficient * (10 : Rat) ^ d.exponent

/-- The digits of a number, without leading zeros. -/
def digits (n : Nat) : List Char := Nat.toDigits 10 n

/-- The exponent of the first digit. -/
def leadingExponent (d : Decimal) : Int := d.exponent + (digits d.coefficient).length - 1

/-- The greatest `k` with `10 ^ k ≤ q`, for a positive `q`. -/
def decimalExponent (q : Rat) : Int :=
  let k : Int := ((digits q.num.natAbs).length : Int) - ((digits q.den).length : Int)
  if (10 : Rat) ^ k ≤ q then k else k - 1

/-! ## Rounding -/

/-- The nearest multiple of `10 ^ exponent`, ties to even. -/
def roundTo (exponent : Int) (q : Rat) : Decimal :=
  ⟨(Binary64.roundHalfEven (q / (10 : Rat) ^ exponent)).toNat, exponent⟩

/-- The nearest decimal with the given number of digits after the point. -/
def toPlaces (places : Nat) (q : Rat) : Decimal := roundTo (-places) q

/-- The nearest decimal with the given number of significant digits. Where the digits are all nines
and round up, the value moves to the next power of ten and keeps that number of digits. -/
def toSignificant (count : Nat) (q : Rat) : Decimal :=
  let d := roundTo (decimalExponent q - count + 1) q
  if (digits d.coefficient).length ≤ count then d else ⟨d.coefficient / 10, d.exponent + 1⟩

/-! ## Written forms -/

/-- The digits with a point before the last `places` of them, and at least one digit in front. -/
def withPoint (places : Nat) (ds : List Char) : List Char :=
  let ds := List.replicate (places + 1 - ds.length) '0' ++ ds
  let whole := ds.length - places
  if places = 0 then ds else ds.take whole ++ '.' :: ds.drop whole

/-- All digits down to the last significant one or to the units, and no exponent. -/
def positional (d : Decimal) : List Char :=
  if 0 ≤ d.exponent then digits d.coefficient ++ List.replicate d.exponent.toNat '0'
  else withPoint (-d.exponent).toNat (digits d.coefficient)

def intDigits (n : Int) : List Char :=
  if n < 0 then '-' :: digits n.natAbs else digits n.natAbs

/-- The first digit, a point if more follow, the others, and the exponent of the first. -/
def scientificForm (exponent : Int) : List Char → List Char
  | [] => []
  | [d] => d :: 'e' :: intDigits exponent
  | d :: ds => d :: '.' :: ds ++ 'e' :: intDigits exponent

def scientific (d : Decimal) : List Char :=
  scientificForm d.leadingExponent (digits d.coefficient)

end Decimal

end ContentionChart
