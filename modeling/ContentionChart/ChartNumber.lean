import ContentionChart.Binary64.Logarithm

/-!
# Numbers that a chart is computed with

Scales, ticks, axes and layouts are written for any kind of number with the operations below, and
run on doubles. Stated once for all of them, a rule of the layout holds for doubles with their
rounding, their infinities and their absent numbers as well as for exact numbers.

## Main definitions

* `ChartNumber` — the operations.
* `ChartNumber.larger` — the larger of two numbers, where one may be no number.
-/

namespace ContentionChart

/-- Numbers that throughputs and chart positions are made of. -/
class ChartNumber (α : Type) extends Add α, Sub α, Mul α, Div α, Neg α, LE α, LT α,
    OfScientific α where
  [decidableLE : DecidableLE α]
  [decidableLT : DecidableLT α]
  ofInt : Int → α
  isFinite : α → Bool
  abs : α → α
  /-- One with the sign of the argument; zero counts as positive unless it has a sign itself. -/
  signum : α → α
  floor : α → α
  ceil : α → α
  /-- The nearest whole number, halves away from zero. -/
  round : α → α
  /-- The integer part, held inside an interval; no number counts as zero. -/
  toIntWithin : Int → Int → α → Int
  log10 : α → α
  exp10 : α → α

attribute [reducible, instance] ChartNumber.decidableLE ChartNumber.decidableLT

namespace ChartNumber

instance : ChartNumber Float where
  ofInt := Binary64.ofInt
  isFinite := Binary64.isFinite
  abs := Float.abs
  signum := Binary64.signum
  floor := Binary64.floor
  ceil := Binary64.ceil
  round := Binary64.round
  toIntWithin := Binary64.toIntWithin
  log10 := Binary64.log10
  exp10 := Binary64.exp10

variable {α : Type} [ChartNumber α]

/-- The larger of two numbers; where one of them is no number it is the other. -/
def larger (a b : α) : α := if a < b then b else if a ≤ a then a else b

/-- The whole part of a whole number as a 32-bit integer, held at the ends of their range. -/
def toInt32 (x : α) : Int := toIntWithin (-0x80000000) 0x7fffffff x

/-- The same for 64-bit integers. -/
def toInt64 (x : α) : Int := toIntWithin (-0x8000000000000000) 0x7fffffffffffffff x

end ChartNumber

end ContentionChart
