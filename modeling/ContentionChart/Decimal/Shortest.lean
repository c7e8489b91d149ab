import ContentionChart.Decimal.Basic

/-!
# Shortest decimals

The shortest decimal of a double is the one with the fewest significant digits that rounds back to
it, and among those the nearest to its value. On the grid of decimals with a given number of digits
only the two neighbours of the value have to be tried: if any decimal of the grid rounds to the
double, so does one of them.

## Main definitions

* `Decimal.shortest` — the shortest decimal of a double, given by its exact value.
-/

namespace ContentionChart.Decimal

/-- The two rationals round to the same double. -/
def SameDouble (p q : Rat) : Prop := Binary64.magnitudeBits p = Binary64.magnitudeBits q

instance (p q : Rat) : Decidable (SameDouble p q) := inferInstanceAs (Decidable (_ = _))

/-- The multiple of `10 ^ exponent` next to `q` that rounds to the same double, the nearer if both
do, and the upper one if they are equally near. -/
def onGrid? (q : Rat) (exponent : Int) : Option Decimal :=
  let below := (q / (10 : Rat) ^ exponent).floor.toNat
  let lower : Decimal := ⟨below, exponent⟩
  let upper : Decimal := ⟨below + 1, exponent⟩
  if SameDouble upper.toRat q then
    if SameDouble lower.toRat q ∧ q - lower.toRat < upper.toRat - q then some lower
    else some upper
  else if SameDouble lower.toRat q then some lower
  else none

/-- Every double is a decimal with as many places as its denominator has factors two. -/
def exact (q : Rat) : Decimal :=
  let places := q.den.log2
  ⟨(q * (10 : Rat) ^ places).floor.toNat, -places⟩

/-- The coefficient without its last zeros; a coefficient of zero stays as it is. The fuel bounds
the number of zeros. -/
def dropZeros : Nat → Decimal → Decimal
  | 0, d => d
  | fuel + 1, d =>
    if d.coefficient ≠ 0 ∧ d.coefficient % 10 = 0 then
      dropZeros fuel ⟨d.coefficient / 10, d.exponent + 1⟩
    else d

/-- The shortest decimal of a positive double of value `q`. Seventeen digits are always enough, and
all of its digits certainly are. -/
def shortest (q : Rat) : Decimal :=
  let first := decimalExponent q
  let found := (List.range 17).findSome? fun (extra : Nat) => onGrid? q (first - extra)
  let d := found.getD (exact q)
  dropZeros (digits d.coefficient).length d

end ContentionChart.Decimal
