import ContentionChart.ChartNumber

/-!
# Axes

An axis covers an interval of positions and is drawn over a stretch of pixels, in either direction.

## Main definitions

* `extent?` — the least and the greatest of some values.
* `Interval.around` — an interval with some room around two values.
* `Interval.toPixel` — the pixel of a position.
* `Axis` — an interval and the ticks on it.
-/

namespace ContentionChart

/-- The least and the greatest value. Each is found by going on from the first value and replacing
it by whatever compares as less or greater. -/
def extent? {α : Type} [LT α] [DecidableLT α] : List α → Option (α × α)
  | [] => none
  | first :: rest =>
    some <| rest.foldl (fun (least, greatest) x =>
      (if x < least then x else least, if greatest < x then x else greatest)) (first, first)

@[simp] theorem extent?_eq_none_iff {α : Type} [LT α] [DecidableLT α] {xs : List α} :
    extent? xs = none ↔ xs = [] := by
  cases xs <;> simp [extent?]

/-- The positions from `start` to `stop`. -/
structure Interval (α : Type) where
  start : α
  stop : α
  deriving DecidableEq, Repr

/-- The 32-bit integer with the same residue. -/
def wrap32 (n : Int) : Int := n.bmod 0x100000000

namespace Interval

variable {α : Type} [ChartNumber α]

open ChartNumber

/-- The spacing of doubles at one. -/
def epsilon : α := 1.0 / ofInt 0x10000000000000

/-- The interval from `least` to `greatest`, widened on each side by a fraction of its length, or by
one if it is as short as rounding makes it. -/
def around (least greatest fraction : α) : Interval α :=
  let span := greatest - least
  if span ≤ epsilon * larger (abs greatest) 1.0 then ⟨least - 1.0, greatest + 1.0⟩
  else ⟨least - span * fraction, greatest + span * fraction⟩

/-- The pixel of a position, when the interval is drawn from the pixel `limit.1` to `limit.2`. A
thousandth of a pixel is added before rounding down, so that a position that falls on a pixel is not
drawn before it. -/
def toPixel (interval : Interval α) (limit : Int × Int) (value : α) : Int :=
  let share := (value - interval.start) / (interval.stop - interval.start)
  let length := wrap32 (limit.2 - limit.1)
  if length = 0 then limit.2
  else wrap32 (limit.1 + toInt32 (floor (ofInt length * share + 1e-3)))

end Interval

/-- An interval with the positions of its ticks. -/
structure Axis (α : Type) where
  range : Interval α
  ticks : List α
  deriving DecidableEq, Repr

end ContentionChart
