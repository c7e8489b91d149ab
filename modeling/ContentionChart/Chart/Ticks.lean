import ContentionChart.Chart.Scale

/-!
# Ticks

Where the ticks of an axis stand. On the throughput axis these are whole powers of ten where the
scale has a few of them in range, and otherwise multiples of a round step. On the thread axis they
are thread counts that were measured.

## Main definitions

* `Ticks.regular` — multiples of 1, 2 or 5 times a power of ten.
* `Scale.decades` — the powers of ten in a range, as positions.
* `Scale.ticks` — the ticks of a throughput axis.
* `Ticks.ofThreads` — the ticks of a thread axis.
-/

namespace ContentionChart

namespace Ticks

/-- The integers from `first` to `last`, both included. -/
def integers (first last : Int) : List Int :=
  (List.range (last + 1 - first).toNat).map fun (i : Nat) => first + i

/-- Every `stride`-th element, from the first on. -/
def everyNth {β : Type} (stride : Nat) (xs : List β) : List β :=
  (xs.zipIdx.filter fun x => x.2 % stride = 0).map Prod.fst

/-- The least stride that leaves at most `limit` of `count` elements. -/
def strideFor (count limit : Nat) : Nat := (count + limit - 1) / limit

variable {α : Type} [ChartNumber α]

open ChartNumber

/-- The distance between ticks: the least of 1, 2, 5 and 10 times the power of ten below `raw` that
is not less than `raw`. -/
def roundStep (raw : α) : α :=
  let power := exp10 (floor (log10 raw))
  let ratio := raw / power
  if ratio ≤ 1.0 then power
  else if ratio ≤ 2.0 then 2.0 * power
  else if ratio ≤ 5.0 then 5.0 * power
  else 10.0 * power

/-- The multiples of a round step from `lo` to `hi`, about `target` of them. The upper end is
widened by a billionth of the step, so that rounding does not lose a tick at it. A range that is
empty or not finite has a tick at its lower end. -/
def regular (lo hi : α) (target : Nat) : List α :=
  let span := hi - lo
  if !isFinite span ∨ span ≤ 0.0 ∨ target = 0 then [lo]
  else
    let step := roundStep (span / ofInt target)
    let first := toInt64 (ceil (lo / step))
    let last := toInt64 (floor (hi / step + 1e-9))
    (integers first last).map fun i => ofInt i * step

/-- Whether two numbers are equal; no number equals none. -/
def Same (a b : α) : Prop := a ≤ b ∧ b ≤ a

instance (a b : α) : Decidable (Same a b) := inferInstanceAs (Decidable (_ ∧ _))

/-- Leave out what equals the number kept before it. -/
def dropRepeatsAfter (kept : α) : List α → List α
  | [] => []
  | b :: bs => if Same kept b then dropRepeatsAfter kept bs else b :: dropRepeatsAfter b bs

def dropRepeats : List α → List α
  | [] => []
  | a :: as => a :: dropRepeatsAfter a as

/-- The number of ticks that a throughput axis aims at. -/
def throughputTarget : Nat := 8

end Ticks

namespace Scale

variable {α : Type} [ChartNumber α]

open ChartNumber Ticks

/-- The exponents up to which powers of ten can be in a range of the symmetric scale. -/
def topExponent (lo hi : α) : Nat :=
  (toInt32 (ceil (log10 (abs (symlog.throughput (larger (abs hi) (abs lo))))))).toNat

/-- Zero and the powers of ten with the given top exponent, on both sides of zero. -/
def symmetricPowers (top : Nat) : List α :=
  let powers := (List.range (top + 1)).map fun (k : Nat) => exp10 (ofInt k : α)
  powers.reverse.map (- ·) ++ 0.0 :: powers

/-- The positions of powers of ten in a range: none on the linear scale, whole numbers on the
logarithmic one, and on the symmetric one those of negative powers and of zero too. -/
def decades (scale : Scale) (lo hi : α) : List α :=
  match scale with
  | linear => []
  | log => (integers (toInt32 (ceil lo)) (toInt32 (floor hi))).map ofInt
  | symlog =>
    dropRepeats <| ((symmetricPowers (topExponent lo hi)).map symlog.position).filter fun v =>
      lo ≤ v ∧ v ≤ hi

/-- The positions of the ticks from `lo` to `hi`: every so many of the decades if there are two or
more, and regular ticks otherwise. -/
def ticks (scale : Scale) (lo hi : α) : List α :=
  let decades := scale.decades lo hi
  if 2 ≤ decades.length then
    everyNth (strideFor decades.length throughputTarget) decades
  else regular lo hi throughputTarget

end Scale

namespace Ticks

/-- The ticks among distinct thread counts in ascending order. If there are more than `limit`, only
every so many of them are ticked, and the largest in any case. A limit of zero hides all ticks. -/
def ofThreads (distinct : List Nat) (limit : Nat) : List Nat :=
  if limit = 0 then []
  else if distinct.length ≤ limit then distinct
  else
    let ticks := everyNth (strideFor distinct.length limit) distinct
    match distinct.getLast?, ticks.getLast? with
    | some largest, some last => if largest ≠ last then ticks ++ [largest] else ticks
    | _, _ => ticks

end Ticks

end ContentionChart
