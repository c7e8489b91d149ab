import ContentionChart.Chart.Axis
import Mathlib.Analysis.SpecialFunctions.Log.Base

/-!
# Rounded numbers

Charts are computed with numbers that stand for real ones, where the result of each operation is
rounded. How it is rounded is left open here but for two things: the order of numbers is kept, and
halves of whole numbers that are not too large stay as they are. One way to round is not to.

## Main definitions

* `Rounded` — the numbers stand for real ones, up to a rounding.
* `Exact` — real numbers as numbers of a chart, without any rounding.

## Main statements

* `Exact.rounded` — exact numbers are rounded ones.
* `Rounded.toPixel_eq` — the pixel of a position, as a floor of real numbers.
-/

namespace ContentionChart

open ChartNumber

/-- The integer part of a real number, toward zero. -/
noncomputable def truncated (x : ℝ) : ℤ := if x < 0 then -⌊-x⌋ else ⌊x⌋

@[simp] theorem truncated_intCast (n : ℤ) : truncated n = n := by
  unfold truncated
  split
  · rw [← Int.cast_neg, Int.floor_intCast, neg_neg]
  · exact Int.floor_intCast n

/-- Numbers stand for real ones. Each operation gives what it gives on these, rounded. -/
structure Rounded (α : Type) [ChartNumber α] (round : ℝ → ℝ) (value : α → ℝ) : Prop where
  monotone : Monotone round
  half : ∀ n : ℤ, |n| ≤ 2 ^ 34 → round (n / 2) = n / 2
  round_value : ∀ a, round (value a) = value a
  lt_iff : ∀ a b : α, a < b ↔ value a < value b
  le_iff : ∀ a b : α, a ≤ b ↔ value a ≤ value b
  add : ∀ a b : α, value (a + b) = round (value a + value b)
  sub : ∀ a b : α, value (a - b) = round (value a - value b)
  mul : ∀ a b : α, value (a * b) = round (value a * value b)
  div : ∀ a b : α, value (a / b) = round (value a / value b)
  literal : ∀ digits point places,
    value (OfScientific.ofScientific digits point places : α) =
      round (OfScientific.ofScientific digits point places)
  ofInt : ∀ n : ℤ, value (ofInt n) = round n
  abs : ∀ a : α, value (abs a) = |value a|
  floor : ∀ a : α, value (floor a) = ⌊value a⌋
  toIntWithin : ∀ lo hi (a : α), toIntWithin lo hi a = max lo (min hi (truncated (value a)))

/-! ## Exact numbers -/

/-- A real number as a number of a chart. -/
structure Exact where
  value : ℝ

namespace Exact

noncomputable instance : ChartNumber Exact where
  add a b := ⟨a.value + b.value⟩
  sub a b := ⟨a.value - b.value⟩
  mul a b := ⟨a.value * b.value⟩
  div a b := ⟨a.value / b.value⟩
  neg a := ⟨-a.value⟩
  le a b := a.value ≤ b.value
  lt a b := a.value < b.value
  ofScientific digits point places := ⟨OfScientific.ofScientific digits point places⟩
  decidableLE _ _ := Classical.dec _
  decidableLT _ _ := Classical.dec _
  ofInt n := ⟨n⟩
  isFinite _ := true
  abs a := ⟨|a.value|⟩
  signum a := ⟨if a.value < 0 then -1 else 1⟩
  floor a := ⟨⌊a.value⌋⟩
  ceil a := ⟨⌈a.value⌉⟩
  round a := ⟨if a.value < 0 then -⌊-a.value + 1 / 2⌋ else ⌊a.value + 1 / 2⌋⟩
  toIntWithin lo hi a := max lo (min hi (truncated a.value))
  log10 a := ⟨Real.logb 10 a.value⟩
  exp10 a := ⟨10 ^ a.value⟩

/-- Exact numbers are rounded by the rounding that changes nothing. -/
theorem rounded : Rounded Exact id Exact.value where
  monotone := monotone_id
  half _ _ := rfl
  round_value _ := rfl
  lt_iff _ _ := Iff.rfl
  le_iff _ _ := Iff.rfl
  add _ _ := rfl
  sub _ _ := rfl
  mul _ _ := rfl
  div _ _ := rfl
  literal _ _ _ := rfl
  ofInt _ := rfl
  abs _ := rfl
  floor _ := rfl
  toIntWithin _ _ _ := rfl

end Exact

namespace Rounded

variable {α : Type} [ChartNumber α] {round : ℝ → ℝ} {value : α → ℝ}

/-! ## Rounding -/

theorem round_intCast (h : Rounded α round value) {n : ℤ} (bound : |n| ≤ 2 ^ 33) :
    round n = n := by
  have same := h.half (2 * n) (by rw [abs_mul]; norm_num; omega)
  rw [Int.cast_mul, Int.cast_ofNat, mul_div_cancel_left₀ _ two_ne_zero] at same
  exact same

theorem round_zero (h : Rounded α round value) : round 0 = 0 := by
  simpa using h.round_intCast (n := 0) (by norm_num)

theorem round_one (h : Rounded α round value) : round 1 = 1 := by
  simpa using h.round_intCast (n := 1) (by norm_num)

theorem round_nonneg (h : Rounded α round value) {x : ℝ} (nonneg : 0 ≤ x) : 0 ≤ round x :=
  h.round_zero ▸ h.monotone nonneg

theorem round_le_one (h : Rounded α round value) {x : ℝ} (le : x ≤ 1) : round x ≤ 1 :=
  h.round_one ▸ h.monotone le

theorem literal_nonneg (h : Rounded α round value) (digits : ℕ) (point : Bool) (places : ℕ) :
    0 ≤ value (OfScientific.ofScientific digits point places : α) := by
  rw [h.literal, NNRatCast.toOfScientific_def]
  exact h.round_nonneg (NNRat.cast_nonneg _)

theorem value_zero (h : Rounded α round value) : value 0.0 = 0 := by
  rw [h.literal]
  norm_num
  exact h.round_zero

theorem value_one (h : Rounded α round value) : value 1.0 = 1 := by
  rw [h.literal]
  norm_num
  exact h.round_one

theorem value_larger (h : Rounded α round value) (a b : α) :
    value (larger a b) = max (value a) (value b) := by
  simp only [larger, h.lt_iff, h.le_iff, le_refl, if_true]
  split
  case isTrue lt => exact (max_eq_right lt.le).symm
  case isFalse ge => exact (max_eq_left (not_lt.1 ge)).symm

theorem sub_le_self (h : Rounded α round value) (a : α) {b : α} (nonneg : 0 ≤ value b) :
    value (a - b) ≤ value a := by
  rw [h.sub]
  calc round (value a - value b) ≤ round (value a) := h.monotone (by linarith)
    _ = value a := h.round_value a

theorem le_add_self (h : Rounded α round value) (a : α) {b : α} (nonneg : 0 ≤ value b) :
    value a ≤ value (a + b) := by
  rw [h.add]
  calc value a = round (value a) := (h.round_value a).symm
    _ ≤ round (value a + value b) := h.monotone (by linarith)

/-! ## Ranges -/

/-- There is room around two values. -/
theorem around_spec (h : Rounded α round value) {least greatest fraction : α}
    (ordered : value least ≤ value greatest) (widens : 0 ≤ value fraction) :
    value (Interval.around least greatest fraction).start ≤ value least ∧
      value greatest ≤ value (Interval.around least greatest fraction).stop := by
  have one : 0 ≤ value (1.0 : α) := h.value_one.symm ▸ zero_le_one
  have span : 0 ≤ value (greatest - least) := by
    rw [h.sub]
    exact h.round_nonneg (sub_nonneg.2 ordered)
  have room : 0 ≤ value ((greatest - least) * fraction) := by
    rw [h.mul]
    exact h.round_nonneg (mul_nonneg span widens)
  simp only [Interval.around]
  split
  · exact ⟨h.sub_le_self least one, h.le_add_self greatest one⟩
  · exact ⟨h.sub_le_self least room, h.le_add_self greatest room⟩

/-- Without rounding the room is one on each side of values that are next to equal, and a fraction
of their distance otherwise. -/
theorem around_exact (h : Rounded α round value) (exact : ∀ x, round x = x)
    (least greatest fraction : α) :
    let range := Interval.around least greatest fraction
    let span := value greatest - value least
    let spacing : ℝ := max |value greatest| 1 / 2 ^ 52
    (span ≤ spacing ∧ value range.start = value least - 1 ∧ value range.stop = value greatest + 1) ∨
      (spacing < span ∧ value range.start = value least - span * value fraction ∧
        value range.stop = value greatest + span * value fraction) := by
  have spacing : value (Interval.epsilon * larger (ChartNumber.abs greatest) (1.0 : α)) =
      max |value greatest| 1 / 2 ^ 52 := by
    rw [h.mul, Interval.epsilon, h.div, h.value_larger, h.abs, h.value_one, h.ofInt]
    simp only [exact]
    norm_num
    ring
  simp only [Interval.around, h.le_iff, spacing]
  split
  case isTrue le =>
    left
    rw [h.sub, exact] at le
    rw [h.sub, h.add, h.value_one, exact, exact]
    exact ⟨le, rfl, rfl⟩
  case isFalse gt =>
    right
    rw [h.sub, exact, not_le] at gt
    rw [h.sub, h.add, h.mul, h.sub, exact, exact, exact, exact]
    exact ⟨gt, rfl, rfl⟩

/-! ## Pixels -/

end Rounded

/-- The share of an interval that lies before a position. -/
noncomputable def shareBefore (round : ℝ → ℝ) (start stop x : ℝ) : ℝ :=
  round (round (x - start) / round (stop - start))

/-- How far a share of a stretch of pixels leads into it. The length of the stretch is negative if
it is run through backwards. -/
noncomputable def pixelsBefore (round : ℝ → ℝ) (length : ℤ) (share : ℝ) : ℤ :=
  ⌊round (round (length * share) + round (1 / 1000))⌋

/-- The ends of a stretch of pixels are 32-bit numbers, and so is its length. -/
structure IsStretch (limit : ℤ × ℤ) : Prop where
  first : -2 ^ 31 ≤ limit.1 ∧ limit.1 < 2 ^ 31
  last : -2 ^ 31 ≤ limit.2 ∧ limit.2 < 2 ^ 31
  length : |limit.2 - limit.1| < 2 ^ 31

theorem wrap32_eq_self {n : ℤ} (low : -2 ^ 31 ≤ n) (high : n < 2 ^ 31) : wrap32 n = n := by
  rw [wrap32, Int.bmod_eq_iff (by norm_num)]
  omega

namespace Rounded

variable {α : Type} [ChartNumber α] {round : ℝ → ℝ} {value : α → ℝ} {start stop x y : ℝ}

theorem shareBefore_le (h : Rounded α round value) (ordered : start ≤ stop) (le : x ≤ y) :
    shareBefore round start stop x ≤ shareBefore round start stop y := by
  have length : 0 ≤ round (stop - start) := h.round_nonneg (sub_nonneg.2 ordered)
  have before : round (x - start) ≤ round (y - start) := h.monotone (by linarith)
  exact h.monotone (div_le_div_of_nonneg_right before length)

theorem shareBefore_start (h : Rounded α round value) (start stop : ℝ) :
    shareBefore round start stop start = 0 := by
  rw [shareBefore, sub_self, h.round_zero, zero_div, h.round_zero]

theorem shareBefore_stop (h : Rounded α round value) (positive : 0 < round (stop - start)) :
    shareBefore round start stop stop = 1 := by
  rw [shareBefore, div_self positive.ne', h.round_one]

theorem shareBefore_nonneg (h : Rounded α round value) (ordered : start ≤ stop) (le : start ≤ x) :
    0 ≤ shareBefore round start stop x :=
  h.shareBefore_start start stop ▸ h.shareBefore_le ordered le

theorem shareBefore_le_one (h : Rounded α round value) (ordered : start ≤ stop) (le : x ≤ stop) :
    shareBefore round start stop x ≤ 1 := by
  refine (h.shareBefore_le ordered le).trans (h.round_le_one ?_)
  exact div_self_le_one _

/-- The thousandth of a pixel that is added does not lead past a whole number. -/
theorem floor_add_thousandth (h : Rounded α round value) {n : ℤ} (bound : |n| ≤ 2 ^ 32) :
    ⌊round (n + round (1 / 1000))⌋ = n := by
  have half : round (1 / 2) = 1 / 2 := by simpa using h.half 1 (by norm_num)
  have small : round (1 / 1000) ≤ 1 / 2 := half ▸ h.monotone (by norm_num)
  have nonneg : 0 ≤ round (1 / 1000) := h.round_nonneg (by norm_num)
  have whole : round n = n := h.round_intCast (by omega)
  have next : round (n + 1 / 2) = n + 1 / 2 := by
    have same := h.half (2 * n + 1) (by rw [abs_le] at bound ⊢; omega)
    have split : ((2 * n + 1 : ℤ) : ℝ) / 2 = n + 1 / 2 := by push_cast; ring
    rwa [split] at same
  rw [Int.floor_eq_iff]
  constructor
  · calc (n : ℝ) = round n := whole.symm
      _ ≤ round (n + round (1 / 1000)) := h.monotone (by linarith)
  · calc round (n + round (1 / 1000)) ≤ round (n + 1 / 2) := h.monotone (by linarith)
      _ = n + 1 / 2 := next
      _ < n + 1 := by norm_num

theorem pixelsBefore_zero (h : Rounded α round value) (length : ℤ) :
    pixelsBefore round length 0 = 0 := by
  have none := h.floor_add_thousandth (n := 0) (by norm_num)
  rw [pixelsBefore, mul_zero, h.round_zero]
  simpa using none

theorem pixelsBefore_one (h : Rounded α round value) {length : ℤ} (bound : |length| ≤ 2 ^ 32) :
    pixelsBefore round length 1 = length := by
  rw [pixelsBefore, mul_one, h.round_intCast (by omega)]
  exact h.floor_add_thousandth bound

theorem pixelsBefore_le (h : Rounded α round value) {length : ℤ} {s t : ℝ}
    (le : length * s ≤ length * t) : pixelsBefore round length s ≤ pixelsBefore round length t := by
  refine Int.floor_le_floor (h.monotone ?_)
  have scaled := h.monotone le
  linarith

/-- A share leads to a pixel of the stretch. -/
theorem pixelsBefore_mem (h : Rounded α round value) {length : ℤ} (bound : |length| ≤ 2 ^ 32)
    {share : ℝ} (nonneg : 0 ≤ share) (le_one : share ≤ 1) :
    min 0 length ≤ pixelsBefore round length share ∧
      pixelsBefore round length share ≤ max 0 length := by
  have none := h.pixelsBefore_zero length
  have all := h.pixelsBefore_one bound
  rcases le_total 0 length with forward | backward
  · have length_nonneg : (0 : ℝ) ≤ length := by exact_mod_cast forward
    have low := h.pixelsBefore_le (mul_le_mul_of_nonneg_left nonneg length_nonneg)
    have high := h.pixelsBefore_le (mul_le_mul_of_nonneg_left le_one length_nonneg)
    omega
  · have length_nonpos : (length : ℝ) ≤ 0 := by exact_mod_cast backward
    have low := h.pixelsBefore_le (mul_le_mul_of_nonpos_left le_one length_nonpos)
    have high := h.pixelsBefore_le (mul_le_mul_of_nonpos_left nonneg length_nonpos)
    omega

/-- The pixel of a position inside an interval, as a floor of real numbers. Nothing is cut off at
the ends of the 32-bit numbers. -/
theorem toPixel_eq (h : Rounded α round value) {interval : Interval α} {limit : ℤ × ℤ}
    (stretch : IsStretch limit) {position : α} (start_le : value interval.start ≤ value position)
    (le_stop : value position ≤ value interval.stop) :
    interval.toPixel limit position =
      limit.1 + pixelsBefore round (limit.2 - limit.1)
        (shareBefore round (value interval.start) (value interval.stop) (value position)) := by
  have ordered := start_le.trans le_stop
  obtain ⟨⟨low, high⟩, ⟨low', high'⟩, length⟩ := stretch
  rw [abs_lt] at length
  have bound : |limit.2 - limit.1| ≤ 2 ^ 32 := by rw [abs_le]; omega
  have inside := h.pixelsBefore_mem bound (h.shareBefore_nonneg ordered start_le)
    (h.shareBefore_le_one ordered le_stop)
  have wrapped : wrap32 (limit.2 - limit.1) = limit.2 - limit.1 :=
    wrap32_eq_self length.1.le length.2
  have offset : toInt32 (ChartNumber.floor (ChartNumber.ofInt (limit.2 - limit.1) *
      ((position - interval.start) / (interval.stop - interval.start)) + 1e-3)) =
      pixelsBefore round (limit.2 - limit.1)
        (shareBefore round (value interval.start) (value interval.stop) (value position)) := by
    have whole : round ((limit.2 - limit.1 : ℤ) : ℝ) = (limit.2 - limit.1 : ℤ) :=
      h.round_intCast (by omega)
    have thousandth : (OfScientific.ofScientific 1 true 3 : ℝ) = 1 / 1000 := by norm_num
    rw [toInt32, h.toIntWithin, h.floor, truncated_intCast, h.add, h.mul, h.ofInt, h.div, h.sub,
      h.sub, h.literal, whole, thousandth]
    change max _ (min _ (pixelsBefore round _ (shareBefore round _ _ _))) = _
    omega
  simp only [Interval.toPixel, wrapped, offset]
  split
  case isTrue none => omega
  case isFalse => exact wrap32_eq_self (by omega) (by omega)

end Rounded

end ContentionChart
