import ContentionChart.Chart.Scale
import ContentionChart.Proofs.RoundedNumbers

/-!
# Scales of rounded numbers

Where logarithms and powers of ten are those of real numbers, rounded, the positions on every scale
are in the order of the throughputs. Two throughputs may come to one position, but they never change
places.

## Main definitions

* `RoundedScale` — the functions that scales are made of, up to a rounding.
* `Scale.distance` — how far from zero a throughput stands on the symmetric scale.

## Main statements

* `Exact.roundedScale` — exact numbers are one case.
* `RoundedScale.position_le_position` — positions are in the order of throughputs.
-/

namespace ContentionChart

open ChartNumber

/-- Numbers stand for real ones, all of them finite, and scales give what they give on these,
rounded. Nothing is said of the logarithm of what is not positive. -/
structure RoundedScale (α : Type) [ChartNumber α] (round : ℝ → ℝ) (value : α → ℝ) : Prop
    extends Rounded α round value where
  isFinite : ∀ a : α, isFinite a = true
  neg : ∀ a : α, value (-a) = -value a
  signum_pos : ∀ a : α, 0 < value a → value (signum a) = 1
  signum_neg : ∀ a : α, value a < 0 → value (signum a) = -1
  ceil : ∀ a : α, value (ceil a) = ⌈value a⌉
  log10 : ∀ a : α, 0 < value a → value (log10 a) = round (Real.logb 10 (value a))
  exp10 : ∀ a : α, value (exp10 a) = round (10 ^ value a)

theorem Exact.roundedScale : RoundedScale Exact id Exact.value where
  toRounded := Exact.rounded
  isFinite _ := rfl
  neg _ := rfl
  signum_pos _ positive := if_neg positive.not_gt
  signum_neg _ negative := if_pos negative
  ceil _ := rfl
  log10 _ _ := rfl
  exp10 _ := rfl

/-- How far from zero a throughput stands on the symmetric scale. -/
def Scale.distance {α : Type} [ChartNumber α] (y : α) : α :=
  ChartNumber.log10 (1.0 + ChartNumber.abs y / linearThreshold)

namespace RoundedScale

variable {α : Type} [ChartNumber α] {round : ℝ → ℝ} {value : α → ℝ} {y z : α}

/-! ## The symmetric scale -/

theorem one_le_shifted (h : Rounded α round value) (y : α) : 1 ≤ round (1 + round |value y|) := by
  calc (1 : ℝ) = round 1 := h.round_one.symm
    _ ≤ round (1 + round |value y|) :=
      h.monotone (le_add_of_nonneg_right (h.round_nonneg (abs_nonneg _)))

theorem value_distance (h : RoundedScale α round value) (y : α) :
    value (Scale.distance y) = round (Real.logb 10 (round (1 + round |value y|))) := by
  have shifted : value (1.0 + ChartNumber.abs y / Scale.linearThreshold) =
      round (1 + round |value y|) := by
    rw [h.add, h.div, h.abs, Scale.linearThreshold, h.value_one, div_one]
  have positive := one_pos.trans_le (one_le_shifted h.toRounded y)
  rw [Scale.distance, h.log10 _ (shifted ▸ positive), shifted]

theorem distance_le_distance (h : RoundedScale α round value) (le : |value y| ≤ |value z|) :
    value (Scale.distance y) ≤ value (Scale.distance z) := by
  have positive := one_pos.trans_le (one_le_shifted h.toRounded y)
  have shifted : round (1 + round |value y|) ≤ round (1 + round |value z|) :=
    h.monotone (add_le_add_right (h.monotone le) 1)
  rw [h.value_distance, h.value_distance]
  exact h.monotone (Real.logb_le_logb_of_le (by norm_num) positive shifted)

theorem distance_nonneg (h : RoundedScale α round value) (y : α) :
    0 ≤ value (Scale.distance y) := by
  rw [h.value_distance]
  exact h.round_nonneg (Real.logb_nonneg (by norm_num) (one_le_shifted h.toRounded y))

theorem distance_zero (h : RoundedScale α round value) (zero : value y = 0) :
    value (Scale.distance y) = 0 := by
  rw [h.value_distance, zero, abs_zero, h.round_zero, add_zero, h.round_one, Real.logb_one,
    h.round_zero]

theorem symlog_position (h : RoundedScale α round value) (y : α) :
    value (Scale.symlog.position y) = round (value (signum y) * value (Scale.distance y)) :=
  h.mul _ _

/-- Zero stands at zero, whichever sign it has. -/
theorem symlog_position_zero (h : RoundedScale α round value) (zero : value y = 0) :
    value (Scale.symlog.position y) = 0 := by
  rw [h.symlog_position, h.distance_zero zero, mul_zero, h.round_zero]

theorem symlog_position_nonneg (h : RoundedScale α round value) (nonneg : 0 ≤ value y) :
    value (Scale.symlog.position y) = value (Scale.distance y) := by
  rcases nonneg.eq_or_lt with zero | positive
  · rw [h.symlog_position_zero zero.symm, h.distance_zero zero.symm]
  · rw [h.symlog_position, h.signum_pos y positive, one_mul, h.round_value]

theorem symlog_position_neg (h : RoundedScale α round value) (negative : value y < 0) :
    value (Scale.symlog.position y) = round (-value (Scale.distance y)) := by
  rw [h.symlog_position, h.signum_neg y negative, neg_one_mul]

theorem symlog_position_le (h : RoundedScale α round value) (le : value y ≤ value z) :
    value (Scale.symlog.position y) ≤ value (Scale.symlog.position z) := by
  rcases lt_or_ge (value y) 0 with negative | nonneg
  · rw [h.symlog_position_neg negative]
    rcases lt_or_ge (value z) 0 with negative' | nonneg'
    · have nearer : |value z| ≤ |value y| := by
        rw [abs_of_neg negative, abs_of_neg negative']
        exact neg_le_neg le
      rw [h.symlog_position_neg negative']
      exact h.monotone (neg_le_neg (h.distance_le_distance nearer))
    · calc round (-value (Scale.distance y)) ≤ round 0 :=
          h.monotone (neg_nonpos.2 (h.distance_nonneg y))
        _ = 0 := h.round_zero
        _ ≤ value (Scale.distance z) := h.distance_nonneg z
        _ = value (Scale.symlog.position z) := (h.symlog_position_nonneg nonneg').symm
  · have farther : |value y| ≤ |value z| := by
      rwa [abs_of_nonneg nonneg, abs_of_nonneg (nonneg.trans le)]
    rw [h.symlog_position_nonneg nonneg, h.symlog_position_nonneg (nonneg.trans le)]
    exact h.distance_le_distance farther

/-! ## All scales -/

theorem admits_log_iff (h : RoundedScale α round value) :
    Scale.log.admits y = true ↔ 0 < value y := by
  simp [Scale.admits, h.isFinite, h.lt_iff, h.value_zero]

/-- On every scale the positions are in the order of the throughputs. -/
theorem position_le_position (h : RoundedScale α round value) {scale : Scale}
    (admitted : scale.admits y = true) (le : value y ≤ value z) :
    value (scale.position y) ≤ value (scale.position z) := by
  cases scale with
  | linear => exact le
  | log =>
    have positive := h.admits_log_iff.1 admitted
    rw [Scale.position, Scale.position, h.log10 y positive, h.log10 z (positive.trans_le le)]
    exact h.monotone (Real.logb_le_logb_of_le (by norm_num) positive le)
  | symlog => exact h.symlog_position_le le

/-! ## Without rounding -/

/-- The position on the symmetric scale, on both sides of zero. -/
theorem symlog_position_eq {value : α → ℝ} (h : RoundedScale α id value) (y : α) :
    value (Scale.symlog.position y) =
      if value y < 0 then -Real.logb 10 (1 - value y) else Real.logb 10 (1 + value y) := by
  have distance : value (Scale.distance y) = Real.logb 10 (1 + |value y|) := h.value_distance y
  split
  case isTrue negative =>
    rw [h.symlog_position_neg negative, distance, abs_of_neg negative, sub_eq_add_neg, id]
  case isFalse nonneg =>
    rw [h.symlog_position_nonneg (not_lt.1 nonneg), distance, abs_of_nonneg (not_lt.1 nonneg)]

/-! ## Whole numbers -/

section

variable {a : α} {least most : ℤ}

theorem toIntWithin_ceil (h : RoundedScale α round value) (least most : ℤ) (a : α) :
    toIntWithin least most (ChartNumber.ceil a) = max least (min most ⌈value a⌉) := by
  rw [h.toIntWithin, h.ceil, truncated_intCast]

theorem toIntWithin_floor (h : RoundedScale α round value) (least most : ℤ) (a : α) :
    toIntWithin least most (ChartNumber.floor a) = max least (min most ⌊value a⌋) := by
  rw [h.toIntWithin, h.floor, truncated_intCast]

/-- A number that is not too small is only held at the upper end of an interval. -/
theorem toIntWithin_ceil_of_le (h : RoundedScale α round value) (ordered : least ≤ most)
    (low : least ≤ value a) :
    toIntWithin least most (ChartNumber.ceil a) = min most ⌈value a⌉ := by
  have above : least ≤ ⌈value a⌉ := by
    have least_le := low.trans (Int.le_ceil _)
    exact_mod_cast least_le
  rw [h.toIntWithin_ceil, max_eq_right (le_min ordered above)]

theorem toIntWithin_floor_of_le (h : RoundedScale α round value) (ordered : least ≤ most)
    (low : least ≤ value a) :
    toIntWithin least most (ChartNumber.floor a) = min most ⌊value a⌋ := by
  rw [h.toIntWithin_floor, max_eq_right (le_min ordered (Int.le_floor.2 low))]

end

end RoundedScale

/-! ## Exact positions -/

namespace Exact

/-- The position on the symmetric scale, on both sides of zero. -/
theorem symlog_position (y : Exact) :
    (Scale.symlog.position y).value =
      if y.value < 0 then -Real.logb 10 (1 - y.value) else Real.logb 10 (1 + y.value) :=
  roundedScale.symlog_position_eq y

theorem admits_log_iff {y : Exact} : Scale.log.admits y = true ↔ 0 < y.value :=
  roundedScale.admits_log_iff

theorem position_le_position {scale : Scale} {y z : Exact} (hy : scale.admits y = true)
    (le : y.value ≤ z.value) : (scale.position y).value ≤ (scale.position z).value :=
  roundedScale.position_le_position hy le

end Exact

end ContentionChart
