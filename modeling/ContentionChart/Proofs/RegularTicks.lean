import ContentionChart.Proofs.RoundedScales
import ContentionChart.Proofs.Strides

/-!
# Regular ticks

Regular ticks are the multiples of a round step in a range. The step is less than two and a half
times as long as it would have to be, so that there are neither many more nor many fewer of them
than asked for.

## Main definitions

* `Ticks.stepFor`, `Ticks.multiples` — the distance between regular ticks, and its multiples.
* `Ticks.Within` — ticks of a range, two to nine.

## Main statements

* `RoundedScale.exists_zero_mem_regular` — a range around zero is ticked at zero.
* `Exact.roundStep_bounds` — how long a step is.
* `Exact.within_regular` — the regular ticks of a range.
-/

namespace ContentionChart

open ChartNumber Ticks

variable {α : Type} [ChartNumber α] {round : ℝ → ℝ} {value : α → ℝ} {lo hi : α} {target : ℕ}

/-- The distance between regular ticks of a range. -/
def Ticks.stepFor (lo hi : α) (target : ℕ) : α := roundStep ((hi - lo) / ofInt target)

/-- The multiples of a step from `lo` to `hi`, and one past `hi` by no more than a billionth of the
step. -/
def Ticks.multiples (step lo hi : α) : List α :=
  (integers (toInt64 (ChartNumber.ceil (lo / step)))
    (toInt64 (ChartNumber.floor (hi / step + 1e-9)))).map fun i => ofInt i * step

/-! ## With rounding -/

namespace RoundedScale

theorem value_exp10_nonneg (h : RoundedScale α round value) (a : α) :
    0 ≤ value (ChartNumber.exp10 a) := by
  rw [h.exp10]
  exact h.round_nonneg (by positivity)

theorem value_roundStep_nonneg (h : RoundedScale α round value) (raw : α) :
    0 ≤ value (roundStep raw) := by
  have power := h.value_exp10_nonneg (ChartNumber.floor (ChartNumber.log10 raw))
  have multiple (digits : ℕ) (point : Bool) (places : ℕ) :
      0 ≤ value (OfScientific.ofScientific digits point places *
        ChartNumber.exp10 (ChartNumber.floor (ChartNumber.log10 raw))) := by
    rw [h.mul]
    exact h.round_nonneg (mul_nonneg (h.literal_nonneg digits point places) power)
  simp only [roundStep]
  split
  · exact power
  · split
    · exact multiple 20 true 1
    · split
      · exact multiple 50 true 1
      · exact multiple 100 true 1

/-- A range that is not empty has regular ticks. -/
theorem regular_eq (h : RoundedScale α round value) (long : 0 < value (hi - lo))
    (positive : 0 < target) :
    regular lo hi target = multiples (stepFor lo hi target) lo hi := by
  have notEmpty : ¬ ((!ChartNumber.isFinite (hi - lo)) = true ∨ hi - lo ≤ 0.0 ∨ target = 0) := by
    rw [h.isFinite, h.le_iff, h.value_zero]
    simp [long, positive.ne']
  rw [regular, if_neg notEmpty, multiples, stepFor]

theorem toInt64_ceil_nonpos (h : RoundedScale α round value) {a : α} (nonpos : value a ≤ 0) :
    toInt64 (ChartNumber.ceil a) ≤ 0 := by
  have below : ⌈value a⌉ ≤ 0 := Int.ceil_le.2 (by simpa using nonpos)
  rw [toInt64, h.toIntWithin_ceil]
  omega

theorem toInt64_floor_nonneg (h : RoundedScale α round value) {a : α} (nonneg : 0 ≤ value a) :
    0 ≤ toInt64 (ChartNumber.floor a) := by
  have above : 0 ≤ ⌊value a⌋ := Int.floor_nonneg.2 nonneg
  rw [toInt64, h.toIntWithin_floor]
  omega

/-- Zero is a multiple of every step. -/
theorem exists_zero_mem_multiples (h : RoundedScale α round value) {step : α}
    (nonneg : 0 ≤ value step) (low : value lo ≤ 0) (high : 0 ≤ value hi) :
    ∃ t ∈ multiples step lo hi, value t = 0 := by
  have before : value (lo / step) ≤ 0 := by
    rw [h.div, ← h.round_zero]
    exact h.monotone (div_nonpos_of_nonpos_of_nonneg low nonneg)
  have after : 0 ≤ value (hi / step + 1e-9) := by
    have quotient : 0 ≤ value (hi / step) := by
      rw [h.div]
      exact h.round_nonneg (div_nonneg high nonneg)
    exact quotient.trans (h.le_add_self _ (h.literal_nonneg 1 true 9))
  have between : 0 ∈ integers (toInt64 (ChartNumber.ceil (lo / step)))
      (toInt64 (ChartNumber.floor (hi / step + 1e-9))) :=
    mem_integers.2 ⟨h.toInt64_ceil_nonpos before, h.toInt64_floor_nonneg after⟩
  refine ⟨_, List.mem_map_of_mem between, ?_⟩
  rw [h.mul, h.ofInt, Int.cast_zero, h.round_zero, zero_mul, h.round_zero]

/-- The ends of a range stay apart where they are on different sides of zero. -/
theorem length_pos (h : RoundedScale α round value) (low : value lo ≤ 0) (high : 0 ≤ value hi)
    (ordered : value lo < value hi) : 0 < value (hi - lo) := by
  rw [h.sub]
  rcases high.eq_or_lt with zero | positive
  · rw [← zero, zero_sub, ← h.neg, h.round_value, h.neg]
    linarith
  · calc 0 < value hi := positive
      _ = round (value hi) := (h.round_value hi).symm
      _ ≤ round (value hi - value lo) := h.monotone (by linarith)

/-- Regular ticks of a range around zero have zero among them. -/
theorem exists_zero_mem_regular (h : RoundedScale α round value) (low : value lo ≤ 0)
    (high : 0 ≤ value hi) (ordered : value lo < value hi) (positive : 0 < target) :
    ∃ t ∈ regular lo hi target, value t = 0 := by
  rw [h.regular_eq (h.length_pos low high ordered) positive]
  exact h.exists_zero_mem_multiples (h.value_roundStep_nonneg _) low high

end RoundedScale

/-! ## Without rounding -/

/-- Two to nine ticks in a range, ascending. The last may be past the end by some slack. -/
structure Ticks.Within (lo hi slack : ℝ) (ticks : List Exact) : Prop where
  ascending : ticks.Pairwise fun a b => a.value < b.value
  several : 2 ≤ ticks.length
  few : ticks.length ≤ 9
  low : ∀ t ∈ ticks, lo ≤ t.value
  high : ∀ t ∈ ticks, t.value ≤ hi ∨ ticks.getLast? = some t ∧ t.value ≤ hi + slack

namespace Exact

theorem literal_one : (1.0 : Exact).value = 1 := rounded.value_one

theorem literal_two : (2.0 : Exact).value = 2 := by
  rw [rounded.literal]
  norm_num

theorem literal_five : (5.0 : Exact).value = 5 := by
  rw [rounded.literal]
  norm_num

theorem literal_ten : (10.0 : Exact).value = 10 := by
  rw [rounded.literal]
  norm_num

/-- The power of ten at the head of a number. -/
theorem leadingPower_bounds {raw : ℝ} (positive : 0 < raw) :
    (10 : ℝ) ^ (⌊Real.logb 10 raw⌋ : ℝ) ≤ raw ∧ raw < 10 * 10 ^ (⌊Real.logb 10 raw⌋ : ℝ) := by
  have whole : (10 : ℝ) ^ Real.logb 10 raw = raw :=
    Real.rpow_logb (by norm_num) (by norm_num) positive
  constructor
  · calc (10 : ℝ) ^ (⌊Real.logb 10 raw⌋ : ℝ) ≤ 10 ^ Real.logb 10 raw :=
        Real.rpow_le_rpow_of_exponent_le (by norm_num) (Int.floor_le _)
      _ = raw := whole
  · calc raw = 10 ^ Real.logb 10 raw := whole.symm
      _ < 10 ^ ((⌊Real.logb 10 raw⌋ : ℝ) + 1) :=
        Real.rpow_lt_rpow_of_exponent_lt (by norm_num) (Int.lt_floor_add_one _)
      _ = 10 * 10 ^ (⌊Real.logb 10 raw⌋ : ℝ) := by rw [Real.rpow_add_one (by norm_num), mul_comm]

/-- A step is long enough, and less than two and a half times as long as that. -/
theorem roundStep_bounds {raw : Exact} (positive : 0 < raw.value) :
    raw.value ≤ (roundStep raw).value ∧ (roundStep raw).value < 5 / 2 * raw.value := by
  obtain ⟨low, high⟩ := leadingPower_bounds positive
  set power : Exact := ChartNumber.exp10 (ChartNumber.floor (ChartNumber.log10 raw)) with power_eq
  have power_value : (10 : ℝ) ^ (⌊Real.logb 10 raw.value⌋ : ℝ) = power.value := rfl
  have power_pos : 0 < power.value := power_value ▸ by positivity
  rw [power_value] at low high
  have ratio_le (a : Exact) : raw / power ≤ a ↔ raw.value ≤ a.value * power.value :=
    div_le_iff₀ power_pos
  have multiple (a : Exact) : (a * power).value = a.value * power.value := rfl
  simp only [roundStep, ← power_eq, ratio_le, literal_one, literal_two, literal_five]
  split_ifs with one two five
  · constructor <;> linarith
  · rw [multiple, literal_two]
    constructor <;> linarith
  · rw [multiple, literal_five]
    constructor <;> linarith
  · rw [multiple, literal_ten]
    constructor <;> linarith

section

variable {step lo hi : Exact}

/-- The multiples are numbered from the first to the last one in range, but not past the 64-bit
numbers. -/
theorem multiples_eq (low : |lo.value / step.value| < 2 ^ 63)
    (high : |hi.value / step.value| < 2 ^ 63) :
    multiples step lo hi =
      (integers (min (2 ^ 63 - 1) ⌈lo.value / step.value⌉)
        (min (2 ^ 63 - 1) ⌊hi.value / step.value + 1 / 10 ^ 9⌋)).map fun i => ofInt i * step := by
  rw [abs_lt] at low high
  have start : (lo / step).value = lo.value / step.value := rfl
  have stop : (hi / step + 1e-9).value = hi.value / step.value + 1 / 10 ^ 9 := by
    have billionth : (1e-9 : Exact).value = 1 / 10 ^ 9 := by
      rw [rounded.literal]
      norm_num
    rw [← billionth]
    rfl
  have first : toInt64 (ChartNumber.ceil (lo / step)) =
      min (2 ^ 63 - 1) ⌈lo.value / step.value⌉ := by
    apply roundedScale.toIntWithin_ceil_of_le (by decide)
    rw [start]
    push_cast
    linarith
  have last : toInt64 (ChartNumber.floor (hi / step + 1e-9)) =
      min (2 ^ 63 - 1) ⌊hi.value / step.value + 1 / 10 ^ 9⌋ := by
    rw [← stop]
    apply roundedScale.toIntWithin_floor_of_le (by decide)
    rw [stop]
    push_cast
    linarith
  rw [multiples, first, last]

theorem value_tick (i : ℤ) (step : Exact) : (ofInt i * step : Exact).value = i * step.value := rfl

theorem ascending_multiples (positive : 0 < step.value) (first last : ℤ) :
    ((integers first last).map fun i => ofInt i * step).Pairwise fun a b => a.value < b.value := by
  refine List.pairwise_map.2 ((ascending_integers first last).imp fun lt => ?_)
  rw [value_tick, value_tick]
  exact mul_lt_mul_of_pos_right (Int.cast_lt.2 lt) positive

/-- In a range of more than three and at most eight steps there are from two to nine multiples. -/
theorem within_multiples (positive : 0 < step.value)
    (low : |lo.value / step.value| < 2 ^ 63) (high : |hi.value / step.value| < 2 ^ 63)
    (several : 3 < hi.value / step.value - lo.value / step.value)
    (few : hi.value / step.value - lo.value / step.value ≤ 8) :
    Within lo.value hi.value (step.value / 10 ^ 9) (multiples step lo hi) := by
  have below := (abs_lt.1 high).2
  have room : ⌈lo.value / step.value⌉ + 1 ≤ 2 ^ 63 - 1 := by
    have before : (⌈lo.value / step.value⌉ : ℝ) + 1 < 2 ^ 63 - 1 := by
      linarith [Int.ceil_lt_add_one (lo.value / step.value)]
    have before' : ⌈lo.value / step.value⌉ + 1 < 2 ^ 63 - 1 := by exact_mod_cast before
    omega
  have first_eq : min (2 ^ 63 - 1) ⌈lo.value / step.value⌉ = ⌈lo.value / step.value⌉ := by omega
  rw [multiples_eq low high, first_eq]
  set first := ⌈lo.value / step.value⌉
  set last := min (2 ^ 63 - 1) ⌊hi.value / step.value + 1 / 10 ^ 9⌋ with last_eq
  have first_lt : (first : ℝ) < lo.value / step.value + 1 := Int.ceil_lt_add_one _
  have le_first : lo.value / step.value ≤ first := Int.le_ceil _
  have last_le : (last : ℝ) ≤ hi.value / step.value + 1 / 10 ^ 9 :=
    Int.le_floor.1 (min_le_right _ _)
  have next : first + 1 ≤ last := by
    have before : first + 1 ≤ ⌊hi.value / step.value + 1 / 10 ^ 9⌋ := by
      rw [Int.le_floor]
      push_cast
      linarith
    omega
  have count : last + 1 - first ≤ 9 := by
    have most : (last : ℝ) + 1 - first < 10 := by linarith
    have most' : last + 1 - first < 10 := by exact_mod_cast most
    omega
  refine ⟨ascending_multiples positive first last, ?several, ?few, ?low, ?high⟩
  case several =>
    rw [List.length_map, length_integers]
    omega
  case few =>
    rw [List.length_map, length_integers]
    omega
  case low =>
    intro t mem
    obtain ⟨i, between, rfl⟩ := List.mem_map.1 mem
    have from_first : (first : ℝ) ≤ i := Int.cast_le.2 (mem_integers.1 between).1
    rw [value_tick, ← div_le_iff₀ positive]
    exact le_first.trans from_first
  case high =>
    intro t mem
    obtain ⟨i, between, rfl⟩ := List.mem_map.1 mem
    rcases (mem_integers.1 between).2.eq_or_lt with isLast | before
    · have past : (i : ℝ) ≤ hi.value / step.value + 1 / 10 ^ 9 := by rwa [isLast]
      right
      constructor
      · rw [List.getLast?_map, getLast?_integers (by omega), isLast]
        rfl
      · calc (ofInt i * step : Exact).value = i * step.value := value_tick i step
          _ ≤ (hi.value / step.value + 1 / 10 ^ 9) * step.value :=
            mul_le_mul_of_nonneg_right past positive.le
          _ = hi.value + step.value / 10 ^ 9 := by
            rw [add_mul, div_mul_cancel₀ _ positive.ne', one_div_mul_eq_div]
    · left
      have before' : (i : ℝ) + 1 ≤ last := by exact_mod_cast before
      rw [value_tick, ← le_div_iff₀ positive]
      linarith

theorem stepFor_bounds_of_pos (positive : 0 < target) (ordered : lo.value < hi.value) :
    (hi.value - lo.value) / target ≤ (stepFor lo hi target).value ∧
      (stepFor lo hi target).value < 5 / 2 * ((hi.value - lo.value) / target) := by
  have raw : ((hi - lo) / ofInt target : Exact).value = (hi.value - lo.value) / target := rfl
  rw [← raw]
  apply roundStep_bounds
  rw [raw]
  exact div_pos (sub_pos.2 ordered) (Nat.cast_pos.2 positive)

theorem stepFor_bounds (ordered : lo.value < hi.value) :
    (hi.value - lo.value) / 8 ≤ (stepFor lo hi throughputTarget).value ∧
      (stepFor lo hi throughputTarget).value < 5 / 2 * ((hi.value - lo.value) / 8) :=
  stepFor_bounds_of_pos (by decide) ordered

/-- The regular ticks of a range, as many as are aimed at or somewhat fewer. -/
theorem within_regular (ordered : lo.value < hi.value)
    (low : |lo.value / (stepFor lo hi throughputTarget).value| < 2 ^ 63)
    (high : |hi.value / (stepFor lo hi throughputTarget).value| < 2 ^ 63) :
    Within lo.value hi.value ((stepFor lo hi throughputTarget).value / 10 ^ 9)
      (regular lo hi throughputTarget) := by
  have long : 0 < (hi - lo).value := sub_pos.2 ordered
  obtain ⟨enough, notMore⟩ := stepFor_bounds ordered
  have positive : 0 < (stepFor lo hi throughputTarget).value := by linarith
  rw [roundedScale.regular_eq long (by decide)]
  refine within_multiples positive low high ?_ ?_
  · rw [← sub_div, lt_div_iff₀ positive]
    linarith
  · rw [← sub_div, div_le_iff₀ positive]
    linarith

end

end Exact

end ContentionChart
