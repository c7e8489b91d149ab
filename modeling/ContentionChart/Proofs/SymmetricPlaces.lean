import ContentionChart.Proofs.DecadeTicks
import ContentionChart.Proofs.ExactScales

/-!
# Powers of ten on the symmetric scale

The places in a range of the symmetric scale are found among the powers of ten up to a top exponent,
which is taken from the end of the range that is farther from zero. No power of ten past it has its
place in the range.

## Main definitions

* `Scale.IsSymmetricPower` — zero and the powers of ten, on both sides of zero.

## Main statements

* `Exact.le_topExponent` — the top exponent is high enough.
* `Exact.mem_decades_symlog_iff` — all places in a range are found, and nothing else.
* `Exact.ticks_symlog` — the ticks of a range of the symmetric scale.
-/

namespace ContentionChart

open ChartNumber Ticks

/-- Zero, or a power of ten that is not below one, on either side of zero. -/
inductive Scale.IsSymmetricPower (y : ℝ) : Prop where
  | zero (form : y = 0)
  | power (k : ℕ) (form : y = 10 ^ k ∨ y = -10 ^ k)

namespace Exact

variable {lo hi : Exact}

theorem value_exp10_natCast (k : ℕ) : (ChartNumber.exp10 (ofInt k : Exact)).value = 10 ^ k :=
  Real.rpow_natCast 10 k

/-- The candidates are zero and the powers of ten up to the top exponent. -/
theorem mem_symmetricPowers_iff {top : ℕ} {y : Exact} :
    y ∈ Scale.symmetricPowers top ↔
      y.value = 0 ∨ ∃ k : ℕ, k ≤ top ∧ (y.value = 10 ^ k ∨ y.value = -10 ^ k) := by
  have power (k : ℕ) : (ChartNumber.exp10 (ofInt k : Exact)) = y ↔ y.value = 10 ^ k := by
    rw [← value_exp10_natCast]
    exact ⟨fun same => same ▸ rfl, fun same => congrArg Exact.mk same.symm⟩
  have negative (k : ℕ) : -(ChartNumber.exp10 (ofInt k : Exact)) = y ↔ y.value = -10 ^ k := by
    rw [← value_exp10_natCast]
    exact ⟨fun same => same ▸ rfl, fun same => congrArg Exact.mk same.symm⟩
  have zero : y = 0.0 ↔ y.value = 0 := by
    rw [← rounded.value_zero]
    exact ⟨fun same => same ▸ rfl, fun same => congrArg Exact.mk same⟩
  simp only [Scale.symmetricPowers, List.mem_append, List.mem_map, List.mem_reverse,
    List.mem_cons, List.mem_range, Nat.lt_succ_iff, exists_exists_and_eq_and, power, negative, zero]
  grind

/-! ## The top exponent -/

theorem throughput_symlog (v : Exact) :
    (Scale.symlog.throughput v).value = (if v.value < 0 then -1 else 1) * (10 ^ |v.value| - 1) :=
  roundedScale.symlog_throughput_eq v

/-- How far a throughput at a position is from zero. -/
theorem abs_throughput_symlog (v : Exact) :
    |(Scale.symlog.throughput v).value| = 10 ^ |v.value| - 1 := by
  have nonneg : 0 ≤ (10 : ℝ) ^ |v.value| - 1 :=
    sub_nonneg.2 (Real.one_le_rpow (by norm_num) (abs_nonneg _))
  rw [throughput_symlog, abs_mul, abs_of_nonneg nonneg]
  split_ifs <;> simp

/-- A power of ten whose place is not past the farther end of a range is tried. The throughputs at
the ends are of the size of doubles, which leaves the top exponent far below the 32-bit limit. -/
theorem le_topExponent (low : |(Scale.symlog.throughput lo).value| < 2 ^ 1024)
    (high : |(Scale.symlog.throughput hi).value| < 2 ^ 1024) {k : ℕ}
    (inside : Real.logb 10 (1 + 10 ^ k) ≤ max |hi.value| |lo.value|) :
    k ≤ Scale.topExponent lo hi := by
  set far := larger (ChartNumber.abs hi) (ChartNumber.abs lo) with far_eq
  have far_value : far.value = max |hi.value| |lo.value| := rounded.value_larger _ _
  have farthest : |(Scale.symlog.throughput far).value| = 10 ^ max |hi.value| |lo.value| - 1 := by
    rw [abs_throughput_symlog, far_value, abs_of_nonneg (le_max_of_le_left (abs_nonneg _))]
  set reach : ℝ := 10 ^ max |hi.value| |lo.value| - 1 with reach_eq
  have power_le : (10 : ℝ) ^ k ≤ reach := by
    rw [Real.logb_le_iff_le_rpow (by norm_num) (by positivity)] at inside
    linarith
  have power_pos : (0 : ℝ) < 10 ^ k := by positivity
  have finite : reach < 2 ^ 1024 := by
    rw [abs_throughput_symlog] at low high
    rcases max_choice |hi.value| |lo.value| with right | left
    · rw [reach_eq, right]
      exact high
    · rw [reach_eq, left]
      exact low
  have exponent : Real.logb 10 reach < 1024 := by
    rw [Real.logb_lt_iff_lt_rpow (by norm_num) (power_pos.trans_le power_le)]
    calc reach < 2 ^ 1024 := finite
      _ ≤ 10 ^ 1024 := pow_le_pow_left₀ (by norm_num) (by norm_num) _
      _ = 10 ^ (1024 : ℝ) := (Real.rpow_natCast 10 1024).symm
  have k_le : (k : ℝ) ≤ Real.logb 10 reach := by
    rw [Real.le_logb_iff_rpow_le (by norm_num) (power_pos.trans_le power_le), Real.rpow_natCast]
    exact power_le
  have bound : ⌈Real.logb 10 reach⌉ ≤ 1024 := Int.ceil_le.2 (by exact_mod_cast exponent.le)
  have reached : (k : ℤ) ≤ ⌈Real.logb 10 reach⌉ := by
    have le_ceil := k_le.trans (Int.le_ceil _)
    exact_mod_cast le_ceil
  have log_value : (ChartNumber.log10 (ChartNumber.abs (Scale.symlog.throughput far))).value =
      Real.logb 10 reach := by
    rw [← farthest]
    rfl
  rw [Scale.topExponent, toInt32, ← far_eq, roundedScale.toIntWithin_ceil, log_value]
  omega

/-! ## Places in a range -/

theorem symlog_position_power {y : Exact} {k : ℕ} (power : y.value = 10 ^ k ∨ y.value = -10 ^ k) :
    |(Scale.symlog.position y).value| = Real.logb 10 (1 + 10 ^ k) := by
  have positive : (0 : ℝ) < 10 ^ k := by positivity
  have nonneg : 0 ≤ Real.logb 10 (1 + 10 ^ k) := Real.logb_nonneg (by norm_num) (by linarith)
  rw [symlog_position]
  rcases power with above | below
  · rw [above, if_neg positive.not_gt, abs_of_nonneg nonneg]
  · rw [below, if_pos (neg_neg_of_pos positive), sub_neg_eq_add, abs_neg, abs_of_nonneg nonneg]

/-- The throughput at a place is the one that has its place there. -/
theorem throughput_position_symlog (y : Exact) :
    (Scale.symlog.throughput (Scale.symlog.position y)).value = y.value :=
  roundedScale.symlog_throughput_position y

/-- What is found is the place of a power of ten or of zero. -/
theorem exists_power_of_mem_decades_symlog {v : Exact} (mem : v ∈ Scale.symlog.decades lo hi) :
    ∃ y : Exact, Scale.IsSymmetricPower y.value ∧ v = Scale.symlog.position y := by
  obtain ⟨⟨y, candidate, rfl⟩, -⟩ :=
    Scale.mem_placesBetween_iff.1 ((dropRepeats_sublist _).mem mem)
  rcases mem_symmetricPowers_iff.1 candidate with zero | ⟨k, -, power⟩
  · exact ⟨y, .zero zero, rfl⟩
  · exact ⟨y, .power k power, rfl⟩

/-- The places that are found in a range are those of all powers of ten in it, and of zero. -/
theorem mem_decades_symlog_iff (low : |(Scale.symlog.throughput lo).value| < 2 ^ 1024)
    (high : |(Scale.symlog.throughput hi).value| < 2 ^ 1024) {v : Exact} :
    v ∈ Scale.symlog.decades lo hi ↔ (lo.value ≤ v.value ∧ v.value ≤ hi.value) ∧
      ∃ y : Exact, Scale.IsSymmetricPower y.value ∧ v = Scale.symlog.position y := by
  constructor
  · intro mem
    exact ⟨(roundedScale.ascending_decades_symlog lo hi).2 v mem,
      exists_power_of_mem_decades_symlog mem⟩
  · rintro ⟨inside, y, power, rfl⟩
    have candidate : y ∈ Scale.symmetricPowers (Scale.topExponent lo hi) := by
      rw [mem_symmetricPowers_iff]
      rcases power with zero | ⟨k, power⟩
      · exact .inl zero
      · refine .inr ⟨k, le_topExponent low high ?_, power⟩
        rw [← symlog_position_power power, max_comm]
        exact abs_le_max_abs_abs inside.1 inside.2
    have passed : Scale.symlog.position y ∈ Scale.placesBetween lo hi :=
      Scale.mem_placesBetween_iff.2 ⟨⟨y, candidate, rfl⟩, inside⟩
    obtain ⟨v, mem, same⟩ := exists_mem_dropRepeats (rounded.comparedBy _) passed
    obtain rfl : v = Scale.symlog.position y := congrArg Exact.mk same
    exact mem

/-- The ticks of a range of the symmetric scale. The places of zero and the powers of ten in it are
all found, in ascending order. If there are two or more, every so many of them are ticked from the
lowest on, and otherwise there are regular ticks. -/
theorem ticks_symlog (low : |(Scale.symlog.throughput lo).value| < 2 ^ 1024)
    (high : |(Scale.symlog.throughput hi).value| < 2 ^ 1024) :
    let places := Scale.symlog.decades lo hi
    let ticks := Scale.symlog.ticks lo hi
    places.Pairwise (fun a b => a.value < b.value) ∧
      (∀ v : Exact, v ∈ places ↔ (lo.value ≤ v.value ∧ v.value ≤ hi.value) ∧
        ∃ y : Exact, Scale.IsSymmetricPower y.value ∧ v = Scale.symlog.position y) ∧
      (2 ≤ places.length → ∀ i : ℕ, ticks[i]? = places[places.length ⌈/⌉ 8 * i]?) ∧
      (places.length < 2 → ticks = regular lo hi 8) := by
  intro places ticks
  refine ⟨(roundedScale.ascending_decades_symlog lo hi).1, fun v => mem_decades_symlog_iff low high,
    fun several i => ?_, fun few => if_neg (not_le.2 few)⟩
  have thinned : ticks = everyNth (strideFor places.length throughputTarget) places :=
    Scale.ticks_of_several several
  have stride : 0 < strideFor places.length throughputTarget :=
    strideFor_pos (by decide) (two_pos.trans_le several)
  rw [thinned, getElem?_everyNth stride, strideFor_eq]
  rfl

/-- Minus one has its place in a range that one hundred is not in. -/
theorem ticks_symlog_hundred :
    let lo := Exact.mk (-1 / 2)
    let hi := Exact.mk 2
    |(Scale.symlog.throughput lo).value| < 2 ^ 1024 ∧
      |(Scale.symlog.throughput hi).value| < 2 ^ 1024 ∧
      Scale.symlog.position (Exact.mk (-1)) ∈ Scale.symlog.decades lo hi ∧
      Scale.symlog.position (Exact.mk 100) ∉ Scale.symlog.decades lo hi := by
  intro lo hi
  have small {v : Exact} (near : |v.value| ≤ 2) :
      |(Scale.symlog.throughput v).value| < 2 ^ 1024 := by
    rw [abs_throughput_symlog]
    calc (10 : ℝ) ^ |v.value| - 1 < 10 ^ |v.value| := sub_one_lt _
      _ ≤ 10 ^ (2 : ℝ) := Real.rpow_le_rpow_of_exponent_le (by norm_num) near
      _ ≤ 2 ^ 7 := by norm_num
      _ ≤ 2 ^ 1024 := pow_le_pow_right₀ (by norm_num) (by norm_num)
  have low := small (v := lo) (by norm_num [lo, abs_div])
  have high := small (v := hi) (by norm_num [hi])
  obtain ⟨-, found, -, -⟩ := ticks_symlog low high
  have one : (Scale.symlog.position (Exact.mk (-1))).value = -Real.logb 10 2 := by
    rw [symlog_position, if_pos (by norm_num)]
    norm_num
  have hundred : (Scale.symlog.position (Exact.mk 100)).value = Real.logb 10 101 := by
    rw [symlog_position, if_neg (by norm_num)]
    norm_num
  refine ⟨low, high, (found _).2 ⟨⟨?_, ?_⟩, _, .power 0 (.inr (by norm_num)), rfl⟩, fun mem => ?_⟩
  · have half : Real.logb 10 2 ≤ 1 / 2 := by
      rw [Real.logb_le_iff_le_rpow (by norm_num) (by norm_num), ← Real.sqrt_eq_rpow]
      exact Real.le_sqrt_of_sq_le (by norm_num)
    rw [one]
    norm_num [lo]
    linarith
  · have nonneg : 0 ≤ Real.logb 10 2 := Real.logb_nonneg (by norm_num) (by norm_num)
    rw [one]
    norm_num [hi]
    linarith
  · have past : 2 < Real.logb 10 101 := by
      rw [Real.lt_logb_iff_rpow_lt (by norm_num) (by norm_num)]
      norm_num
    have inside := ((found _).1 mem).1.2
    rw [hundred] at inside
    exact absurd inside (not_le.2 past)

end Exact

end ContentionChart
