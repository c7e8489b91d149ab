import ContentionChart.Proofs.RegularTicks

/-!
# Round steps

The step of regular ticks is the least round number that is not too short, and every multiple of it
in a range is ticked. How many multiples there are follows from how often the step fits into the
range.

## Main definitions

* `Ticks.IsRound` — one, two or five times a power of ten.

## Main statements

* `Exact.isLeast_roundStep` — no round number between a length and its step.
* `Exact.mem_multiples_iff` — the multiples of a step that are ticked.
* `Exact.multiples_in_range` — the regular ticks of a range.
* `Exact.not_multiples_in_range` — a tick below the range where numbers have more than 64 bits.
-/

namespace ContentionChart

open ChartNumber Ticks

/-- One, two or five times a power of ten. -/
inductive Ticks.IsRound (s : ℝ) : Prop where
  | one (k : ℤ) (form : s = 10 ^ k)
  | two (k : ℤ) (form : s = 2 * 10 ^ k)
  | five (k : ℤ) (form : s = 5 * 10 ^ k)

/-- The round numbers from a power of ten on. -/
theorem Ticks.IsRound.cases_of_le {s : ℝ} (round : IsRound s) {n : ℤ} (le : (10 : ℝ) ^ n ≤ s) :
    s = 10 ^ n ∨ s = 2 * 10 ^ n ∨ s = 5 * 10 ^ n ∨ 10 * 10 ^ n ≤ s := by
  obtain ⟨k, form⟩ : ∃ k : ℤ, s = 10 ^ k ∨ s = 2 * 10 ^ k ∨ s = 5 * 10 ^ k := by
    cases round with
    | one k form => exact ⟨k, .inl form⟩
    | two k form => exact ⟨k, .inr (.inl form)⟩
    | five k form => exact ⟨k, .inr (.inr form)⟩
  have power : (0 : ℝ) < 10 ^ k := by positivity
  rcases lt_trichotomy k n with below | rfl | above
  · have tenth : (10 : ℝ) * 10 ^ k ≤ 10 ^ n := by
      rw [← zpow_one_add₀ (by norm_num)]
      exact zpow_le_zpow_right₀ (by norm_num) (by omega)
    rcases form with rfl | rfl | rfl <;> linarith
  · rcases form with rfl | rfl | rfl <;> simp
  · have tenfold : (10 : ℝ) * 10 ^ n ≤ 10 ^ k := by
      rw [← zpow_one_add₀ (by norm_num)]
      exact zpow_le_zpow_right₀ (by norm_num) (by omega)
    right; right; right
    rcases form with rfl | rfl | rfl <;> linarith

namespace Exact

/-- A step is the least round number that is long enough. -/
theorem isLeast_roundStep {raw : Exact} (positive : 0 < raw.value) :
    IsLeast {s : ℝ | IsRound s ∧ raw.value ≤ s} (roundStep raw).value := by
  obtain ⟨low, high⟩ := leadingPower_bounds positive
  set n := ⌊Real.logb 10 raw.value⌋
  set power : Exact := ChartNumber.exp10 (ChartNumber.floor (ChartNumber.log10 raw)) with power_eq
  have power_value : power.value = 10 ^ n := Real.rpow_intCast 10 n
  rw [Real.rpow_intCast] at low high
  have power_pos : (0 : ℝ) < 10 ^ n := by positivity
  have ratio_le (a : Exact) : raw / power ≤ a ↔ raw.value ≤ a.value * 10 ^ n := by
    rw [← power_value]
    exact div_le_iff₀ (power_value ▸ power_pos)
  have multiple (a : Exact) : (a * power).value = a.value * 10 ^ n := by rw [← power_value]; rfl
  have longer {s : ℝ} (mem : s ∈ {s : ℝ | IsRound s ∧ raw.value ≤ s}) :
      s = 10 ^ n ∨ s = 2 * 10 ^ n ∨ s = 5 * 10 ^ n ∨ 10 * 10 ^ n ≤ s :=
    mem.1.cases_of_le (low.trans mem.2)
  simp only [roundStep, ← power_eq, ratio_le, literal_one, literal_two, literal_five]
  split_ifs with one two five
  · rw [power_value]
    refine ⟨⟨.one n rfl, by linarith⟩, fun s mem => low.trans mem.2⟩
  · rw [multiple, literal_two]
    refine ⟨⟨.two n rfl, two⟩, fun s mem => ?_⟩
    rcases longer mem with rfl | rfl | rfl | long <;> linarith [mem.2]
  · rw [multiple, literal_five]
    refine ⟨⟨.five n rfl, five⟩, fun s mem => ?_⟩
    rcases longer mem with rfl | rfl | rfl | long <;> linarith [mem.2]
  · have tenfold : (10 : ℝ) * 10 ^ n = 10 ^ (n + 1) := by
      rw [zpow_add_one₀ (by norm_num), mul_comm]
    rw [multiple, literal_ten]
    refine ⟨⟨.one (n + 1) tenfold, high.le⟩, fun s mem => ?_⟩
    rcases longer mem with rfl | rfl | rfl | long <;> linarith [mem.2]

section

variable {step lo hi : Exact} {target : ℕ}

/-- Multiples are ticked from the first to the last one in range, where the numbers of both are held
at the largest 64-bit integer. -/
theorem mem_multiples_iff (low : |lo.value / step.value| < 2 ^ 63)
    (high : |hi.value / step.value| < 2 ^ 63) {t : Exact} :
    t ∈ multiples step lo hi ↔ ∃ i : ℤ, t.value = i * step.value ∧
      min (2 ^ 63 - 1) ⌈lo.value / step.value⌉ ≤ i ∧
      i ≤ min (2 ^ 63 - 1) ⌊hi.value / step.value + 1 / 10 ^ 9⌋ := by
  rw [multiples_eq low high, List.mem_map]
  constructor
  · rintro ⟨i, between, rfl⟩
    exact ⟨i, rfl, mem_integers.1 between⟩
  · rintro ⟨i, same, between⟩
    exact ⟨i, mem_integers.2 between, congrArg Exact.mk same.symm⟩

/-- All multiples in a range are ticked and nothing else, if the numbers of the first and of the
last of them have 64 bits. -/
theorem mem_multiples_iff_of_lt (positive : 0 < step.value)
    (low : |lo.value / step.value| < 2 ^ 63) (high : |hi.value / step.value| < 2 ^ 63)
    (first_lt : ⌈lo.value / step.value⌉ < 2 ^ 63)
    (last_lt : ⌊hi.value / step.value + 1 / 10 ^ 9⌋ < 2 ^ 63) {t : Exact} :
    t ∈ multiples step lo hi ↔ ∃ i : ℤ, t.value = i * step.value ∧ lo.value ≤ t.value ∧
      t.value ≤ hi.value + step.value / 10 ^ 9 := by
  have first : min (2 ^ 63 - 1) ⌈lo.value / step.value⌉ = ⌈lo.value / step.value⌉ := by omega
  have last : min (2 ^ 63 - 1) ⌊hi.value / step.value + 1 / 10 ^ 9⌋ =
      ⌊hi.value / step.value + 1 / 10 ^ 9⌋ := by omega
  have widened : hi.value / step.value + 1 / 10 ^ 9 =
      (hi.value + step.value / 10 ^ 9) / step.value := by
    rw [add_div, div_right_comm, div_self positive.ne']
  rw [mem_multiples_iff low high, first, last]
  refine exists_congr fun i => and_congr_right fun same => ?_
  rw [same, Int.ceil_le, div_le_iff₀ positive, Int.le_floor, widened, le_div_iff₀ positive]

/-- There are as many multiples in a range as whole steps fit into it, or one more. -/
theorem length_multiples_bounds (low : |lo.value / step.value| < 2 ^ 63)
    (high : |hi.value / step.value| < 2 ^ 63) {least most : ℕ}
    (least_lt : least < hi.value / step.value - lo.value / step.value)
    (le_most : hi.value / step.value - lo.value / step.value ≤ most) :
    least ≤ (multiples step lo hi).length ∧ (multiples step lo hi).length ≤ most + 1 := by
  rw [multiples_eq low high, List.length_map, length_integers]
  rw [abs_lt] at high
  set first := ⌈lo.value / step.value⌉
  set last := ⌊hi.value / step.value + 1 / 10 ^ 9⌋
  have first_lt : (first : ℝ) < lo.value / step.value + 1 := Int.ceil_lt_add_one _
  have le_first : lo.value / step.value ≤ first := Int.le_ceil _
  have last_le : (last : ℝ) ≤ hi.value / step.value + 1 / 10 ^ 9 := Int.floor_le _
  constructor
  · -- The last whole number that is not past the upper end is a 64-bit one.
    have whole_le : (⌊hi.value / step.value⌋ : ℝ) ≤ hi.value / step.value := Int.floor_le _
    have lt_whole : hi.value / step.value < ⌊hi.value / step.value⌋ + 1 := Int.lt_floor_add_one _
    have whole_le_last : ⌊hi.value / step.value⌋ ≤ last := by
      apply Int.floor_le_floor
      norm_num
    have whole_lt : ⌊hi.value / step.value⌋ < 2 ^ 63 := by
      rw [Int.floor_lt]
      push_cast
      linarith
    have fits : (least : ℝ) < ⌊hi.value / step.value⌋ + 1 - first + 1 := by linarith
    have fits' : (least : ℤ) < ⌊hi.value / step.value⌋ + 1 - first + 1 := by exact_mod_cast fits
    omega
  · have few : (last : ℝ) - first < most + 1 := by linarith
    have few' : last - first < most + 1 := by exact_mod_cast few
    omega

/-- A step that is the least round number fits into its range at least two fifths as often as aimed
at, and no more often than that. -/
theorem steps_bounds (positive : 0 < target) (ordered : lo.value < hi.value) :
    let step := (stepFor lo hi target).value
    ((2 * target / 5 : ℕ) : ℝ) < hi.value / step - lo.value / step ∧
      hi.value / step - lo.value / step ≤ target := by
  intro step
  have target_pos : (0 : ℝ) < target := Nat.cast_pos.2 positive
  set raw := (hi.value - lo.value) / target
  have raw_pos : 0 < raw := div_pos (sub_pos.2 ordered) target_pos
  obtain ⟨enough, notMore⟩ := stepFor_bounds_of_pos positive ordered
  have step_pos : 0 < step := raw_pos.trans_le enough
  have often : hi.value / step - lo.value / step = target * (raw / step) := by
    rw [← sub_div, ← mul_div_assoc, mul_div_cancel₀ _ target_pos.ne']
  constructor
  · have share : 2 / 5 < raw / step := by
      rw [lt_div_iff₀ step_pos]
      linarith
    calc ((2 * target / 5 : ℕ) : ℝ) ≤ ((2 * target : ℕ) : ℝ) / (5 : ℕ) := Nat.cast_div_le
      _ = target * (2 / 5) := by push_cast; ring
      _ < target * (raw / step) := mul_lt_mul_of_pos_left share target_pos
      _ = hi.value / step - lo.value / step := often.symm
  · rw [often]
    exact mul_le_of_le_one_right target_pos.le ((div_le_one step_pos).2 enough)

/-- The regular ticks of a range. Their step is the least round number that fits into the range no
more often than aimed at, so that it fits at least two fifths as often. They are the multiples of
the step in the range, whose upper end is widened by a billionth of the step, as long as the numbers
of the first and of the last multiple have 64 bits. A number that has more is replaced by the
largest one that has not. -/
theorem multiples_in_range (positive : 0 < target) (ordered : lo.value < hi.value)
    (low : |lo.value / (stepFor lo hi target).value| < 2 ^ 63)
    (high : |hi.value / (stepFor lo hi target).value| < 2 ^ 63) :
    let raw := (hi.value - lo.value) / target
    let step := (stepFor lo hi target).value
    let ticks := regular lo hi target
    IsLeast {s : ℝ | IsRound s ∧ raw ≤ s} step ∧ step < 5 / 2 * raw ∧
      ticks.Pairwise (fun a b => a.value < b.value) ∧
      (∀ t : Exact, t ∈ ticks ↔ ∃ i : ℤ, t.value = i * step ∧
        min (2 ^ 63 - 1) ⌈lo.value / step⌉ ≤ i ∧
        i ≤ min (2 ^ 63 - 1) ⌊hi.value / step + 1 / 10 ^ 9⌋) ∧
      (⌈lo.value / step⌉ < 2 ^ 63 → ⌊hi.value / step + 1 / 10 ^ 9⌋ < 2 ^ 63 →
        ∀ t : Exact, t ∈ ticks ↔ ∃ i : ℤ, t.value = i * step ∧ lo.value ≤ t.value ∧
          t.value ≤ hi.value + step / 10 ^ 9) ∧
      2 * target / 5 ≤ ticks.length ∧ ticks.length ≤ target + 1 := by
  intro raw step ticks
  have target_pos : (0 : ℝ) < target := Nat.cast_pos.2 positive
  have raw_pos : 0 < raw := div_pos (sub_pos.2 ordered) target_pos
  have least : IsLeast {s : ℝ | IsRound s ∧ raw ≤ s} step :=
    @isLeast_roundStep ((hi - lo) / ofInt target) raw_pos
  obtain ⟨enough, notMore⟩ := stepFor_bounds_of_pos positive ordered
  have step_pos : 0 < step := raw_pos.trans_le enough
  have numbered : ticks = multiples (stepFor lo hi target) lo hi :=
    roundedScale.regular_eq (sub_pos.2 ordered) positive
  obtain ⟨moreThan, atMost⟩ := steps_bounds positive ordered
  obtain ⟨atLeast, few⟩ := length_multiples_bounds low high moreThan atMost
  rw [numbered]
  refine ⟨least, notMore, ?_, fun t => mem_multiples_iff low high, fun first_lt last_lt t => ?_,
    atLeast, few⟩
  · rw [multiples_eq low high]
    exact ascending_multiples step_pos _ _
  · exact mem_multiples_iff_of_lt step_pos low high first_lt last_lt

/-- From minus three to seven five steps of two fit, so that two is the step. -/
theorem multiples_in_range_two :
    let lo := Exact.mk (-3)
    let hi := Exact.mk 7
    0 < 5 ∧ lo.value < hi.value ∧ |lo.value / (stepFor lo hi 5).value| < 2 ^ 63 ∧
      |hi.value / (stepFor lo hi 5).value| < 2 ^ 63 ∧ (stepFor lo hi 5).value = 2 ∧
      ∀ t : Exact, t ∈ regular lo hi 5 ↔
        ∃ i : ℤ, t.value = i * 2 ∧ -3 ≤ t.value ∧ t.value ≤ 7 + 2 / 10 ^ 9 := by
  intro lo hi
  have ordered : lo.value < hi.value := by norm_num [lo, hi]
  have enough : 2 ≤ (stepFor lo hi 5).value := by
    refine le_trans ?_ (stepFor_bounds_of_pos (by decide : 0 < 5) ordered).1
    norm_num [lo, hi]
  have few {x : ℝ} (near : |x| ≤ 7) : |x / (stepFor lo hi 5).value| ≤ 7 / 2 := by
    rw [abs_div, abs_of_pos (two_pos.trans_le enough)]
    exact div_le_div₀ (by norm_num) near two_pos enough
  have low : |lo.value / (stepFor lo hi 5).value| ≤ 7 / 2 := few (by norm_num [lo])
  have high : |hi.value / (stepFor lo hi 5).value| ≤ 7 / 2 := few (by norm_num [hi])
  obtain ⟨least, -, -, -, ticked, -, -⟩ := multiples_in_range (by decide : 0 < 5) ordered
    (low.trans_lt (by norm_num)) (high.trans_lt (by norm_num))
  have raw : (hi.value - lo.value) / (5 : ℕ) = 2 := by norm_num [lo, hi]
  have step : (stepFor lo hi 5).value = 2 := by
    rw [raw] at least
    exact le_antisymm (least.2 ⟨.two 0 (by norm_num), le_rfl⟩) enough
  have first_lt : ⌈lo.value / (stepFor lo hi 5).value⌉ < 2 ^ 63 := by
    have first_le := (le_abs_self _).trans low
    exact (Int.ceil_le.2 (by push_cast; linarith : _ ≤ ((4 : ℤ) : ℝ))).trans_lt (by norm_num)
  have last_lt : ⌊hi.value / (stepFor lo hi 5).value + 1 / 10 ^ 9⌋ < 2 ^ 63 := by
    have last_le := (le_abs_self _).trans high
    rw [Int.floor_lt]
    push_cast
    linarith
  have all := ticked first_lt last_lt
  rw [step] at all
  exact ⟨by decide, ordered, low.trans_lt (by norm_num), high.trans_lt (by norm_num), step, all⟩

/-- Just below the first number that does not have 64 bits a range without any multiple of its step
is ticked, below its lower end. -/
theorem not_multiples_in_range :
    let lo := Exact.mk (2 ^ 63 - 19 / 20)
    let hi := Exact.mk (2 ^ 63 - 7 / 20)
    let step := (stepFor lo hi 1).value
    lo.value < hi.value ∧ |lo.value / step| < 2 ^ 63 ∧ |hi.value / step| < 2 ^ 63 ∧
      (∃ t ∈ regular lo hi 1, t.value < lo.value) ∧
      ¬ ∀ t : Exact, t ∈ regular lo hi 1 ↔
        ∃ i : ℤ, t.value = i * step ∧ lo.value ≤ t.value ∧ t.value ≤ hi.value + step / 10 ^ 9 := by
  intro lo hi step
  have ordered : lo.value < hi.value := by norm_num [lo, hi]
  have one : step = 1 := by
    have least : IsLeast {s : ℝ | IsRound s ∧ 3 / 5 ≤ s} step := by
      have raw : ((hi - lo) / ofInt ((1 : ℕ) : ℤ) : Exact).value = 3 / 5 := by
        change (hi.value - lo.value) / ((1 : ℕ) : ℤ) = 3 / 5
        norm_num [lo, hi]
      rw [← raw]
      apply isLeast_roundStep
      rw [raw]
      norm_num
    have atMost : step ≤ 1 := least.2 ⟨.one 0 (by norm_num), by norm_num⟩
    have tenth : (10 : ℝ) ^ (-1 : ℤ) = 1 / 10 := by norm_num
    have enough := least.1.2
    have forms := least.1.1.cases_of_le (tenth.trans_le (by linarith))
    rw [tenth] at forms
    rcases forms with same | same | same | long <;> linarith
  have low : |lo.value / step| < 2 ^ 63 := by
    rw [one, div_one, abs_lt]
    norm_num [lo]
  have high : |hi.value / step| < 2 ^ 63 := by
    rw [one, div_one, abs_lt]
    norm_num [hi]
  have first : ⌈lo.value / step⌉ = 2 ^ 63 := by
    rw [one, div_one, Int.ceil_eq_iff]
    norm_num [lo]
  have last : ⌊hi.value / step + 1 / 10 ^ 9⌋ = 2 ^ 63 - 1 := by
    rw [one, div_one, Int.floor_eq_iff]
    norm_num [hi]
  have numbered : regular lo hi 1 = multiples (stepFor lo hi 1) lo hi :=
    roundedScale.regular_eq (sub_pos.2 ordered) one_pos
  have mem : Exact.mk (2 ^ 63 - 1) ∈ regular lo hi 1 := by
    rw [numbered, mem_multiples_iff low high]
    change ∃ i : ℤ, (2 ^ 63 - 1 : ℝ) = i * step ∧ min (2 ^ 63 - 1) ⌈lo.value / step⌉ ≤ i ∧
      i ≤ min (2 ^ 63 - 1) ⌊hi.value / step + 1 / 10 ^ 9⌋
    rw [first, last, one]
    exact ⟨2 ^ 63 - 1, by norm_num, by norm_num, by norm_num⟩
  have below : (Exact.mk (2 ^ 63 - 1)).value < lo.value := by norm_num [lo]
  refine ⟨ordered, low, high, ⟨_, mem, below⟩, fun all => ?_⟩
  obtain ⟨-, -, above, -⟩ := (all _).1 mem
  exact above.not_gt below

end

end Exact

end ContentionChart
