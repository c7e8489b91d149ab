import ContentionChart.Proofs.RoundedScales

/-!
# Scales without rounding

Where nothing is rounded, the throughput at a position and the position of a throughput undo each
other on every scale. Zero may have a sign or none.

## Main definitions

* `SignedExact` — real numbers with a second zero, as numbers of a chart.

## Main statements

* `RoundedScale.symlog_throughput_eq` — the throughput at a position of the symmetric scale.
* `RoundedScale.throughput_position`, `RoundedScale.position_throughput` — there and back.
* `RoundedScale.positions_invert` — positions on all scales.
* `SignedExact.roundedScale` — numbers with two zeros are one case.
-/

namespace ContentionChart

open ChartNumber

namespace RoundedScale

variable {α : Type} [ChartNumber α] {value : α → ℝ} {y z v w : α}

/-! ## The symmetric scale -/

/-- The throughput at a position on the symmetric scale. -/
theorem symlog_throughput_eq (h : RoundedScale α id value) (v : α) :
    value (Scale.symlog.throughput v) =
      (if value v < 0 then -1 else 1) * (10 ^ |value v| - 1) := by
  have form : value (Scale.symlog.throughput v) = value (signum v) * (10 ^ |value v| - 1) := by
    rw [Scale.throughput, h.mul, h.mul, h.sub, h.exp10, h.abs, Scale.linearThreshold, h.value_one]
    simp only [id, mul_one]
  rw [form]
  -- At zero the other factor is zero, so that the sign of a zero does not count.
  rcases lt_trichotomy (value v) 0 with negative | zero | positive
  · rw [h.signum_neg v negative, if_pos negative]
  · simp [zero]
  · rw [h.signum_pos v positive, if_neg positive.not_gt]

theorem rpow_logb_ten {x : ℝ} (positive : 0 < x) : (10 : ℝ) ^ Real.logb 10 x = x :=
  Real.rpow_logb (by norm_num) (by norm_num) positive

theorem logb_rpow_ten (x : ℝ) : Real.logb 10 (10 ^ x) = x :=
  Real.logb_rpow (by norm_num) (by norm_num)

theorem symlog_throughput_position (h : RoundedScale α id value) (y : α) :
    value (Scale.symlog.throughput (Scale.symlog.position y)) = value y := by
  rw [h.symlog_throughput_eq, h.symlog_position_eq]
  rcases lt_or_ge (value y) 0 with negative | nonneg
  · have above : 0 < Real.logb 10 (1 - value y) := Real.logb_pos (by norm_num) (by linarith)
    rw [if_pos negative, if_pos (neg_neg_of_pos above), abs_neg, abs_of_pos above,
      rpow_logb_ten (by linarith)]
    ring
  · have above : 0 ≤ Real.logb 10 (1 + value y) := Real.logb_nonneg (by norm_num) (by linarith)
    rw [if_neg nonneg.not_gt, if_neg above.not_gt, abs_of_nonneg above,
      rpow_logb_ten (by linarith)]
    ring

theorem symlog_position_throughput (h : RoundedScale α id value) (v : α) :
    value (Scale.symlog.position (Scale.symlog.throughput v)) = value v := by
  rw [h.symlog_position_eq, h.symlog_throughput_eq]
  rcases lt_or_ge (value v) 0 with negative | nonneg
  · have above : (1 : ℝ) < 10 ^ |value v| :=
      Real.one_lt_rpow (by norm_num) (abs_pos.2 negative.ne)
    rw [if_pos negative, if_pos (by linarith), neg_one_mul, sub_neg_eq_add, add_sub_cancel,
      logb_rpow_ten, abs_of_neg negative, neg_neg]
  · have above : (1 : ℝ) ≤ 10 ^ |value v| := Real.one_le_rpow (by norm_num) (abs_nonneg _)
    rw [if_neg nonneg.not_gt, one_mul, if_neg (by linarith), add_sub_cancel, logb_rpow_ten,
      abs_of_nonneg nonneg]

theorem symlog_position_negate (h : RoundedScale α id value) (y : α) :
    value (Scale.symlog.position (-y)) = -value (Scale.symlog.position y) := by
  rw [h.symlog_position_eq, h.symlog_position_eq, h.neg]
  rcases lt_trichotomy (value y) 0 with negative | zero | positive
  · rw [if_neg (by linarith), if_pos negative, neg_neg, sub_eq_add_neg]
  · simp [zero]
  · rw [if_pos (by linarith), if_neg positive.not_gt, sub_neg_eq_add]

/-! ## All scales -/

/-- A position stands for the throughput that has it. -/
theorem throughput_position (h : RoundedScale α id value) {scale : Scale}
    (admitted : scale.admits y = true) :
    value (scale.throughput (scale.position y)) = value y := by
  cases scale with
  | linear => rfl
  | log =>
    have positive := h.admits_log_iff.1 admitted
    rw [Scale.throughput, Scale.position, h.exp10, h.log10 y positive]
    exact rpow_logb_ten positive
  | symlog => exact h.symlog_throughput_position y

/-- There is a throughput at every position. -/
theorem admits_throughput (h : RoundedScale α id value) (scale : Scale) (v : α) :
    scale.admits (scale.throughput v) = true := by
  cases scale with
  | linear | symlog => exact h.isFinite _
  | log =>
    rw [h.admits_log_iff, Scale.throughput, h.exp10]
    exact Real.rpow_pos_of_pos (by norm_num) _

/-- The throughput at a position has that position. -/
theorem position_throughput (h : RoundedScale α id value) (scale : Scale) (v : α) :
    value (scale.position (scale.throughput v)) = value v := by
  cases scale with
  | linear => rfl
  | log =>
    have positive := h.admits_log_iff.1 (h.admits_throughput .log v)
    rw [Scale.position, h.log10 _ positive, Scale.throughput, h.exp10]
    exact logb_rpow_ten _
  | symlog => exact h.symlog_position_throughput v

theorem throughput_congr (h : RoundedScale α id value) (scale : Scale)
    (same : value v = value w) : value (scale.throughput v) = value (scale.throughput w) := by
  cases scale with
  | linear => exact same
  | log => rw [Scale.throughput, Scale.throughput, h.exp10, h.exp10, same]
  | symlog => rw [h.symlog_throughput_eq, h.symlog_throughput_eq, same]

/-- Different throughputs have different positions, in their order. -/
theorem position_lt_position (h : RoundedScale α id value) {scale : Scale}
    (hy : scale.admits y = true) (hz : scale.admits z = true) (less : value y < value z) :
    value (scale.position y) < value (scale.position z) := by
  refine lt_of_le_of_ne (h.position_le_position hy less.le) fun same => less.ne ?_
  rw [← h.throughput_position hy, ← h.throughput_position hz, h.throughput_congr scale same]

/-- Without rounding, positions and throughputs undo each other: from each throughput that a scale
admits to its position and back, and from each position to its throughput, which is admitted, and
back. Positions ascend strictly with the throughputs. On the symmetric scale they change sides with
the throughputs, and zero has its position at zero, whichever sign it has. -/
theorem positions_invert (h : RoundedScale α id value) :
    (∀ (scale : Scale) (y : α), scale.admits y = true →
      value (scale.throughput (scale.position y)) = value y) ∧
    (∀ (scale : Scale) (v : α), scale.admits (scale.throughput v) = true ∧
      value (scale.position (scale.throughput v)) = value v) ∧
    (∀ (scale : Scale) (y z : α), scale.admits y = true → scale.admits z = true →
      value y < value z → value (scale.position y) < value (scale.position z)) ∧
    (∀ y : α, value (Scale.symlog.position (-y)) = -value (Scale.symlog.position y)) ∧
    ∀ y : α, value y = 0 →
      Scale.symlog.admits y = true ∧ value (Scale.symlog.position y) = 0 :=
  ⟨fun _ _ => h.throughput_position,
    fun scale v => ⟨h.admits_throughput scale v, h.position_throughput scale v⟩,
    fun _ _ _ => h.position_lt_position, h.symlog_position_negate,
    fun y zero => ⟨h.isFinite y, h.symlog_position_zero zero⟩⟩

end RoundedScale

/-! ## Zeros with a sign -/

/-- The real numbers, and a zero with a sign beside the one without. -/
inductive SignedExact where
  | real (x : ℝ)
  | negativeZero

namespace SignedExact

noncomputable def value : SignedExact → ℝ
  | real x => x
  | negativeZero => 0

/-- The number without the sign at zero. -/
noncomputable def exact (a : SignedExact) : Exact := ⟨a.value⟩

/-- Negative numbers have a minus sign, and so has one of the zeros. -/
def IsNegative : SignedExact → Prop
  | real x => x < 0
  | negativeZero => True

open Classical in
/-- The number of a value. The sign counts for zero only. -/
noncomputable def withSign (negative : Prop) (x : ℝ) : SignedExact :=
  if x = 0 ∧ negative then negativeZero else real x

@[simp] theorem value_withSign (negative : Prop) (x : ℝ) : (withSign negative x).value = x := by
  unfold withSign
  split
  case isTrue zero => exact zero.1.symm
  case isFalse => rfl

open Classical in
/-- Products and quotients are negative if one of the signs is. A zero sum is negative if both
numbers are, and rounding to a whole number keeps the sign. -/
noncomputable instance : ChartNumber SignedExact where
  add a b := withSign (a.IsNegative ∧ b.IsNegative) (a.value + b.value)
  sub a b := withSign (a.IsNegative ∧ ¬b.IsNegative) (a.value - b.value)
  mul a b := withSign (¬(a.IsNegative ↔ b.IsNegative)) (a.value * b.value)
  div a b := withSign (¬(a.IsNegative ↔ b.IsNegative)) (a.value / b.value)
  neg a := withSign (¬a.IsNegative) (-a.value)
  le a b := a.value ≤ b.value
  lt a b := a.value < b.value
  ofScientific digits point places := real (OfScientific.ofScientific digits point places)
  decidableLE _ _ := Classical.dec _
  decidableLT _ _ := Classical.dec _
  ofInt n := real n
  isFinite _ := true
  abs a := real (ChartNumber.abs a.exact).value
  signum a := real (if a.IsNegative then -1 else 1)
  floor a := withSign a.IsNegative (ChartNumber.floor a.exact).value
  ceil a := withSign a.IsNegative (ChartNumber.ceil a.exact).value
  round a := withSign a.IsNegative (ChartNumber.round a.exact).value
  toIntWithin lo hi a := ChartNumber.toIntWithin lo hi a.exact
  log10 a := real (ChartNumber.log10 a.exact).value
  exp10 a := real (ChartNumber.exp10 a.exact).value

theorem roundedScale : RoundedScale SignedExact id value where
  monotone := monotone_id
  half _ _ := rfl
  round_value _ := rfl
  lt_iff _ _ := Iff.rfl
  le_iff _ _ := Iff.rfl
  add _ _ := value_withSign _ _
  sub _ _ := value_withSign _ _
  mul _ _ := value_withSign _ _
  div _ _ := value_withSign _ _
  literal _ _ _ := rfl
  ofInt _ := rfl
  abs _ := rfl
  floor _ := value_withSign _ _
  toIntWithin _ _ _ := rfl
  isFinite _ := rfl
  neg _ := value_withSign _ _
  signum_pos a positive := by
    cases a with
    | real x => exact if_neg positive.not_gt
    | negativeZero => exact absurd positive (lt_irrefl 0)
  signum_neg a negative := by
    cases a with
    | real x => exact if_pos negative
    | negativeZero => exact absurd negative (lt_irrefl 0)
  ceil _ := value_withSign _ _
  log10 _ _ := rfl
  exp10 _ := rfl

/-- The place of minus ninety-nine is minus two, with a sign at zero as well as without. -/
theorem positions_invert_signed :
    RoundedScale SignedExact id value ∧
      (signum negativeZero).value = -1 ∧ (signum (real 0)).value = 1 ∧
      (Scale.symlog.position negativeZero).value = 0 ∧
      (Scale.symlog.position (real (-99))).value = -2 ∧
      (Scale.symlog.throughput (Scale.symlog.position (real (-99)))).value = -99 ∧
      RoundedScale Exact id Exact.value ∧
      ∀ (scale : Scale) (x : ℝ), (scale.position (scale.throughput (Exact.mk x))).value = x := by
  obtain ⟨back, -, -, -, zero⟩ := RoundedScale.positions_invert roundedScale
  obtain ⟨-, forth, -, -, -⟩ := RoundedScale.positions_invert Exact.roundedScale
  have hundred : Real.logb 10 100 = 2 := by
    rw [Real.logb_eq_iff_rpow_eq (by norm_num) (by norm_num) (by norm_num)]
    norm_num
  refine ⟨roundedScale, if_pos trivial, if_neg (lt_irrefl 0), (zero negativeZero rfl).2, ?_,
    back .symlog (real (-99)) rfl, Exact.roundedScale, fun scale x => (forth scale ⟨x⟩).2⟩
  rw [roundedScale.symlog_position_eq, value, if_pos (by norm_num), sub_neg_eq_add]
  norm_num [hundred]

end SignedExact

end ContentionChart
