import ContentionChart.Proofs.Labels

/-!
# Numbers on labels

The number on a label is that of the throughput, rounded to the last digit of the label. The grid of
these numbers changes with the size of the throughput, but only at powers of ten. A power of ten is
on the grids of both sides, so that no number is rounded past it and labels never jump backwards.

## Main definitions

* `Label.unitExponent` — the last digit of the labels between two powers of ten.
* `Label.shown` — the number on the label of a throughput.
* `Label.value?` — the number that a text spells.

## Main statements

* `Label.shown_monotone`, `Label.shown_neg`, `Label.sign_shown`, `Label.abs_shown_sub_le` — how the
  number on a label follows the throughput.
* `Label.ofThroughput_shows` — what the number that a label spells says about the throughput.
* `Label.lt_hundredth_iff` — where labels begin to have an exponent.
-/

namespace ContentionChart

open Binary64 (toRat?)

/-- The number that a numeral stands for. -/
def Numeral.toRat? : Numeral → Option ℚ
  | .decimal negative d => some (if negative then -d.toRat else d.toRat)
  | .infinite _ => none
  | .undefined => none

namespace Label

open Decimal (decimalExponent decimalExponent_spec)

variable {p q : ℚ} {x y : Float}

/-! ## Decades -/

theorem zpow_le_iff (positive : 0 < q) (k : ℤ) : (10 : ℚ) ^ k ≤ q ↔ k ≤ decimalExponent q := by
  have ten : (1 : ℚ) < 10 := by norm_num
  obtain ⟨low, high⟩ := decimalExponent_spec positive
  constructor
  · intro le
    exact Int.lt_add_one_iff.1 ((zpow_lt_zpow_iff_right₀ ten).1 (le.trans_lt high))
  · intro le
    exact (zpow_le_zpow_right₀ ten.le le).trans low

/-- The place of the last digit of a label, by the place of the first digit of the magnitude. -/
def unitExponent (first : ℤ) : ℤ :=
  if 5 ≤ first ∨ first < -2 then first - 1
  else if 2 ≤ first then 0
  else -2

theorem unitExponent_le (first : ℤ) : unitExponent first ≤ first := by
  unfold unitExponent
  split_ifs <;> omega

theorem unit_eq (positive : 0 < q) : unit q = 10 ^ unitExponent (decimalExponent q) := by
  have large := zpow_le_iff positive 5
  have small := zpow_le_iff positive (-2)
  have whole := zpow_le_iff positive 2
  norm_num at large small whole
  simp only [unit, unitExponent, large, ← not_le, small, whole]
  split_ifs
  · rfl
  · rw [zpow_zero]
  · norm_num

/-- The powers of ten around a magnitude are multiples of the last digit of its label, so that the
number on the label stays between them. -/
theorem toRat_rounded_between (positive : 0 < q) :
    10 ^ decimalExponent q ≤ (rounded q).toRat ∧
      (rounded q).toRat ≤ 10 ^ (decimalExponent q + 1) := by
  have step := unit_pos q
  have multiple {k : ℤ} (le : unitExponent (decimalExponent q) ≤ k) :
      ∃ n : ℤ, (10 : ℚ) ^ k = n * unit q := by
    refine ⟨10 ^ (k - unitExponent (decimalExponent q)).toNat, ?_⟩
    rw [unit_eq positive, Int.cast_pow, Int.cast_ofNat, ← zpow_natCast,
      Int.toNat_of_nonneg (sub_nonneg.2 le), ← zpow_add₀ (by norm_num), sub_add_cancel]
  obtain ⟨low, high⟩ := decimalExponent_spec positive
  have last := unitExponent_le (decimalExponent q)
  obtain ⟨m, hm⟩ := multiple last
  obtain ⟨n, hn⟩ := multiple (last.trans (lt_add_one _).le)
  rw [hm] at low ⊢
  rw [hn] at high ⊢
  rw [toRat_rounded positive, mul_le_mul_iff_left₀ step, mul_le_mul_iff_left₀ step, Int.cast_le,
    Int.cast_le]
  exact ⟨Binary64.le_roundHalfEven ((le_div_iff₀ step).2 low),
    Binary64.roundHalfEven_le ((div_le_iff₀ step).2 high.le)⟩

/-- Magnitudes in one decade are rounded to one grid, and the numbers on the labels of two decades
are apart by a power of ten. -/
theorem toRat_rounded_mono (positive : 0 < p) (le : p ≤ q) :
    (rounded p).toRat ≤ (rounded q).toRat := by
  have positive' := positive.trans_le le
  have decades : decimalExponent p ≤ decimalExponent q :=
    (zpow_le_iff positive' _).1 ((decimalExponent_spec positive).1.trans le)
  rcases decades.lt_or_eq with less | same
  · calc (rounded p).toRat ≤ 10 ^ (decimalExponent p + 1) := (toRat_rounded_between positive).2
      _ ≤ 10 ^ decimalExponent q := zpow_le_zpow_right₀ (by norm_num) less
      _ ≤ (rounded q).toRat := (toRat_rounded_between positive').1
  · have step := unit_pos q
    have grid : unit p = unit q := by rw [unit_eq positive, unit_eq positive', same]
    rw [toRat_rounded positive, toRat_rounded positive', grid, mul_le_mul_iff_left₀ step,
      Int.cast_le]
    exact Binary64.roundHalfEven_mono (div_le_div_of_nonneg_right le step.le)

/-- One half of a step of the last digit is a twentieth of the magnitude at most, but for the
hundredths of small magnitudes. -/
theorem unit_div_two_le (positive : 0 < q) : unit q / 2 ≤ max (q / 20) (1 / 200) := by
  unfold unit
  split_ifs with exponent whole
  · refine le_max_of_le_left ?_
    have low := (decimalExponent_spec positive).1
    rw [zpow_sub_one₀ (by norm_num)]
    linarith
  · exact le_max_of_le_left (by linarith)
  · exact le_max_of_le_right (by norm_num)

/-! ## The number shown -/

/-- The number on the label of a throughput. -/
def shown (q : ℚ) : ℚ := SignType.sign q * (rounded |q|).toRat

@[simp] theorem shown_zero : shown 0 = 0 := by simp [shown]

theorem shown_of_pos (positive : 0 < q) : shown q = (rounded q).toRat := by
  simp [shown, positive, abs_of_pos]

@[simp] theorem shown_neg (q : ℚ) : shown (-q) = -shown q := by
  simp [shown, Left.sign_neg]

theorem shown_pos (positive : 0 < q) : 0 < shown q := by
  rw [shown_of_pos positive]
  exact toRat_rounded_pos positive

/-- What labels do to positive throughputs, they do to the negative ones with the opposite sign. -/
theorem shown_cases {P : ℚ → ℚ → Prop} (zero : P 0 0) (positive : ∀ q, 0 < q → P q (shown q))
    (negate : ∀ q r, P q r → P (-q) (-r)) (q : ℚ) : P q (shown q) := by
  rcases lt_trichotomy q 0 with lt | rfl | gt
  · have opposite := negate _ _ (positive (-q) (neg_pos.2 lt))
    rwa [shown_neg, neg_neg, neg_neg] at opposite
  · rwa [shown_zero]
  · exact positive q gt

/-- The number on a label has the sign of the throughput. -/
theorem sign_shown (q : ℚ) : SignType.sign (shown q) = SignType.sign q := by
  refine shown_cases (P := fun q r => SignType.sign r = SignType.sign q) rfl ?_ ?_ q
  · intro q positive
    rw [sign_pos positive, sign_pos (shown_pos positive)]
  · intro q r same
    rw [Left.sign_neg, Left.sign_neg, same]

theorem abs_shown_sub_le (q : ℚ) : |shown q - q| ≤ max (|q| / 20) (1 / 200) := by
  refine shown_cases (P := fun q r => |r - q| ≤ max (|q| / 20) (1 / 200)) (by simp) ?_ ?_ q
  · intro q positive
    rw [shown_of_pos positive, abs_of_pos positive]
    exact (abs_rounded_sub_le positive).trans (unit_div_two_le positive)
  · intro q r near
    rwa [neg_sub_neg, abs_sub_comm, abs_neg]

theorem shown_monotone : Monotone shown := by
  have positives {p q : ℚ} (positive : 0 < p) (le : p ≤ q) : shown p ≤ shown q := by
    rw [shown_of_pos positive, shown_of_pos (positive.trans_le le)]
    exact toRat_rounded_mono positive le
  intro p q le
  rcases lt_trichotomy p 0 with hp | rfl | hp
  · have below : shown p < 0 := by
      rw [← neg_neg p, shown_neg]
      exact neg_neg_of_pos (shown_pos (neg_pos.2 hp))
    rcases lt_trichotomy q 0 with hq | rfl | hq
    · have opposite := positives (neg_pos.2 hq) (neg_le_neg le)
      rwa [shown_neg, shown_neg, neg_le_neg_iff] at opposite
    · rw [shown_zero]
      exact below.le
    · exact (below.trans (shown_pos hq)).le
  · rcases le.lt_or_eq with hq | rfl
    · rw [shown_zero]
      exact (shown_pos hq).le
    · exact le_rfl
  · exact positives hp le

/-! ## Where labels have an exponent -/

/-- No double lies between one hundredth and the double nearest to it, so that it does not matter
which of the two a throughput is compared to. -/
theorem lt_hundredth_iff (finite : toRat? x = some q) : x < 0.01 ↔ q < 1 / 100 := by
  obtain ⟨negative, m, e, reading, rfl⟩ := Binary64.toRat?_eq_some_iff.1 finite
  have nearest : Binary64.read 0.01 = .finite false 5764607523034235 (-59) := rfl
  obtain ⟨canonical, -⟩ := Binary64.read_eq_finite_iff.1 reading
  obtain ⟨canonical', -⟩ := Binary64.read_eq_finite_iff.1 nearest
  rw [Binary64.lt_iff_compare, reading, nearest, Binary64.compare_finite_iff canonical canonical']
  constructor
  case mpr =>
    intro less
    refine less.trans ?_
    norm_num [Binary64.value, Binary64.magnitude]
  case mp =>
    intro less
    cases negative with
    | true =>
      calc Binary64.value true m e ≤ 0 := neg_nonpos.2 (Binary64.magnitude_nonneg m e)
        _ < 1 / 100 := by norm_num
    | false =>
      have order := (Binary64.magnitude_lt_iff canonical canonical').1 less
      rw [Ordering.then_eq_lt, compare_lt_iff_lt, compare_eq_iff_eq, compare_lt_iff_lt] at order
      rcases order with lower | ⟨rfl, before⟩
      · calc Binary64.value false m e < 2 ^ (e + 53) := Binary64.magnitude_lt canonical
          _ ≤ 2 ^ (-7 : ℤ) := zpow_le_zpow_right₀ one_le_two (by omega)
          _ < 1 / 100 := by norm_num
      · calc Binary64.value false m (-59) ≤ (5764607523034234 : ℕ) * 2 ^ (-59 : ℤ) :=
            mul_le_mul_of_nonneg_right (Nat.cast_le.2 (Nat.le_of_lt_succ before)) (by positivity)
          _ < 1 / 100 := by norm_num

/-! ## Texts -/

/-- The number that a text spells. Infinities are none. -/
def value? (text : String) : Option ℚ := (Numeral.ofChars? text.toList).bind Numeral.toRat?

theorem toRat?_numeral (q : ℚ) : (numeral q).toRat? = some (shown q) := by
  rcases lt_trichotomy q 0 with lt | rfl | gt
  · simp [numeral, Numeral.toRat?, shown, lt, lt.ne]
  · simp [numeral, Numeral.toRat?, Decimal.toRat]
  · simp [numeral, Numeral.toRat?, shown, gt, gt.ne', gt.not_gt]

/-- A label spells its number. -/
theorem value?_ofThroughput (finite : toRat? x = some q) :
    value? (ofThroughput x) = some (shown q) := by
  rw [value?, ofThroughput_of_toRat? finite, ofRat, ofChars?_text, Option.bind_some,
    toRat?_numeral]

/-- The label of a finite throughput spells a number. It has the sign of the throughput, is off by a
twentieth of it or by one two-hundredth at most, changes its sign with the throughput, and is not
greater than the number on the label of a greater throughput. -/
theorem ofThroughput_shows (finite : toRat? x = some p) :
    ∃ u, value? (ofThroughput x) = some u ∧
      SignType.sign u = SignType.sign p ∧
      |u - p| ≤ max (|p| / 20) (1 / 200) ∧
      value? (ofThroughput (-x)) = some (-u) ∧
      ∀ y q, toRat? y = some q → p ≤ q → ∃ w, value? (ofThroughput y) = some w ∧ u ≤ w := by
  refine ⟨shown p, value?_ofThroughput finite, sign_shown p, abs_shown_sub_le p, ?_, ?_⟩
  · rw [value?_ofThroughput (Binary64.toRat?_neg finite), shown_neg]
  · intro y q finite' le
    exact ⟨shown q, value?_ofThroughput finite', shown_monotone le⟩

/-- Below a hundred thousand a label may show a hundred thousand, but not more than that. -/
theorem ofThroughput_shows_hundred_thousand :
    toRat? 99999.75 = some (399999 / 4) ∧ toRat? 100000.5 = some (200001 / 2) ∧
      ofThroughput 99999.75 = "100000" ∧ ofThroughput 100000.5 = "1.0e5" ∧
      ∃ u w, value? "100000" = some u ∧ value? "1.0e5" = some w ∧ u ≤ w ∧
        |u - 399999 / 4| ≤ max (|399999 / 4| / 20) (1 / 200) := by
  have below : toRat? 99999.75 = some (399999 / 4) := by decide +kernel
  have above : toRat? 100000.5 = some (200001 / 2) := by decide +kernel
  have label : ofThroughput 99999.75 = "100000" := by decide +kernel
  have label' : ofThroughput 100000.5 = "1.0e5" := by decide +kernel
  obtain ⟨u, number, -, near, -, later⟩ := ofThroughput_shows below
  obtain ⟨w, number', le⟩ := later _ _ above (by norm_num)
  rw [label] at number
  rw [label'] at number'
  exact ⟨below, above, label, label', u, w, number, number', le, near⟩

end Label

end ContentionChart
