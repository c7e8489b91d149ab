import ContentionChart.Decimal.Shortest
import ContentionChart.Proofs.Doubles

/-!
# The shortest decimal of a double

The decimal that a double is written as rounds to that double.

## Main statements

* `decimalExponent_spec` — the exponent of the first digit.
* `onGrid?_spec` — what is found on a grid of decimals.
* `toRat_exact` — all digits of a double together are its value.
* `shortest_spec` — the shortest decimal.
-/

namespace ContentionChart.Decimal

open Binary64 (exponent_spec magnitude magnitude_pos magnitudeBits natAbs_num_ne_zero)

/-! ## Exponents -/

theorem digits_between {n : ℕ} (positive : n ≠ 0) :
    (10 : ℚ) ^ ((digits n).length - 1 : ℤ) ≤ n ∧
      (n : ℚ) < 10 ^ ((digits n).length - 1 + 1 : ℤ) := by
  have some : 0 < (digits n).length := Nat.length_toDigits_pos
  have high : n < 10 ^ (digits n).length :=
    (Nat.length_toDigits_le_iff (by decide) some).1 le_rfl
  have low : 10 ^ ((digits n).length - 1) ≤ n := by
    rcases Nat.eq_zero_or_pos ((digits n).length - 1) with one | more
    · rw [one, pow_zero]
      omega
    · rw [← not_lt, ← Nat.length_toDigits_le_iff (by decide) more]
      exact Nat.not_le.2 (Nat.sub_lt some one_pos)
  rw [sub_add_cancel, zpow_natCast, ← Nat.cast_pred some, zpow_natCast]
  exact ⟨by exact_mod_cast low, by exact_mod_cast high⟩

theorem decimalExponent_spec {q : ℚ} (positive : 0 < q) :
    (10 : ℚ) ^ decimalExponent q ≤ q ∧ q < 10 ^ (decimalExponent q + 1) := by
  have exponents := exponent_spec (by norm_num) positive
    (digits_between (natAbs_num_ne_zero positive)) (digits_between q.den_nz)
  rw [sub_sub_sub_cancel_right] at exponents
  exact exponents

/-- The first digit of a decimal stands for the power of ten next below its value. -/
theorem leadingExponent_spec {d : Decimal} (nonzero : d.coefficient ≠ 0) :
    (10 : ℚ) ^ d.leadingExponent ≤ d.toRat ∧ d.toRat < 10 ^ (d.leadingExponent + 1) := by
  obtain ⟨low, high⟩ := digits_between nonzero
  have power : 0 < (10 : ℚ) ^ d.exponent := zpow_pos (by norm_num) _
  have split (k : ℤ) : (10 : ℚ) ^ (d.exponent + k) = 10 ^ k * 10 ^ d.exponent := by
    rw [zpow_add₀ (by norm_num), mul_comm]
  have lead : d.leadingExponent = d.exponent + ((digits d.coefficient).length - 1) := by
    unfold leadingExponent
    omega
  rw [lead, add_assoc, split, split]
  exact ⟨mul_le_mul_of_nonneg_right low power.le, mul_lt_mul_of_pos_right high power⟩

theorem toRat_pos {d : Decimal} (nonzero : d.coefficient ≠ 0) : 0 < d.toRat := by
  unfold toRat
  positivity

/-! ## Decimals near a value -/

/-- A decimal stands for the double of a value, and is not far from it. -/
structure StandsFor (q : ℚ) (d : Decimal) : Prop where
  nonzero : d.coefficient ≠ 0
  same : SameDouble d.toRat q
  half_le : q ≤ 2 * d.toRat
  le_double : d.toRat ≤ 2 * q

theorem floor_spec {q : ℚ} (one_le : 1 ≤ q) :
    ∃ below : ℕ, q.floor = below ∧ 1 ≤ below ∧ (below : ℚ) ≤ q ∧ q < (below + 1 : ℕ) := by
  have one : 1 ≤ q.floor := Rat.le_floor_iff.2 (by exact_mod_cast one_le)
  obtain ⟨below, count⟩ := Int.eq_ofNat_of_zero_le (zero_le_one.trans one)
  have low := Rat.floor_le q
  have high := Rat.lt_floor_add_one q
  rw [count] at one low high
  exact ⟨below, count, by exact_mod_cast one, by exact_mod_cast low, by exact_mod_cast high⟩

/-- What is found on a grid whose spacing is not larger than the value. -/
theorem onGrid?_spec {q : ℚ} {exponent : ℤ} (fine : (10 : ℚ) ^ exponent ≤ q) {d : Decimal}
    (found : onGrid? q exponent = some d) : StandsFor q d := by
  have power : 0 < (10 : ℚ) ^ exponent := zpow_pos (by norm_num) _
  obtain ⟨below, count, one, low, high⟩ := floor_spec ((one_le_div power).2 fine)
  rw [le_div_iff₀ power] at low
  rw [div_lt_iff₀ power] at high
  have near : q ≤ 2 * (below * (10 : ℚ) ^ exponent) := by
    have steps : (1 : ℚ) ≤ below := by exact_mod_cast one
    have step := mul_le_mul_of_nonneg_right steps power.le
    push_cast at high
    linarith
  have lower (same : SameDouble (toRat ⟨below, exponent⟩) q) : StandsFor q ⟨below, exponent⟩ :=
    ⟨Nat.ne_of_gt one, same, near, by simp only [toRat]; linarith⟩
  simp only [onGrid?, count, Int.toNat_natCast] at found
  split at found
  case isTrue upper =>
    split at found
    case isTrue both =>
      obtain rfl := Option.some.inj found
      exact lower both.1
    case isFalse =>
      obtain rfl := Option.some.inj found
      refine ⟨Nat.succ_ne_zero below, upper, ?_, ?_⟩ <;> simp only [toRat] <;> push_cast at * <;>
        linarith
  case isFalse =>
    split at found
    case isTrue same =>
      obtain rfl := Option.some.inj found
      exact lower same
    case isFalse => cases found

/-- The denominators of doubles are powers of two. -/
theorem exists_den_magnitude (mantissa : ℕ) (exponent : ℤ) :
    ∃ places, (magnitude mantissa exponent).den = 2 ^ places := by
  have power : ∃ places, ((2 : ℚ) ^ exponent).den ∣ 2 ^ places := by
    obtain ⟨k, rfl | rfl⟩ := exponent.eq_nat_or_neg
    · exact ⟨0, by rw [zpow_natCast]; norm_num⟩
    · exact ⟨k, by rw [zpow_neg, zpow_natCast]; norm_num⟩
  obtain ⟨places, dvd⟩ := power
  have den : (magnitude mantissa exponent).den ∣ 2 ^ places := by
    refine (Rat.mul_den_dvd _ _).trans ?_
    rwa [Rat.den_natCast, one_mul]
  obtain ⟨fewer, -, same⟩ := (Nat.dvd_prime_pow Nat.prime_two).1 den
  exact ⟨fewer, same⟩

/-- All digits of a double are its value. -/
theorem toRat_exact {q : ℚ} {places : ℕ} (nonneg : 0 ≤ q) (den : q.den = 2 ^ places) :
    (exact q).toRat = q := by
  have whole : q * (10 : ℚ) ^ places = (q.num * 5 ^ places : ℤ) := by
    have ten : (10 : ℚ) ^ places = 2 ^ places * 5 ^ places := by rw [← mul_pow]; norm_num
    have num := Rat.mul_den_eq_num q
    rw [den] at num
    push_cast at num ⊢
    rw [ten, ← mul_assoc, num]
  have num_nonneg : 0 ≤ q.num * 5 ^ places := mul_nonneg (Rat.num_nonneg.2 nonneg) (by positivity)
  have power : (10 : ℚ) ^ places ≠ 0 := by positivity
  simp only [exact, toRat, den, Nat.log2_two_pow, whole, Rat.floor_intCast]
  rw [← Int.cast_natCast, Int.toNat_of_nonneg num_nonneg, ← whole, zpow_neg, zpow_natCast,
    mul_inv_cancel_right₀ power]

/-- Zeros at the end make no difference to the value. -/
theorem toRat_dropZeros (fuel : ℕ) (d : Decimal) : (dropZeros fuel d).toRat = d.toRat := by
  induction fuel generalizing d with
  | zero => rfl
  | succ fuel ih =>
    rw [dropZeros]
    split
    case isTrue ends =>
      obtain ⟨tenth, coefficient⟩ := Nat.dvd_of_mod_eq_zero ends.2
      have ten : (10 : ℚ) ≠ 0 := by norm_num
      rw [ih, toRat, toRat, coefficient, Nat.mul_div_cancel_left _ (by decide), zpow_add_one₀ ten]
      push_cast
      ring
    case isFalse => rfl

theorem coefficient_ne_zero_iff {d : Decimal} : d.coefficient ≠ 0 ↔ d.toRat ≠ 0 := by
  have power : (10 : ℚ) ^ d.exponent ≠ 0 := (zpow_pos (by norm_num) _).ne'
  simp [toRat, power]

theorem StandsFor.congr {q : ℚ} {d e : Decimal} (h : StandsFor q d) (same : e.toRat = d.toRat) :
    StandsFor q e := by
  obtain ⟨nonzero, double, half_le, le_double⟩ := h
  rw [coefficient_ne_zero_iff] at nonzero
  rw [← same] at nonzero double half_le le_double
  exact ⟨coefficient_ne_zero_iff.2 nonzero, double, half_le, le_double⟩

/-- The shortest decimal of a double stands for it. -/
theorem shortest_spec {mantissa : ℕ} (exponent : ℤ) (nonzero : mantissa ≠ 0) :
    StandsFor (magnitude mantissa exponent) (shortest (magnitude mantissa exponent)) := by
  have positive := magnitude_pos exponent nonzero
  obtain ⟨places, den⟩ := exists_den_magnitude mantissa exponent
  generalize magnitude mantissa exponent = q at *
  have all : StandsFor q (exact q) := by
    have value := toRat_exact positive.le den
    refine ⟨coefficient_ne_zero_iff.2 ?_, congrArg magnitudeBits value, by linarith, by linarith⟩
    rw [value]
    exact positive.ne'
  simp only [shortest]
  refine StandsFor.congr ?_ (toRat_dropZeros _ _)
  cases found : (List.range 17).findSome? fun (extra : ℕ) =>
      onGrid? q (decimalExponent q - extra) with
  | none => exact all
  | some d =>
    obtain ⟨extra, -, here⟩ := List.exists_of_findSome?_eq_some found
    refine onGrid?_spec ?_ here
    calc (10 : ℚ) ^ (decimalExponent q - extra) ≤ 10 ^ decimalExponent q :=
          zpow_le_zpow_right₀ (by norm_num) (by omega)
      _ ≤ q := (decimalExponent_spec positive).1

end ContentionChart.Decimal
