import ContentionChart.Proofs.DoubleOrder

/-!
# Rounding results

Results of operations on doubles are rounded in integers: what is below the last bit of a mantissa
is kept in two bits, one for the half and one for anything else. These are enough to find the
nearest double, so that a result is rounded as its exact number is.

## Main definitions

* `Cut` — what is kept of a number whose rest is cut off.
* `ofUnpacked` — the double for a result.

## Main statements

* `Cut.quotient`, `Cut.shiftRight` — what is kept of quotients, and when more bits are cut off.
* `Cut.roundedMantissa` — what is kept is rounded to the nearest integer.
* `ofUnpacked_roundWithAccuracy` — a result that was cut off is rounded to the nearest double.
* `ofUnpacked_normalize` — the same for an integer multiple of a power of two.
-/

namespace ContentionChart.Binary64

open Float.Model (Format UnpackedFloat totalExponent)
open Float.Model.UnpackedFloat

variable {q : ℚ} {m n d : ℕ} {e : ℤ} {em : ExtendedMantissa} {accuracy : Accuracy}
  {negative : Bool}

/-- What is kept of a number that is cut off: the integer below it, whether the rest is one half or
more, and whether it is anything but zero or one half. -/
inductive Cut : ExtendedMantissa → ℚ → Prop
  | whole (m : ℕ) : Cut ⟨m, false, false⟩ m
  | low {m : ℕ} {q : ℚ} : m < q → q < m + 1 / 2 → Cut ⟨m, false, true⟩ q
  | half (m : ℕ) : Cut ⟨m, true, false⟩ (m + 1 / 2)
  | high {m : ℕ} {q : ℚ} : m + 1 / 2 < q → q < m + 1 → Cut ⟨m, true, true⟩ q

namespace Cut

/-- The integer below a number that is cut off. -/
theorem between (cut : Cut em q) : em.mantissa ≤ q ∧ q < em.mantissa + 1 := by
  cases cut <;> constructor <;> linarith

theorem floor (cut : Cut em q) : q.floor = em.mantissa := by
  obtain ⟨below, above⟩ := cut.between
  have floor : ⌊q⌋ = (em.mantissa : ℤ) :=
    Int.floor_eq_iff.2 ⟨by exact_mod_cast below, by exact_mod_cast above⟩
  exact floor

/-- The quotient of two natural numbers, from its integer part and its remainder. -/
theorem quotient (n : ℕ) (positive : 0 < d) :
    Cut (.ofMantissaAndAccuracy (n / d) (accuracyOfFraction (n % d) d)) (n / d) := by
  have d_pos : (0 : ℚ) < d := Nat.cast_pos.2 positive
  have parts : (n : ℚ) / d = (n / d : ℕ) + ((n % d : ℕ) : ℚ) / d := by
    rw [div_eq_iff d_pos.ne', add_mul, div_mul_cancel₀ _ d_pos.ne']
    exact_mod_cast (Nat.div_add_mod' n d).symm
  have rest : ((n % d : ℕ) : ℚ) / d < 1 :=
    (div_lt_one d_pos).2 (Nat.cast_lt.2 (Nat.mod_lt n positive))
  rw [parts]
  generalize n / d = k at *
  generalize n % d = r at *
  rcases Nat.eq_zero_or_pos r with rfl | some
  · simpa [accuracyOfFraction, ExtendedMantissa.ofMantissaAndAccuracy] using whole k
  have rest_pos : (0 : ℚ) < r / d := by positivity
  rw [accuracyOfFraction, if_neg some.ne']
  rcases lt_trichotomy (2 * r) d with less | same | more
  · have below : (r : ℚ) / d < 1 / 2 := by
      rw [div_lt_iff₀ d_pos]
      have := (Nat.cast_lt (α := ℚ)).2 less
      push_cast at this
      linarith
    rw [compare_lt_iff_lt.2 less]
    exact low (by linarith) (by linarith)
  · have middle : (r : ℚ) / d = 1 / 2 := by
      rw [div_eq_iff d_pos.ne', ← same]
      push_cast
      ring
    rw [compare_eq_iff_eq.2 same, middle]
    exact half k
  · have above : 1 / 2 < (r : ℚ) / d := by
      rw [lt_div_iff₀ d_pos]
      have := (Nat.cast_lt (α := ℚ)).2 more
      push_cast at this
      linarith
    rw [compare_gt_iff_gt.2 more]
    exact high (by linarith) (by linarith)

/-- Rounding what is kept rounds the number. -/
theorem roundedMantissa (cut : Cut em q) : (em.roundedMantissa : ℤ) = roundHalfEven q := by
  have floor := cut.floor
  simp only [roundHalfEven, floor, Int.cast_natCast]
  cases cut with
  | whole m =>
    simp [ExtendedMantissa.roundedMantissa, ExtendedMantissa.accuracy, Accuracy.roundToNearestEven]
  | low above below =>
    rw [if_pos (by linarith)]
    rfl
  | half m =>
    have rest : (m : ℚ) + 1 / 2 - m = 1 / 2 := by ring
    simp only [rest, lt_irrefl, if_false]
    change ((m + m % 2 : ℕ) : ℤ) = _
    split <;> omega
  | high above below =>
    rw [if_neg (by linarith), if_pos (by linarith)]
    rfl

theorem shiftRightOne_even (k : ℕ) (roundBit stickyBit : Bool) :
    ExtendedMantissa.shiftRightOne ⟨2 * k, roundBit, stickyBit⟩ =
      ⟨k, false, roundBit || stickyBit⟩ := by
  simp [ExtendedMantissa.shiftRightOne]

theorem shiftRightOne_odd (k : ℕ) (roundBit stickyBit : Bool) :
    ExtendedMantissa.shiftRightOne ⟨2 * k + 1, roundBit, stickyBit⟩ =
      ⟨k, true, roundBit || stickyBit⟩ := by
  simp [ExtendedMantissa.shiftRightOne]
  omega

/-- If anything but whole numbers was cut off before, something is left after the next bit. -/
theorem shiftRightOne_of_rest {roundBit stickyBit : Bool} (rest : (roundBit || stickyBit) = true)
    (above : m < q) (below : q < m + 1) :
    Cut (ExtendedMantissa.shiftRightOne ⟨m, roundBit, stickyBit⟩) (q / 2) := by
  obtain ⟨k, rfl | rfl⟩ := m.even_or_odd'
  · rw [shiftRightOne_even, rest]
    push_cast at above below
    exact low (by linarith) (by linarith)
  · rw [shiftRightOne_odd, rest]
    push_cast at above below
    exact high (by linarith) (by linarith)

/-- One more bit is cut off. -/
theorem shiftRightOne (cut : Cut em q) : Cut em.shiftRightOne (q / 2) := by
  cases cut with
  | whole m =>
    obtain ⟨k, rfl | rfl⟩ := m.even_or_odd'
    · have quotient : ((2 * k : ℕ) : ℚ) / 2 = k := by push_cast; ring
      rw [shiftRightOne_even, quotient]
      exact whole k
    · have quotient : ((2 * k + 1 : ℕ) : ℚ) / 2 = k + 1 / 2 := by push_cast; ring
      rw [shiftRightOne_odd, quotient]
      exact half k
  | low above below => exact shiftRightOne_of_rest rfl above (by linarith)
  | half m => exact shiftRightOne_of_rest rfl (by linarith) (by linarith)
  | high above below => exact shiftRightOne_of_rest rfl (by linarith) below

theorem shiftRight (cut : Cut em q) (count : ℕ) : Cut (em >>> count) (q / 2 ^ count) := by
  change Cut (count.repeat ExtendedMantissa.shiftRightOne em) _
  induction count with
  | zero => simpa [Nat.repeat] using cut
  | succ count ih =>
    rw [Nat.repeat, pow_succ, ← div_div]
    exact ih.shiftRightOne

end Cut

/-! ## The exponent of a result -/

theorem binaryExponent_eq {k : ℤ} (low : 2 ^ k ≤ q) (high : q < 2 ^ (k + 1)) :
    binaryExponent q = k := by
  obtain ⟨low', high'⟩ := binaryExponent_spec ((zpow_pos two_pos k).trans_le low)
  have less := low.trans_lt high'
  have less' := low'.trans_lt high
  rw [zpow_lt_zpow_iff_right₀ one_lt_two] at less less'
  omega

@[simp] theorem mantissa_ofMantissaAndAccuracy (m : ℕ) (accuracy : Accuracy) :
    (ExtendedMantissa.ofMantissaAndAccuracy m accuracy).mantissa = m := by
  unfold ExtendedMantissa.ofMantissaAndAccuracy
  split <;> rfl

theorem targetExponent_eq (m : ℕ) (e : ℤ) :
    Format.binary64.targetExponent (totalExponent m e) = max (m.log2 + e - 52) (-1074) := by
  have least : Format.binary64.minExponent = -1074 := rfl
  have width : (Format.binary64.mantissaBits : ℤ) = 53 := rfl
  rw [Format.targetExponent, least, width, totalExponent]
  omega

/-- The exponent that is aimed at is that of the distance between doubles near the number. -/
theorem targetExponent_of_cut (positive : 0 < q)
    (cut : Cut (.ofMantissaAndAccuracy m accuracy) (q / 2 ^ e)) (fine : e ≤ spacingExponent q) :
    Format.binary64.targetExponent (totalExponent m e) = spacingExponent q := by
  have step : (0 : ℚ) < 2 ^ e := zpow_pos two_pos e
  obtain ⟨below, above⟩ := cut.between
  rw [mantissa_ofMantissaAndAccuracy, le_div_iff₀ step] at below
  rw [mantissa_ofMantissaAndAccuracy, div_lt_iff₀ step] at above
  rw [targetExponent_eq]
  unfold spacingExponent at *
  rcases Nat.eq_zero_or_pos m with rfl | some
  · -- A number below the step has fewer bits than a double at the least exponent.
    have less : (2 : ℚ) ^ binaryExponent q < 2 ^ e := by
      refine (binaryExponent_spec positive).1.trans_lt ?_
      simpa using above
    rw [zpow_lt_zpow_iff_right₀ one_lt_two] at less
    simp only [Nat.log2_zero]
    omega
  · have exponent : binaryExponent q = m.log2 + e := by
      obtain ⟨low, high⟩ := log2_between some.ne'
      have next : (m : ℚ) + 1 ≤ 2 ^ ((m.log2 : ℤ) + 1) := by
        rw [← Nat.cast_succ, ← Nat.cast_succ, zpow_natCast] at *
        exact_mod_cast Nat.lt_log2_self
      apply binaryExponent_eq
      · rw [zpow_add₀ two_ne_zero]
        exact (mul_le_mul_of_nonneg_right low step.le).trans below
      · rw [add_right_comm, zpow_add₀ two_ne_zero]
        exact above.trans_le (mul_le_mul_of_nonneg_right next step.le)
    rw [exponent]

theorem shiftToTargetExponent_eq {target : ℤ}
    (aim : Format.binary64.targetExponent (totalExponent m e) = target) (fine : e ≤ target) :
    shiftToTargetExponent .binary64 m e accuracy =
      (ExtendedMantissa.ofMantissaAndAccuracy m accuracy >>> (target - e).toNat, target) := by
  have shifted : e + (target - e).toNat = target := by omega
  simp only [shiftToTargetExponent, shiftToExponent, aim, shifted]

/-- A significand of 53 bits stays as it is, and the next power of two is cut by one bit. -/
theorem carried {significand : ℕ} {target : ℤ} (short : significand ≤ 2 * fractionCount)
    (full : target = -1074 ∨ fractionCount ≤ significand) (least : -1074 ≤ target) :
    ∃ mantissa exponent, mantissa < 2 * fractionCount ∧ -1074 ≤ exponent ∧
      (exponent = -1074 ∨ fractionCount ≤ mantissa) ∧
      packed mantissa exponent = packed significand target ∧
      (shiftToTargetExponent .binary64 significand target .exact).1.mantissa = mantissa ∧
      (shiftToTargetExponent .binary64 significand target .exact).2 = exponent := by
  rcases short.eq_or_lt with rfl | shorter
  · have aim : Format.binary64.targetExponent (totalExponent (2 * fractionCount) target) =
        target + 1 := by
      have bits : (2 * fractionCount).log2 = 53 := rfl
      rw [targetExponent_eq, bits]
      omega
    have one : (target + 1 - target).toNat = 1 := by omega
    rw [shiftToTargetExponent_eq aim (by omega), one]
    refine ⟨fractionCount, target + 1, by decide, by omega, .inr le_rfl, ?_, rfl, rfl⟩
    simp only [packed, fractionCount]
    omega
  · have aim : Format.binary64.targetExponent (totalExponent significand target) ≤ target := by
      have bits : significand.log2 ≤ 52 := by
        rcases Nat.eq_zero_or_pos significand with rfl | some
        · decide
        · have lt : significand.log2 < 53 := (Nat.log2_lt some.ne').2 shorter
          omega
      rw [targetExponent_eq]
      omega
    have none : (Format.binary64.targetExponent (totalExponent significand target) - target).toNat
        = 0 := by omega
    refine ⟨significand, target, shorter, least, full, rfl, ?_, ?_⟩
    · simp only [shiftToTargetExponent, shiftToExponent, none]
      rfl
    · simp [shiftToTargetExponent, shiftToExponent, none]

/-! ## The double that comes out -/

theorem toNat_packedInfinity (negative : Bool) :
    (packedInfinity .binary64 (signOf negative)).toNat =
      (if negative then signBit else 0) + infinityBits := by
  cases negative <;> decide

/-- The bits of a finite number whose exponent may be too large for a double. -/
theorem toNat_pack_of_shape {mantissa : ℕ} {exponent : ℤ} (negative : Bool)
    (short : mantissa < 2 * fractionCount) (least : -1074 ≤ exponent)
    (full : exponent = -1074 ∨ fractionCount ≤ mantissa) :
    ((Reading.finite negative mantissa exponent).unpacked.pack .binary64).toNat =
      (if negative then signBit else 0) + min (packed mantissa exponent) infinityBits := by
  rcases le_or_gt exponent 971 with greatest | past
  · have canonical : Canonical mantissa exponent := ⟨short, least, greatest, full⟩
    rw [toNat_pack negative canonical, min_eq_left (packed_lt canonical).le]
  · replace full := full.resolve_left (by omega)
    have some : 0 < mantissa := lt_of_lt_of_le (by decide) full
    have large : infinityBits ≤ packed mantissa exponent := by
      simp only [packed, fractionCount, infinityBits] at *
      omega
    have bias : (Format.binary64.exponentBias : ℤ) = 1023 := rfl
    rw [unpacked_finite negative some, min_eq_right large, ← toNat_packedInfinity]
    simp only [UnpackedFloat.pack, bias]
    rw [if_pos (by norm_num; omega)]

/-- The double for a result of an operation. -/
def ofUnpacked (u : UnpackedFloat) : Float := .ofModel (.pack u)

theorem toNat_toBits_ofUnpacked (u : UnpackedFloat) :
    (ofUnpacked u).toBits.toNat = (u.pack .binary64).toNat := rfl

/-- Rounding what was cut off from a positive number rounds the number. -/
theorem ofUnpacked_roundWithAccuracy (negative : Bool) (positive : 0 < q)
    (cut : Cut (.ofMantissaAndAccuracy m accuracy) (q / 2 ^ e)) (fine : e ≤ spacingExponent q) :
    ofUnpacked (roundWithAccuracy .binary64 (signOf negative) m e accuracy) =
      ofMagnitudeBits negative (magnitudeBits q) := by
  have aim := targetExponent_of_cut positive cut fine
  obtain ⟨significand, count, short, full⟩ := significand_spec positive
  have rounded : (ExtendedMantissa.ofMantissaAndAccuracy m accuracy >>>
      (spacingExponent q - e).toNat).roundedMantissa = significand := by
    have whole : e + (spacingExponent q - e).toNat = spacingExponent q := by omega
    have shifted := cut.shiftRight (spacingExponent q - e).toNat
    rw [div_div, ← zpow_natCast, ← zpow_add₀ two_ne_zero, whole] at shifted
    exact_mod_cast shifted.roundedMantissa.trans count
  obtain ⟨mantissa, exponent, lt, least, normal, same, final, final'⟩ :=
    carried short full (le_max_right _ _)
  have result : roundWithAccuracy .binary64 (signOf negative) m e accuracy =
      (Reading.finite negative mantissa exponent).unpacked := by
    simp only [roundWithAccuracy, shiftToTargetExponent_eq aim fine, rounded, final, final']
    split
    case isTrue zero =>
      rw [zero]
      rfl
    case isFalse some => rw [unpacked_finite _ (Nat.pos_of_ne_zero some)]
  apply eq_ofMagnitudeBits
  rw [toNat_toBits_ofUnpacked, result, toNat_pack_of_shape negative lt least normal, same,
    magnitudeBits_eq count, packed]

/-! ## Rounding a multiple of a power of two -/

theorem binaryExponent_magnitude (nonzero : m ≠ 0) (e : ℤ) :
    binaryExponent (magnitude m e) = m.log2 + e := by
  have step : (0 : ℚ) < 2 ^ e := zpow_pos two_pos e
  obtain ⟨low, high⟩ := log2_between nonzero
  apply binaryExponent_eq
  · rw [magnitude, zpow_add₀ two_ne_zero]
    exact mul_le_mul_of_nonneg_right low step.le
  · rw [magnitude, add_right_comm, zpow_add₀ two_ne_zero]
    exact mul_lt_mul_of_pos_right high step

theorem magnitude_decreaseExponent (m : ℕ) (e target : ℤ) :
    magnitude (decreaseExponent m e target).1 (decreaseExponent m e target).2 = magnitude m e := by
  simp only [decreaseExponent, magnitude, Nat.shiftLeft_eq, zpow_sub₀ (two_ne_zero' ℚ),
    zpow_natCast]
  push_cast
  field_simp

theorem decreaseExponent_snd (m : ℕ) (e target : ℤ) :
    (decreaseExponent m e target).2 = min e target := by
  simp only [decreaseExponent]
  omega

theorem Cut.exact (m : ℕ) (e : ℤ) :
    Cut (.ofMantissaAndAccuracy m .exact) (magnitude m e / 2 ^ e) := by
  rw [magnitude, mul_div_cancel_right₀ _ (zpow_pos two_pos e).ne']
  exact .whole m

theorem ofUnpacked_round (negative : Bool) (nonzero : m ≠ 0) (e : ℤ) :
    ofUnpacked (UnpackedFloat.round .binary64 (signOf negative) m e) =
      ofMagnitudeBits negative (magnitudeBits (magnitude m e)) := by
  have aim : Format.binary64.targetExponent (totalExponent m e) =
      spacingExponent (magnitude m e) := by
    rw [targetExponent_eq, spacingExponent, binaryExponent_magnitude nonzero]
  simp only [UnpackedFloat.round, aim]
  have cut := Cut.exact (decreaseExponent m e (spacingExponent (magnitude m e))).1
    (decreaseExponent m e (spacingExponent (magnitude m e))).2
  rw [magnitude_decreaseExponent] at cut
  refine ofUnpacked_roundWithAccuracy negative (magnitude_pos e nonzero) cut ?_
  rw [decreaseExponent_snd]
  exact min_le_right _ _

/-- Rounding an integer multiple of a power of two. -/
theorem ofUnpacked_normalize {n : ℤ} (nonzero : n ≠ 0) (e : ℤ) (zeroSign : Sign) :
    ofUnpacked (UnpackedFloat.normalize .binary64 n e zeroSign) = ofRat (n * 2 ^ e) := by
  have size : (n.natAbs : ℚ) * 2 ^ e = magnitude n.natAbs e := rfl
  have positive : 0 < magnitude n.natAbs e := magnitude_pos e (Int.natAbs_ne_zero.2 nonzero)
  have signed (negative : Bool) :
      ofUnpacked (UnpackedFloat.round .binary64 (signOf negative) n.natAbs e) =
        ofRat (if negative then -magnitude n.natAbs e else magnitude n.natAbs e) := by
    rw [ofUnpacked_round negative (Int.natAbs_ne_zero.2 nonzero), ofRat_signed negative positive]
  rcases lt_or_gt_of_ne nonzero with below | above
  · have abs : (-n).toNat = n.natAbs := by omega
    have value : (n : ℚ) * 2 ^ e = -magnitude n.natAbs e := by
      rw [← size, Nat.cast_natAbs, abs_of_neg below]
      push_cast
      ring
    rw [UnpackedFloat.normalize, compare_lt_iff_lt.2 below, value]
    simp only [abs]
    exact signed true
  · have abs : n.toNat = n.natAbs := by omega
    have value : (n : ℚ) * 2 ^ e = magnitude n.natAbs e := by
      rw [← size, Nat.cast_natAbs, abs_of_pos above]
    rw [UnpackedFloat.normalize, compare_gt_iff_gt.2 above, value]
    simp only [abs]
    exact signed false

end ContentionChart.Binary64
