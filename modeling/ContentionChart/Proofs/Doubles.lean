import ContentionChart.Binary64.Basic
import Mathlib

/-!
# Doubles and their values

A finite double and what it stands for determine each other, and rounding the value of a double
gives the double back.

## Main definitions

* `Canonical` — the mantissas and exponents of finite doubles.
* `packed` — the magnitude bits for a mantissa and an exponent.
* `spacingExponent` — the distance between doubles near a value.

## Main statements

* `read_eq_finite_iff` — what stands for which finite double.
* `magnitudeBits_magnitude`, `ofRat_value` — rounding what needs no rounding.
* `toRat?_ofInt` — whole numbers of up to 53 bits are doubles.
* `ofRat_spec` — the double nearest to a rational.
-/

namespace ContentionChart.Binary64

/-- The mantissas and exponents that finite doubles have. A mantissa has 53 bits, fewer only at the
least exponent. -/
structure Canonical (mantissa : ℕ) (exponent : ℤ) : Prop where
  mantissa_lt : mantissa < 2 * fractionCount
  least : -1074 ≤ exponent
  greatest : exponent ≤ 971
  normal : exponent = -1074 ∨ fractionCount ≤ mantissa

/-- The magnitude bits for a mantissa and an exponent. The highest bit of a mantissa of full length
counts as one in the exponent field. -/
def packed (mantissa : ℕ) (exponent : ℤ) : ℕ := (exponent + 1074).toNat * fractionCount + mantissa

variable {x : Float} {negative : Bool} {mantissa : ℕ} {exponent : ℤ}

/-! ## Bits -/

/-- A bit pattern that is not one of those for no number is that of a double. -/
theorem toBits_ofBits {bits : UInt64} (number : bits.toNat / fractionCount % 2048 ≠ 2047) :
    (Float.ofBits bits).toBits = bits := by
  have valid : Float.Model.Format.binary64.Valid bits.toBitVec := by
    refine ⟨fun allOnes => absurd ?_ number⟩
    have field := congrArg BitVec.toNat allOnes
    simpa [Float.Model.UnpackedFloat.unpackExponent, Nat.shiftRight_eq_div_pow, fractionCount]
      using field
  exact congrArg Float.toBits (Float.ofBits_toBits (.ofModel ⟨bits, valid⟩))

theorem packed_lt (canonical : Canonical mantissa exponent) :
    packed mantissa exponent < infinityBits := by
  obtain ⟨lt, least, greatest, -⟩ := canonical
  simp only [packed, fractionCount, infinityBits] at *
  omega

/-- The bits of a double, put together from its sign and its magnitude. -/
theorem toNat_toBits_ofMagnitudeBits {bits : ℕ} (lt : bits < infinityBits) :
    (ofMagnitudeBits negative bits).toBits.toNat = (if negative then signBit else 0) + bits := by
  have signed : (UInt64.ofNat (if negative then signBit + bits else bits)).toNat =
      (if negative then signBit else 0) + bits := by
    rw [UInt64.toNat_ofNat']
    split <;> simp only [signBit, infinityBits] at * <;> omega
  rw [ofMagnitudeBits, toBits_ofBits, signed]
  rw [signed]
  split <;> simp only [signBit, infinityBits, fractionCount] at * <;> omega

theorem eq_ofMagnitudeBits {bits : ℕ}
    (h : x.toBits.toNat = (if negative then signBit else 0) + bits) :
    x = ofMagnitudeBits negative bits := by
  have whole : x.toBits.toNat = if negative then signBit + bits else bits := by
    rw [h]
    split
    · rfl
    · exact Nat.zero_add _
  rw [ofMagnitudeBits, ← whole, UInt64.ofNat_toNat, Float.ofBits_toBits]

theorem read_eq_finite_of_toNat (canonical : Canonical mantissa exponent)
    (h : x.toBits.toNat = (if negative then signBit else 0) + packed mantissa exponent) :
    read x = .finite negative mantissa exponent := by
  obtain ⟨lt, least, greatest, normal⟩ := canonical
  have sign : (x.toBits.toNat / signBit == 1) = negative := by
    cases negative <;> simp [packed, signBit, fractionCount] at * <;> omega
  have bits : x.toBits.toNat % signBit = packed mantissa exponent := by
    cases negative <;> simp [packed, signBit, fractionCount] at * <;> omega
  clear h
  simp only [packed, signBit, fractionCount] at *
  simp only [read, signBit, fractionCount, sign]
  rcases lt_or_ge mantissa 0x10000000000000 with short | full
  · obtain rfl : exponent = -1074 := by omega
    rw [if_neg (by omega), if_pos (by omega)]
    congr 1
    omega
  · rw [if_neg (by omega), if_neg (by omega)]
    congr 1 <;> omega

theorem toNat_of_read_eq_finite (h : read x = .finite negative mantissa exponent) :
    Canonical mantissa exponent ∧
      x.toBits.toNat = (if negative then signBit else 0) + packed mantissa exponent := by
  have bound := x.toBits.toNat_lt
  have sign : (if x.toBits.toNat / signBit == 1 then signBit else 0) =
      x.toBits.toNat / signBit * signBit := by
    split <;> simp only [signBit, beq_iff_eq] at * <;> omega
  simp only [read] at h
  split at h
  · split at h <;> cases h
  split at h
  all_goals
    cases h
    rw [sign]
    simp only [packed, signBit, fractionCount] at *
    refine ⟨⟨?_, ?_, ?_, ?_⟩, ?_⟩
  all_goals
    have width : fractionCount = 0x10000000000000 := rfl
    omega

/-- What stands for a finite double is canonical, and the double is the one with its sign and its
bits. -/
theorem read_eq_finite_iff :
    read x = .finite negative mantissa exponent ↔
      Canonical mantissa exponent ∧ x = ofMagnitudeBits negative (packed mantissa exponent) := by
  constructor
  · intro h
    obtain ⟨canonical, bits⟩ := toNat_of_read_eq_finite h
    exact ⟨canonical, eq_ofMagnitudeBits bits⟩
  · rintro ⟨canonical, rfl⟩
    exact read_eq_finite_of_toNat canonical (toNat_toBits_ofMagnitudeBits (packed_lt canonical))

/-! ## Exponents -/

/-- The exponent of a quotient is that of the difference, or one less. -/
theorem quotient_between {base : ℚ} (positive : 0 < base) {n d : ℚ} {i j : ℤ}
    (hn : base ^ i ≤ n ∧ n < base ^ (i + 1)) (hd : base ^ j ≤ d ∧ d < base ^ (j + 1)) :
    base ^ (i - j - 1) ≤ n / d ∧ n / d < base ^ (i - j + 1) := by
  have low : 0 < base ^ j := zpow_pos positive j
  have d_pos : 0 < d := low.trans_le hd.1
  constructor
  · rw [le_div_iff₀ d_pos]
    calc base ^ (i - j - 1) * d ≤ base ^ (i - j - 1) * base ^ (j + 1) :=
          mul_le_mul_of_nonneg_left hd.2.le (zpow_pos positive _).le
      _ = base ^ i := by rw [← zpow_add₀ positive.ne']; congr 1; omega
      _ ≤ n := hn.1
  · rw [div_lt_iff₀ d_pos]
    calc n < base ^ (i + 1) := hn.2
      _ = base ^ (i - j + 1) * base ^ j := by rw [← zpow_add₀ positive.ne']; congr 1; omega
      _ ≤ base ^ (i - j + 1) * d := mul_le_mul_of_nonneg_left hd.1 (zpow_pos positive _).le

theorem natAbs_num_ne_zero {q : ℚ} (positive : 0 < q) : q.num.natAbs ≠ 0 :=
  Int.natAbs_ne_zero.2 (Rat.num_pos.2 positive).ne'

/-- The exponent of a positive number, from those of its numerator and its denominator. -/
theorem exponent_spec {base : ℚ} (base_pos : 0 < base) {q : ℚ} (positive : 0 < q) {i j : ℤ}
    (hn : base ^ i ≤ q.num.natAbs ∧ (q.num.natAbs : ℚ) < base ^ (i + 1))
    (hd : base ^ j ≤ q.den ∧ (q.den : ℚ) < base ^ (j + 1)) :
    let exponent := if base ^ (i - j) ≤ q then i - j else i - j - 1
    base ^ exponent ≤ q ∧ q < base ^ (exponent + 1) := by
  have quotient : (q.num.natAbs : ℚ) / q.den = q := by
    rw [Nat.cast_natAbs, abs_of_pos (Rat.num_pos.2 positive), Rat.num_div_den]
  have between := quotient_between base_pos hn hd
  rw [quotient] at between
  dsimp only
  split
  case isTrue le => exact ⟨le, between.2⟩
  case isFalse gt =>
    refine ⟨between.1, ?_⟩
    rw [sub_add_cancel]
    exact not_le.1 gt

theorem log2_between {n : ℕ} (positive : n ≠ 0) :
    (2 : ℚ) ^ (n.log2 : ℤ) ≤ n ∧ (n : ℚ) < 2 ^ ((n.log2 : ℤ) + 1) := by
  rw [← Nat.cast_succ, zpow_natCast, zpow_natCast]
  exact ⟨by exact_mod_cast Nat.log2_self_le positive, by exact_mod_cast Nat.lt_log2_self⟩

theorem binaryExponent_spec {q : ℚ} (positive : 0 < q) :
    (2 : ℚ) ^ binaryExponent q ≤ q ∧ q < 2 ^ (binaryExponent q + 1) :=
  exponent_spec two_pos positive (log2_between (natAbs_num_ne_zero positive))
    (log2_between q.den_nz)

/-! ## Rounding -/

theorem roundHalfEven_intCast (n : ℤ) : roundHalfEven n = n := by
  have rest : (n : ℚ) - ((n : ℚ).floor : ℤ) = 0 := by
    rw [Rat.floor_intCast, sub_self]
  simp only [roundHalfEven, rest]
  rw [if_pos (by norm_num), Rat.floor_intCast]

/-- The nearest integer is at most one half away. -/
theorem abs_roundHalfEven_sub_le (q : ℚ) : |(roundHalfEven q : ℚ) - q| ≤ 1 / 2 := by
  have low := Rat.floor_le q
  have high := Rat.lt_floor_add_one q
  push_cast at high
  rw [abs_le]
  simp only [roundHalfEven]
  split_ifs <;> push_cast <;> constructor <;> linarith

/-- The nearest multiple of a step is at most one half of the step away. -/
theorem abs_roundHalfEven_mul_sub_le {step : ℚ} (positive : 0 < step) (q : ℚ) :
    |roundHalfEven (q / step) * step - q| ≤ step / 2 := by
  calc |roundHalfEven (q / step) * step - q|
      = |roundHalfEven (q / step) - q / step| * step := by
        rw [← abs_of_pos positive, ← abs_mul, abs_of_pos positive, sub_mul,
          div_mul_cancel₀ _ positive.ne']
    _ ≤ 1 / 2 * step := mul_le_mul_of_nonneg_right (abs_roundHalfEven_sub_le _) positive.le
    _ = step / 2 := by ring

theorem le_roundHalfEven {n : ℤ} {q : ℚ} (le : n ≤ q) : n ≤ roundHalfEven q := by
  have near := (abs_le.1 (abs_roundHalfEven_sub_le q)).1
  have above : ((n - 1 : ℤ) : ℚ) < roundHalfEven q := by push_cast; linarith
  exact Int.sub_one_lt_iff.1 (Int.cast_lt.1 above)

theorem roundHalfEven_le {n : ℤ} {q : ℚ} (le : q ≤ n) : roundHalfEven q ≤ n := by
  have near := (abs_le.1 (abs_roundHalfEven_sub_le q)).2
  have below : (roundHalfEven q : ℚ) < (n + 1 : ℤ) := by push_cast; linarith
  exact Int.lt_add_one_iff.1 (Int.cast_lt.1 below)

theorem roundHalfEven_mono : Monotone roundHalfEven := by
  intro p q le
  rcases (Rat.floor_monotone le).lt_or_eq with less | same
  · -- The integer above the smaller number is not above the other.
    have above := Rat.lt_floor_add_one p
    exact (roundHalfEven_le above.le).trans (le_roundHalfEven ((Int.cast_le.2 less).trans
      (Rat.floor_le q)))
  · simp only [roundHalfEven, ← same]
    split_ifs <;> first | omega | linarith

theorem magnitude_nonneg (mantissa : ℕ) (exponent : ℤ) : 0 ≤ magnitude mantissa exponent := by
  unfold magnitude
  positivity

theorem magnitude_pos (exponent : ℤ) (nonzero : mantissa ≠ 0) :
    0 < magnitude mantissa exponent := by
  unfold magnitude
  positivity

theorem magnitude_lt (canonical : Canonical mantissa exponent) :
    magnitude mantissa exponent < 2 ^ (exponent + 53) := by
  have bound : (mantissa : ℚ) < 2 ^ (53 : ℤ) := by
    have := canonical.mantissa_lt
    rw [fractionCount] at this
    exact_mod_cast this
  rw [magnitude, zpow_add₀ two_ne_zero, mul_comm]
  exact mul_lt_mul_of_pos_left bound (zpow_pos two_pos _)

theorem le_magnitude (full : fractionCount ≤ mantissa) :
    2 ^ (exponent + 52) ≤ magnitude mantissa exponent := by
  have bound : (2 : ℚ) ^ (52 : ℤ) ≤ mantissa := by
    rw [fractionCount] at full
    exact_mod_cast full
  rw [magnitude, zpow_add₀ two_ne_zero, mul_comm]
  exact mul_le_mul_of_nonneg_right bound (zpow_pos two_pos _).le

/-- The bits that are nearest to the magnitude of a double are its own. -/
theorem magnitudeBits_magnitude (canonical : Canonical mantissa exponent) (nonzero : mantissa ≠ 0) :
    magnitudeBits (magnitude mantissa exponent) = packed mantissa exponent := by
  obtain ⟨low, high⟩ := binaryExponent_spec (magnitude_pos exponent nonzero)
  have top := low.trans_lt (magnitude_lt canonical)
  rw [zpow_lt_zpow_iff_right₀ one_lt_two] at top
  have same : max (binaryExponent (magnitude mantissa exponent) - 52) (-1074) = exponent := by
    rcases canonical.normal with rfl | full
    · omega
    · have bottom := (le_magnitude full).trans_lt high
      rw [zpow_lt_zpow_iff_right₀ one_lt_two] at bottom
      have least := canonical.least
      omega
  have significand : magnitude mantissa exponent / (2 : ℚ) ^ exponent = (mantissa : ℤ) := by
    rw [magnitude, mul_div_cancel_right₀ _ (zpow_pos two_pos _).ne', Int.cast_natCast]
  simp only [magnitudeBits, same, significand, roundHalfEven_intCast, Int.toNat_natCast]
  exact min_eq_left (packed_lt canonical).le

/-- Rounding is the same on both sides of zero. -/
theorem ofRat_signed (negative : Bool) {q : ℚ} (positive : 0 < q) :
    ofRat (if negative then -q else q) = ofMagnitudeBits negative (magnitudeBits q) := by
  cases negative with
  | false =>
    simp only [ofRat, Bool.false_eq_true, if_false]
    rw [if_neg positive.ne', if_neg positive.not_gt]
  | true =>
    simp only [ofRat, if_true, neg_neg]
    rw [if_neg (neg_ne_zero.2 positive.ne'), if_pos (neg_lt_zero.2 positive)]

/-- The double nearest to the value of a double other than zero is that double. -/
theorem ofRat_value (negative : Bool) (canonical : Canonical mantissa exponent)
    (nonzero : mantissa ≠ 0) :
    ofRat (value negative mantissa exponent) =
      ofMagnitudeBits negative (packed mantissa exponent) := by
  rw [value, ofRat_signed negative (magnitude_pos exponent nonzero),
    magnitudeBits_magnitude canonical nonzero]

theorem toRat?_eq_some_iff {q : ℚ} :
    toRat? x = some q ↔ ∃ negative mantissa exponent,
      read x = .finite negative mantissa exponent ∧ value negative mantissa exponent = q := by
  unfold toRat?
  split
  case h_1 negative mantissa exponent reading => simp [reading]
  case h_2 other =>
    refine ⟨nofun, ?_⟩
    rintro ⟨negative, mantissa, exponent, reading, -⟩
    exact absurd reading (other negative mantissa exponent)

theorem toRat?_of_read (reading : read x = .finite negative mantissa exponent) :
    toRat? x = some (value negative mantissa exponent) :=
  toRat?_eq_some_iff.2 ⟨_, _, _, reading, rfl⟩

theorem toRat?_literal_zero : toRat? 0.0 = some 0 := by
  have reading : read 0.0 = .finite false 0 (-1074) := rfl
  exact toRat?_eq_some_iff.2 ⟨_, _, _, reading, by simp [value, magnitude]⟩

theorem toRat?_literal_one : toRat? 1.0 = some 1 := by
  have reading : read 1.0 = .finite false 0x10000000000000 (-52) := rfl
  exact toRat?_eq_some_iff.2 ⟨_, _, _, reading, by norm_num [value, magnitude]⟩

theorem exists_of_isFinite (finite : isFinite x = true) :
    ∃ negative mantissa exponent, read x = .finite negative mantissa exponent := by
  unfold isFinite at finite
  split at finite
  case h_1 negative mantissa exponent reading => exact ⟨negative, mantissa, exponent, reading⟩
  case h_2 => cases finite

theorem magnitude_bounds (canonical : Canonical mantissa exponent) (nonzero : mantissa ≠ 0) :
    (2 ^ 1074)⁻¹ ≤ magnitude mantissa exponent ∧ magnitude mantissa exponent < 2 ^ 1024 := by
  constructor
  · have one : (1 : ℚ) ≤ mantissa := by exact_mod_cast Nat.one_le_iff_ne_zero.2 nonzero
    calc ((2 : ℚ) ^ 1074)⁻¹ = 2 ^ (-((1074 : ℕ) : ℤ)) := by rw [zpow_neg, zpow_natCast]
      _ ≤ 2 ^ exponent := zpow_le_zpow_right₀ one_le_two canonical.least
      _ ≤ magnitude mantissa exponent := le_mul_of_one_le_left (zpow_pos two_pos _).le one
  · have greatest := canonical.greatest
    calc magnitude mantissa exponent < 2 ^ (exponent + 53) := magnitude_lt canonical
      _ ≤ 2 ^ ((1024 : ℕ) : ℤ) := zpow_le_zpow_right₀ one_le_two (by omega)
      _ = 2 ^ 1024 := zpow_natCast 2 1024

/-- A finite double other than zero has the sign and the magnitude that are read. -/
theorem value_spec (nonzero : value negative mantissa exponent ≠ 0) :
    0 < magnitude mantissa exponent ∧ decide (value negative mantissa exponent < 0) = negative ∧
      |value negative mantissa exponent| = magnitude mantissa exponent := by
  have positive : 0 < magnitude mantissa exponent := by
    refine magnitude_pos exponent fun none => nonzero ?_
    cases negative <;> simp [value, magnitude, none]
  cases negative <;> simp [value, positive, positive.le, abs_of_pos]

/-- Finite doubles are below `2 ^ 1024`, and those other than zero not below `2 ^ (-1074)`. -/
theorem abs_bounds_of_toRat? {q : ℚ} (h : toRat? x = some q) :
    |q| < 2 ^ 1024 ∧ (q ≠ 0 → (2 ^ 1074)⁻¹ ≤ |q|) := by
  obtain ⟨negative, mantissa, exponent, reading, rfl⟩ := toRat?_eq_some_iff.1 h
  obtain ⟨canonical, -⟩ := read_eq_finite_iff.1 reading
  rcases eq_or_ne (value negative mantissa exponent) 0 with zero | nonzero
  · rw [zero, abs_zero]
    exact ⟨by positivity, absurd rfl⟩
  · obtain ⟨positive, -, size⟩ := value_spec nonzero
    have some_mantissa : mantissa ≠ 0 := by
      rintro rfl
      simp [magnitude] at positive
    rw [size]
    obtain ⟨low, high⟩ := magnitude_bounds canonical some_mantissa
    exact ⟨high, fun _ => low⟩

/-! ## Whole numbers -/

theorem toRat?_ofRat_value (negative : Bool) (canonical : Canonical mantissa exponent)
    (nonzero : mantissa ≠ 0) :
    toRat? (ofRat (value negative mantissa exponent)) =
      some (value negative mantissa exponent) := by
  rw [toRat?_eq_some_iff]
  exact ⟨negative, _, _,
    read_eq_finite_iff.2 ⟨canonical, ofRat_value negative canonical nonzero⟩, rfl⟩

/-- Numbers of up to 53 bits are magnitudes of doubles, with a binary point among the bits or before
them too. -/
theorem exists_magnitude_div_two_pow {n k : ℕ} (nonzero : n ≠ 0) (lt : n < 2 * fractionCount)
    (small : k ≤ 1022) :
    ∃ mantissa exponent, Canonical mantissa exponent ∧ mantissa ≠ 0 ∧
      magnitude mantissa exponent = n / 2 ^ k := by
  -- The highest bit is moved to the front.
  have short : n.log2 ≤ 52 := by
    have width : 2 * fractionCount = 2 ^ 53 := rfl
    rw [width, ← Nat.log2_lt nonzero] at lt
    omega
  obtain ⟨shift, split⟩ := Nat.exists_eq_add_of_le short
  refine ⟨n * 2 ^ shift, -(shift + k : ℕ), ⟨?_, by omega, by omega, .inr ?_⟩, by positivity, ?_⟩
  all_goals
    have power : 2 ^ n.log2 * 2 ^ shift = fractionCount := by rw [← pow_add, ← split]; rfl
  · have one : 0 < 2 ^ shift := by positivity
    calc n * 2 ^ shift < 2 ^ (n.log2 + 1) * 2 ^ shift :=
          Nat.mul_lt_mul_of_pos_right Nat.lt_log2_self one
      _ = 2 * fractionCount := by rw [← power, pow_succ]; ring
  · rw [← power]
    exact Nat.mul_le_mul_right _ (Nat.log2_self_le nonzero)
  · rw [magnitude, zpow_neg, zpow_natCast, pow_add]
    push_cast
    field_simp

/-- Whole numbers of up to 53 bits are magnitudes of doubles. -/
theorem exists_magnitude_natCast {n : ℕ} (nonzero : n ≠ 0) (lt : n < 2 * fractionCount) :
    ∃ mantissa exponent, Canonical mantissa exponent ∧ mantissa ≠ 0 ∧
      magnitude mantissa exponent = n := by
  simpa using exists_magnitude_div_two_pow nonzero lt (Nat.zero_le _)

/-- Whole numbers of up to 53 bits are doubles. -/
theorem toRat?_ofInt {n : ℤ} (lt : n.natAbs < 2 * fractionCount) :
    toRat? (ofInt n) = some (n : ℚ) := by
  rcases eq_or_ne n 0 with rfl | nonzero
  · have reading : read (ofInt 0) = .finite false 0 (-1074) := rfl
    exact toRat?_eq_some_iff.2 ⟨_, _, _, reading, by simp [value, magnitude]⟩
  obtain ⟨mantissa, exponent, canonical, nonzero', same⟩ :=
    exists_magnitude_natCast (Int.natAbs_ne_zero.2 nonzero) lt
  have whole : value (decide (n < 0)) mantissa exponent = n := by
    rw [value, same, ← Int.cast_natCast, Int.natCast_natAbs]
    rcases lt_or_gt_of_ne nonzero with below | above
    · simp [below, abs_of_neg below]
    · simp [above.not_gt, abs_of_pos above]
  rw [ofInt, ← whole]
  exact toRat?_ofRat_value _ canonical nonzero'

theorem toRat?_ofRat_natCast {n : ℕ} (lt : n < 2 * fractionCount) :
    toRat? (ofRat n) = some (n : ℚ) := by
  simpa [ofInt] using @toRat?_ofInt (n : ℤ) lt

/-! ## The nearest double -/

/-- The distance between doubles near a positive rational, as an exponent of two. -/
def spacingExponent (q : ℚ) : ℤ := max (binaryExponent q - 52) (-1074)

/-- The significand that is found has 53 bits, or it is the next power of two. It may have fewer
only at the least exponent. -/
theorem significand_spec {q : ℚ} (positive : 0 < q) :
    ∃ significand : ℕ, roundHalfEven (q / 2 ^ spacingExponent q) = significand ∧
      significand ≤ 2 * fractionCount ∧
      (spacingExponent q = -1074 ∨ fractionCount ≤ significand) := by
  obtain ⟨low, high⟩ := binaryExponent_spec positive
  have step : (0 : ℚ) < 2 ^ spacingExponent q := zpow_pos two_pos _
  have width (e : ℤ) : (fractionCount : ℚ) * 2 ^ e = 2 ^ (e + 52) := by
    rw [zpow_add₀ two_ne_zero, mul_comm]
    norm_num [fractionCount]
  have short : roundHalfEven (q / 2 ^ spacingExponent q) ≤ (2 * fractionCount : ℕ) := by
    refine roundHalfEven_le ?_
    rw [div_le_iff₀ step]
    push_cast
    rw [mul_assoc, width, ← zpow_one_add₀ two_ne_zero]
    exact high.le.trans (zpow_le_zpow_right₀ one_le_two (by rw [spacingExponent]; omega))
  obtain ⟨significand, count⟩ :=
    Int.eq_ofNat_of_zero_le (le_roundHalfEven (n := 0) (q := q / 2 ^ spacingExponent q)
      (by rw [Int.cast_zero]; positivity))
  refine ⟨significand, count, by omega, or_iff_not_imp_left.2 fun normal => ?_⟩
  have full : (fractionCount : ℤ) ≤ roundHalfEven (q / 2 ^ spacingExponent q) := by
    refine le_roundHalfEven ?_
    rw [le_div_iff₀ step, Int.cast_natCast, width]
    exact (zpow_le_zpow_right₀ one_le_two (by rw [spacingExponent] at *; omega)).trans low
  omega

/-- The bits for a significand. -/
theorem magnitudeBits_eq {q : ℚ} {significand : ℕ}
    (count : roundHalfEven (q / 2 ^ spacingExponent q) = significand) :
    magnitudeBits q =
      min ((spacingExponent q + 1074).toNat * fractionCount + significand) infinityBits := by
  change min ((spacingExponent q + 1074).toNat * fractionCount +
    (roundHalfEven (q / 2 ^ spacingExponent q)).toNat) _ = _
  rw [count, Int.toNat_natCast]

/-- Only large numbers have the bits of an infinity. -/
theorem le_of_magnitudeBits_eq {q : ℚ} (positive : 0 < q)
    (infinite : magnitudeBits q = infinityBits) : 2 ^ 1023 ≤ q := by
  obtain ⟨significand, count, short, -⟩ := significand_spec positive
  rw [magnitudeBits_eq count, min_eq_right_iff] at infinite
  have large : 1023 ≤ binaryExponent q := by
    simp only [spacingExponent, fractionCount, infinityBits] at infinite short
    omega
  calc (2 : ℚ) ^ 1023 = 2 ^ ((1023 : ℕ) : ℤ) := (zpow_natCast 2 1023).symm
    _ ≤ 2 ^ binaryExponent q := zpow_le_zpow_right₀ one_le_two large
    _ ≤ q := (binaryExponent_spec positive).1

/-- The nearest multiple of the distance between doubles has the bits that are found, also where it
is the next power of two, unless it is too large for a double. An even multiple has an even
mantissa. -/
theorem magnitudeBits_spec {q : ℚ} (positive : 0 < q) :
    magnitudeBits q = infinityBits ∨ ∃ mantissa exponent, Canonical mantissa exponent ∧
      magnitudeBits q = packed mantissa exponent ∧
      magnitude mantissa exponent =
        roundHalfEven (q / 2 ^ spacingExponent q) * 2 ^ spacingExponent q ∧
      (Even (roundHalfEven (q / 2 ^ spacingExponent q)) → Even mantissa) := by
  obtain ⟨significand, count, short, full⟩ := significand_spec positive
  have least : -1074 ≤ spacingExponent q := le_max_right _ _
  rw [magnitudeBits_eq count, count]
  generalize spacingExponent q = e at full least
  rcases le_or_gt infinityBits ((e + 1074).toNat * fractionCount + significand) with large | small
  · exact .inl (min_eq_right large)
  rw [min_eq_left small.le]
  right
  rcases eq_or_ne significand (2 * fractionCount) with rfl | shorter
  · refine ⟨fractionCount, e + 1, ⟨by decide, by omega, ?_, .inr le_rfl⟩, ?_, ?_,
      fun _ => by decide⟩
    · simp only [fractionCount, infinityBits] at small
      omega
    · simp only [packed, fractionCount]
      omega
    · rw [magnitude, zpow_add₀ two_ne_zero]
      push_cast
      ring
  · refine ⟨significand, e, ⟨by omega, least, ?_, full⟩, rfl, rfl, Int.even_coe_nat _ |>.1⟩
    simp only [fractionCount, infinityBits] at *
    omega

/-- The double nearest to a positive rational is infinite, or a multiple of the distance between
doubles there that is at most one half of it away. -/
theorem ofRat_spec {q : ℚ} (positive : 0 < q) :
    ofRat q = infinity false ∨ ∃ n : ℤ,
      toRat? (ofRat q) = some ((n : ℚ) * 2 ^ spacingExponent q) ∧
        |(n : ℚ) * 2 ^ spacingExponent q - q| ≤ 2 ^ spacingExponent q / 2 := by
  have double : ofRat q = ofMagnitudeBits false (magnitudeBits q) := ofRat_signed false positive
  rw [double]
  rcases magnitudeBits_spec positive with infinite | ⟨m, e, canonical, bits, same, -⟩
  · exact .inl (congrArg _ infinite)
  · refine .inr ⟨roundHalfEven (q / 2 ^ spacingExponent q), ?_,
      abs_roundHalfEven_mul_sub_le (zpow_pos two_pos _) q⟩
    rw [toRat?_eq_some_iff]
    exact ⟨false, m, e, read_eq_finite_iff.2 ⟨canonical, congrArg _ bits⟩, same⟩

/-- The double nearest to a positive rational is zero, infinite, or off by half of itself at most.
-/
theorem ofRat_near {q : ℚ} (positive : 0 < q) :
    ofRat q = infinity false ∨ toRat? (ofRat q) = some 0 ∨
      ∃ r, toRat? (ofRat q) = some r ∧ 0 < r ∧ r ≤ 2 * q ∧ 2 * q ≤ 3 * r := by
  rcases ofRat_spec positive with infinite | ⟨n, value, near⟩
  · exact .inl infinite
  have step : (0 : ℚ) < 2 ^ spacingExponent q := zpow_pos two_pos _
  obtain ⟨low, high⟩ := abs_le.1 near
  right
  rcases lt_trichotomy n 0 with negative | rfl | above
  · have below : (n : ℚ) ≤ -1 := by exact_mod_cast Int.le_sub_one_of_lt negative
    have := mul_le_mul_of_nonneg_right below step.le
    linarith
  · exact .inl (by rw [value, Int.cast_zero, zero_mul])
  · have one : (1 : ℚ) ≤ n := by exact_mod_cast above
    have := mul_le_mul_of_nonneg_right one step.le
    exact .inr ⟨_, value, by linarith, by linarith, by linarith⟩

end ContentionChart.Binary64
