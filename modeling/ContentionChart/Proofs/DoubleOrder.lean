import ContentionChart.Proofs.Doubles

/-!
# The order of doubles

Doubles compare as the numbers that they stand for, with the infinities at the ends. What stands for
no number compares as nothing. Negation turns the order around: it changes the sign of a double and
nothing else.

## Main definitions

* `number?` — the place of a double in the order of numbers.

## Main statements

* `magnitude_lt_iff` — magnitudes are in the order of exponents, and of mantissas among equal ones.
* `lt_iff`, `le_iff` — comparing doubles.
* `toRat?_neg` — the number of a negated double.
-/

namespace ContentionChart.Binary64

open Float.Model (UnpackedFloat)
open Float.Model.UnpackedFloat (Sign packComponents unpackExponent unpackMantissa unpackSign)

variable {x y : Float} {m n : ℕ} {e f : ℤ}

/-! ## Readings -/

def signOf (negative : Bool) : Sign := if negative then .negative else .positive

/-- A reading in the form in which doubles are compared. Zero is told apart there. -/
def Reading.unpacked : Reading → UnpackedFloat
  | .finite negative 0 _ => .zero (signOf negative)
  | .finite negative (m + 1) e => .finite (signOf negative) (m + 1) e m.succ_pos
  | .infinite negative => .infinity (signOf negative)
  | .undefined => .notANumber

section

variable (b : BitVec 64)

theorem toNat_unpackMantissa :
    (@unpackMantissa .binary64 b).toNat = b.toNat % fractionCount := by
  simp [unpackMantissa, BitVec.extractLsb, fractionCount]

theorem toNat_unpackExponent :
    (@unpackExponent .binary64 b).toNat = b.toNat / fractionCount % 2048 := by
  simp [unpackExponent, BitVec.extractLsb, fractionCount, Nat.shiftRight_eq_div_pow]

theorem ofBitVec_unpackSign :
    Sign.ofBitVec (@unpackSign .binary64 b) = signOf (b.toNat / signBit == 1) := by
  have lt := b.isLt
  have bit : (@unpackSign .binary64 b).toNat = b.toNat / signBit := by
    simp [unpackSign, BitVec.extractLsb, signBit, Nat.shiftRight_eq_div_pow]
    omega
  have two : b.toNat / signBit = 0 ∨ b.toNat / signBit = 1 := by
    simp only [signBit]
    omega
  simp only [Sign.ofBitVec, signOf, ← BitVec.toNat_inj, bit]
  rcases two with zero | one
  · simp [zero]
  · simp [one]

end

theorem unpacked_finite (negative : Bool) (positive : 0 < m) :
    (Reading.finite negative m e).unpacked = .finite (signOf negative) m e positive := by
  cases m with
  | zero => cases positive
  | succ m => rfl

theorem unpack_eq (x : Float) : x.toModel.unpack = (read x).unpacked := by
  have bits : x.toModel.toBits.toBitVec.toNat = x.toBits.toNat := rfl
  have sign := ofBitVec_unpackSign x.toModel.toBits.toBitVec
  have field := toNat_unpackExponent x.toModel.toBits.toBitVec
  have fraction := toNat_unpackMantissa x.toModel.toBits.toBitVec
  have allOnes : (-1#11).toNat = 2047 := rfl
  have bias : (Float.Model.Format.binary64.exponentBias : ℤ) = 1023 := rfl
  rw [bits] at sign field fraction
  simp only [Float.Model.unpack, UnpackedFloat.unpack, read, sign, ← BitVec.toNat_inj, field,
    fraction, allOnes, bias, BitVec.toNat_ofNat, Nat.zero_mod]
  split_ifs with infinite _ subnormal zero
  · rfl
  · rfl
  · rw [zero]
    rfl
  · rw [unpacked_finite _ (Nat.pos_of_ne_zero zero), subnormal]
    rfl
  · have whole : (1#1 ++ @unpackMantissa .binary64 x.toModel.toBits.toBitVec).toNat =
        fractionCount + x.toBits.toNat % fractionCount := by
      rw [← fraction, BitVec.toNat_append, ← Nat.shiftLeft_add_eq_or_of_lt (BitVec.isLt _)]
      rfl
    rw [unpacked_finite _ (Nat.add_pos_left (by decide) _)]
    simp only [whole]
    congr 1

/-! ## Magnitudes -/

theorem magnitude_lt_of_exponent_lt (less : Canonical m e) (more : Canonical n f) (lt : e < f) :
    magnitude m e < magnitude n f := by
  have full : fractionCount ≤ n := more.normal.resolve_left (by have := less.least; omega)
  calc magnitude m e < 2 ^ (e + 53) := magnitude_lt less
    _ ≤ 2 ^ (f + 52) := zpow_le_zpow_right₀ one_le_two (by omega)
    _ ≤ magnitude n f := le_magnitude full

/-- The exponents decide, and the mantissas if they are equal. -/
theorem magnitude_lt_iff (hm : Canonical m e) (hn : Canonical n f) :
    magnitude m e < magnitude n f ↔ (compare e f).then (compare m n) = .lt := by
  rw [Ordering.then_eq_lt, compare_lt_iff_lt, compare_eq_iff_eq, compare_lt_iff_lt]
  rcases lt_trichotomy e f with lt | rfl | gt
  · simp [lt, magnitude_lt_of_exponent_lt hm hn lt]
  · have power : (0 : ℚ) < 2 ^ e := zpow_pos two_pos _
    simp [magnitude, mul_lt_mul_iff_left₀ power]
  · have more := magnitude_lt_of_exponent_lt hn hm gt
    simp [gt.not_gt, gt.ne', more.not_gt]

theorem magnitude_gt_iff (hm : Canonical m e) (hn : Canonical n f) :
    magnitude n f < magnitude m e ↔ (compare e f).then (compare m n) = .gt := by
  rw [magnitude_lt_iff hn hm, Ordering.then_eq_lt, Ordering.then_eq_gt, compare_lt_iff_lt,
    compare_lt_iff_lt, compare_gt_iff_gt, compare_gt_iff_gt, compare_eq_iff_eq, compare_eq_iff_eq,
    eq_comm]

/-! ## Numbers -/

/-- The number that a reading is of. -/
noncomputable def Reading.number? : Reading → Option EReal
  | .finite negative m e => some ((value negative m e : ℝ) : EReal)
  | .infinite negative => some (if negative then ⊥ else ⊤)
  | .undefined => none

/-- The place of a double in the order of numbers, unless it stands for none. -/
noncomputable def number? (x : Float) : Option EReal := (read x).number?

theorem isSome_number?_iff : (number? x).isSome ↔ read x ≠ .undefined := by
  rw [number?]
  cases read x <;> simp [Reading.number?]

theorem number?_undefined : number? undefined = none := by
  have reading : read undefined = .undefined := rfl
  rw [number?, reading]
  rfl

theorem number?_infinity : number? (infinity false) = some ⊤ := by
  have reading : read (infinity false) = .infinite false := rfl
  rw [number?, reading]
  rfl

theorem number?_of_toRat? {q : ℚ} (h : toRat? x = some q) : number? x = some ((q : ℝ) : EReal) := by
  obtain ⟨negative, m, e, reading, rfl⟩ := toRat?_eq_some_iff.1 h
  rw [number?, reading]
  rfl

theorem compare_finite_iff {negative negative' : Bool} (hm : Canonical m e) (hn : Canonical n f) :
    (Reading.finite negative m e).unpacked.compare (Reading.finite negative' n f).unpacked =
      some .lt ↔ value negative m e < value negative' n f := by
  have none (e : ℤ) : magnitude 0 e = 0 := by simp [magnitude]
  rcases Nat.eq_zero_or_pos m with rfl | hm'
  · rcases Nat.eq_zero_or_pos n with rfl | hn'
    · cases negative <;> cases negative' <;>
        simp [Reading.unpacked, UnpackedFloat.compare, value, none]
    · have right := magnitude_pos f hn'.ne'
      rw [unpacked_finite _ hn']
      cases negative <;> cases negative' <;>
        simp [Reading.unpacked, UnpackedFloat.compare, signOf, value, none, right, right.le]
  · have left := magnitude_pos e hm'.ne'
    rw [unpacked_finite _ hm']
    rcases Nat.eq_zero_or_pos n with rfl | hn'
    · cases negative <;> cases negative' <;>
        simp [Reading.unpacked, UnpackedFloat.compare, signOf, value, none, left, left.le]
    · have right := magnitude_pos f hn'.ne'
      rw [unpacked_finite _ hn']
      cases negative <;> cases negative' <;>
        simp [UnpackedFloat.compare, signOf, value, magnitude_lt_iff hm hn, magnitude_gt_iff hm hn]
      · linarith
      · linarith

theorem lt_iff_compare : x < y ↔ (read x).unpacked.compare (read y).unpacked = some .lt := by
  rw [← unpack_eq, ← unpack_eq]
  change (decide (x.toModel < y.toModel)) = true ↔ _
  rw [decide_eq_true_eq]
  change (x.toModel.unpack.compare y.toModel.unpack == some .lt) = true ↔ _
  rw [beq_iff_eq]

/-- Doubles compare by their places in the order of numbers. -/
theorem lt_iff : x < y ↔ ∃ p q, number? x = some p ∧ number? y = some q ∧ p < q := by
  rw [lt_iff_compare, number?, number?]
  cases hx : read x with
  | undefined => simp [Reading.number?, Reading.unpacked, UnpackedFloat.compare]
  | infinite negative =>
    cases hy : read y with
    | undefined =>
      cases negative <;> simp [Reading.number?, Reading.unpacked, UnpackedFloat.compare, signOf]
    | infinite negative' =>
      cases negative <;> cases negative' <;>
        simp [Reading.number?, Reading.unpacked, UnpackedFloat.compare, signOf]
      rfl
    | finite negative' n f =>
      cases negative <;> cases n <;>
        simp [Reading.number?, Reading.unpacked, UnpackedFloat.compare, signOf]
  | finite negative m e =>
    cases hy : read y with
    | undefined =>
      cases m <;> simp [Reading.number?, Reading.unpacked, UnpackedFloat.compare]
    | infinite negative' =>
      cases negative' <;> cases m <;>
        simp [Reading.number?, Reading.unpacked, UnpackedFloat.compare, signOf]
    | finite negative' n f =>
      rw [compare_finite_iff (read_eq_finite_iff.1 hx).1 (read_eq_finite_iff.1 hy).1]
      simp [Reading.number?]

/-- Doubles compare the other way around from the other side. -/
theorem compare_swap (a b : UnpackedFloat) :
    b.compare a = (a.compare b).map Ordering.swap := by
  have signs (s t : Sign) : compare t s = (compare s t).swap := by
    cases s <;> cases t <;> rfl
  have exponents (e f : ℤ) (m n : ℕ) : (compare f e).then (compare n m) =
      ((compare e f).then (compare m n)).swap := by
    rw [Ordering.swap_then, Int.compare_swap, Nat.compare_swap]
  cases a with
  | notANumber => cases b with
    | infinity t => cases t <;> rfl
    | _ => rfl
  | infinity s => cases b with
    | infinity t => exact congrArg some (signs s t)
    | _ => cases s <;> rfl
  | zero s => cases b with
    | infinity t => cases t <;> rfl
    | finite t => cases t <;> rfl
    | _ => rfl
  | finite s m e => cases b with
    | infinity t => cases s <;> cases t <;> rfl
    | zero t => cases s <;> rfl
    | notANumber => cases s <;> rfl
    | finite t n f =>
      cases s <;> cases t <;> simp [UnpackedFloat.compare, exponents e f m n]

theorem compare_eq_none_iff {a b : Reading} :
    a.unpacked.compare b.unpacked = none ↔ a = .undefined ∨ b = .undefined := by
  cases a with
  | undefined => simp [Reading.unpacked, UnpackedFloat.compare]
  | infinite negative =>
    cases b with
    | finite negative' n f =>
      cases negative <;> cases n <;> simp [Reading.unpacked, UnpackedFloat.compare, signOf]
    | _ => simp [Reading.unpacked, UnpackedFloat.compare]
  | finite negative m e =>
    cases b with
    | finite negative' n f =>
      cases m <;> cases n <;> cases negative <;> cases negative' <;>
        simp [Reading.unpacked, UnpackedFloat.compare, signOf]
    | infinite negative' =>
      cases m <;> cases negative' <;> simp [Reading.unpacked, UnpackedFloat.compare, signOf]
    | undefined => cases m <;> simp [Reading.unpacked, UnpackedFloat.compare]

/-- Doubles that stand for numbers are in order one way or the other. -/
theorem le_iff_not_lt : x ≤ y ↔ (number? x).isSome ∧ (number? y).isSome ∧ ¬y < x := by
  have compared : x ≤ y ↔
      ((read x).unpacked.compare (read y).unpacked).any Ordering.isLE = true := by
    rw [← unpack_eq, ← unpack_eq]
    change (decide (x.toModel ≤ y.toModel)) = true ↔ _
    rw [decide_eq_true_eq]
    rfl
  rw [compared, isSome_number?_iff, isSome_number?_iff, lt_iff_compare,
    compare_swap (read x).unpacked, ← and_assoc, ← not_or, ← compare_eq_none_iff]
  cases (read x).unpacked.compare (read y).unpacked with
  | none => simp
  | some order => cases order <;> simp

theorem le_iff : x ≤ y ↔ ∃ p q, number? x = some p ∧ number? y = some q ∧ p ≤ q := by
  rw [le_iff_not_lt, lt_iff]
  cases number? x <;> cases number? y <;> simp

/-- Finite doubles compare by their exact values. -/
theorem compare_iff_of_toRat? {p q : ℚ} (hx : toRat? x = some p) (hy : toRat? y = some q) :
    (x < y ↔ p < q) ∧ (x ≤ y ↔ p ≤ q) := by
  rw [lt_iff, le_iff, number?_of_toRat? hx, number?_of_toRat? hy]
  simp

/-! ## Negation -/

theorem neg_signOf (negative : Bool) : -signOf negative = signOf !negative := by
  cases negative <;> rfl

theorem toNat_packComponents (negative : Bool) (field : BitVec 11) (fraction : BitVec 52) :
    (packComponents .binary64 (signOf negative) field fraction).toNat =
      (if negative then signBit else 0) + (field.toNat * fractionCount + fraction.toNat) := by
  have sign : (signOf negative).toBitVec.toNat = if negative then 1 else 0 := by
    cases negative <;> rfl
  rw [packComponents, BitVec.toNat_append, BitVec.toNat_append, sign,
    ← Nat.shiftLeft_add_eq_or_of_lt fraction.isLt, ← Nat.shiftLeft_add_eq_or_of_lt field.isLt,
    Nat.shiftLeft_eq, Nat.shiftLeft_eq]
  cases negative <;> simp [signBit, fractionCount]
  omega

/-- The bits of a finite number in the form in which doubles are compared. -/
theorem toNat_pack (negative : Bool) (canonical : Canonical m e) :
    ((Reading.finite negative m e).unpacked.pack .binary64).toNat =
      (if negative then signBit else 0) + packed m e := by
  obtain ⟨lt, least, greatest, normal⟩ := canonical
  rcases Nat.eq_zero_or_pos m with rfl | positive
  · obtain rfl : e = -1074 := normal.resolve_right (by decide)
    cases negative <;> decide
  rw [unpacked_finite negative positive]
  have bias : (Float.Model.Format.binary64.exponentBias : ℤ) = 1023 := rfl
  have width : Float.Model.Format.binary64.mantissaBits = 53 := rfl
  have bits : m.log2 + 1 = 53 ↔ fractionCount ≤ m := by
    have low : 52 ≤ m.log2 ↔ fractionCount ≤ m := Nat.le_log2 positive.ne'
    have high : m.log2 < 53 := (Nat.log2_lt positive.ne').2 lt
    omega
  simp only [UnpackedFloat.pack, bias, width, bits]
  rw [if_neg (by norm_num; omega)]
  split
  case isTrue full =>
    -- The highest bit of the mantissa counts as one in the exponent field.
    have field : (e + 1023 + (52 : ℕ)).toNat % 2 ^ 11 = (e + 1074).toNat + 1 := by omega
    have fraction : m % 2 ^ 52 = m - fractionCount := by
      rw [fractionCount] at *
      omega
    rw [toNat_packComponents, packed, BitVec.toNat_ofNat, BitVec.toNat_ofNat, field, fraction,
      Nat.add_mul, one_mul]
    omega
  case isFalse short =>
    obtain rfl : e = -1074 := normal.resolve_right short
    have fraction : m % 2 ^ 52 = m := Nat.mod_eq_of_lt (not_le.1 short)
    rw [toNat_packComponents, packed, BitVec.toNat_ofNat, BitVec.toNat_ofNat, fraction]
    rfl

/-- Negation changes the sign bit and nothing else. -/
theorem read_neg {negative : Bool} (reading : read x = .finite negative m e) :
    read (-x) = .finite (!negative) m e := by
  obtain ⟨canonical, -⟩ := read_eq_finite_iff.1 reading
  refine read_eq_finite_of_toNat canonical ?_
  rw [← toNat_pack _ canonical]
  have unpacked : x.toModel.unpack.neg = (Reading.finite (!negative) m e).unpacked := by
    rw [unpack_eq, reading]
    cases m <;> simp [Reading.unpacked, UnpackedFloat.neg, neg_signOf]
  rw [← unpacked]
  rfl

theorem toRat?_neg {q : ℚ} (h : toRat? x = some q) : toRat? (-x) = some (-q) := by
  obtain ⟨negative, m, e, reading, rfl⟩ := toRat?_eq_some_iff.1 h
  refine toRat?_eq_some_iff.2 ⟨!negative, m, e, read_neg reading, ?_⟩
  cases negative <;> simp [value]

end ContentionChart.Binary64
