import ContentionChart.Proofs.DoubleRounding
import ContentionChart.Proofs.NearestDoubles

/-!
# Arithmetic of doubles

The sum, the difference, the product and the quotient of finite doubles are the exact ones, rounded
to the nearest double. This is said of the places of the results in the order of numbers, so that
the sign of a zero is left open.

## Main statements

* `number?_add`, `number?_sub`, `number?_mul`, `number?_div` — results of the operations.
* `exists_nearest` — a result of moderate size is the double nearest to the exact one.
-/

namespace ContentionChart.Binary64

open Float.Model (Format UnpackedFloat totalExponent)
open Float.Model.UnpackedFloat

variable {x y : Float} {p q : ℚ} {m n : ℕ} {e f : ℤ} {negative : Bool}

/-! ## Operations on readings -/

theorem add_eq (x y : Float) :
    x + y = ofUnpacked (UnpackedFloat.add .binary64 (read x).unpacked (read y).unpacked) := by
  rw [← unpack_eq, ← unpack_eq]
  rfl

theorem sub_eq (x y : Float) :
    x - y = ofUnpacked (UnpackedFloat.sub .binary64 (read x).unpacked (read y).unpacked) := by
  rw [← unpack_eq, ← unpack_eq]
  rfl

theorem mul_eq (x y : Float) :
    x * y = ofUnpacked (UnpackedFloat.mul .binary64 (read x).unpacked (read y).unpacked) := by
  rw [← unpack_eq, ← unpack_eq]
  rfl

theorem div_eq (x y : Float) :
    x / y = ofUnpacked (UnpackedFloat.div .binary64 (read x).unpacked (read y).unpacked) := by
  rw [← unpack_eq, ← unpack_eq]
  rfl

theorem ofUnpacked_finite (reading : read x = .finite negative m e) :
    ofUnpacked (Reading.finite negative m e).unpacked = x := by
  obtain ⟨canonical, rfl⟩ := read_eq_finite_iff.1 reading
  apply eq_ofMagnitudeBits
  rw [toNat_toBits_ofUnpacked, toNat_pack negative canonical]

theorem ofUnpacked_zero (negative : Bool) :
    ofUnpacked (.zero (signOf negative)) = zero negative := by
  cases negative <;> rfl

theorem number?_zero (negative : Bool) : number? (zero negative) = some 0 := by
  simpa using number?_of_toRat? (toRat?_zero negative)

theorem ofRat_zero : ofRat 0 = zero false := by
  simp [ofRat]

theorem number?_ofRat_zero : number? (ofRat 0) = some 0 := by
  rw [ofRat_zero, number?_zero]

/-- A double has the number of the double nearest to its own. -/
theorem number?_ofRat_self (number : toRat? x = some p) : number? (ofRat p) = number? x := by
  obtain ⟨negative, m, e, reading, rfl⟩ := toRat?_eq_some_iff.1 number
  rcases eq_or_ne m 0 with rfl | nonzero
  · have none : value negative 0 e = 0 := by cases negative <;> simp [value, magnitude]
    rw [number?_of_toRat? number, none, number?_ofRat_zero]
    simp
  · obtain ⟨canonical, rfl⟩ := read_eq_finite_iff.1 reading
    rw [ofRat_value negative canonical nonzero]

theorem value_eq_apply (negative : Bool) (m : ℕ) (e : ℤ) :
    value negative m e = ((signOf negative).apply m : ℤ) * 2 ^ e := by
  cases negative <;> simp [value, magnitude, signOf, Sign.apply]

theorem value_zero (negative : Bool) (e : ℤ) : value negative 0 e = 0 := by
  cases negative <;> simp [value, magnitude]

/-! ## Sums -/

theorem value_decreaseExponent (negative : Bool) (m : ℕ) (e target : ℤ) :
    value negative (decreaseExponent m e target).1 (min e target) = value negative m e := by
  rw [← decreaseExponent_snd m, value, value, magnitude_decreaseExponent]

/-- Both terms are brought to the lesser of their exponents. -/
theorem ofUnpacked_add_finite (negative negative' : Bool) (positive : 0 < m) (positive' : 0 < n) :
    ofUnpacked (UnpackedFloat.add .binary64 (Reading.finite negative m e).unpacked
      (Reading.finite negative' n f).unpacked) =
      ofRat (value negative m e + value negative' n f) := by
  have sum : value negative m e + value negative' n f =
      ((signOf negative).apply (decreaseExponent m e (min e f)).1 +
        (signOf negative').apply (decreaseExponent n f (min e f)).1 : ℤ) * 2 ^ min e f := by
    have left := value_decreaseExponent negative m e (min e f)
    have right := value_decreaseExponent negative' n f (min e f)
    rw [min_eq_right (min_le_left e f)] at left
    rw [min_eq_right (min_le_right e f)] at right
    rw [← left, ← right, value_eq_apply, value_eq_apply, Int.cast_add, add_mul]
  rw [unpacked_finite negative positive, unpacked_finite negative' positive', sum]
  simp only [UnpackedFloat.add]
  generalize (signOf negative).apply (decreaseExponent m e (min e f)).1 +
    (signOf negative').apply (decreaseExponent n f (min e f)).1 = total
  rcases eq_or_ne total 0 with rfl | nonzero
  · rw [Int.cast_zero, zero_mul, ofRat_zero]
    exact ofUnpacked_zero false
  · exact ofUnpacked_normalize nonzero _ _

/-- The sum of finite doubles is their exact sum, rounded. -/
theorem number?_add (hx : toRat? x = some p) (hy : toRat? y = some q) :
    number? (x + y) = number? (ofRat (p + q)) := by
  obtain ⟨negative, m, e, reading, rfl⟩ := toRat?_eq_some_iff.1 hx
  obtain ⟨negative', n, f, reading', rfl⟩ := toRat?_eq_some_iff.1 hy
  rw [add_eq, reading, reading']
  rcases Nat.eq_zero_or_pos m with rfl | positive
  · rcases Nat.eq_zero_or_pos n with rfl | positive'
    · have both : UnpackedFloat.add .binary64 (Reading.finite negative 0 e).unpacked
          (Reading.finite negative' 0 f).unpacked = .zero (signOf (negative && negative')) := by
        cases negative <;> cases negative' <;> rfl
      rw [both, ofUnpacked_zero, number?_zero, value_zero, value_zero, add_zero,
        number?_ofRat_zero]
    · have right : UnpackedFloat.add .binary64 (Reading.finite negative 0 e).unpacked
          (Reading.finite negative' n f).unpacked = (Reading.finite negative' n f).unpacked := by
        rw [unpacked_finite negative' positive']
        rfl
      rw [right, ofUnpacked_finite reading', value_zero, zero_add, number?_ofRat_self hy]
  · rcases Nat.eq_zero_or_pos n with rfl | positive'
    · have left : UnpackedFloat.add .binary64 (Reading.finite negative m e).unpacked
          (Reading.finite negative' 0 f).unpacked = (Reading.finite negative m e).unpacked := by
        rw [unpacked_finite negative positive]
        rfl
      rw [left, ofUnpacked_finite reading, value_zero, add_zero, number?_ofRat_self hx]
    · rw [ofUnpacked_add_finite negative negative' positive positive']

theorem sub_eq_add (u v : UnpackedFloat) :
    UnpackedFloat.sub .binary64 u v = UnpackedFloat.add .binary64 u v.neg := by
  have apply_neg (s : Sign) (n : ℤ) : (-s).apply n = -s.apply n := by
    cases s with
    | negative => exact (neg_neg n).symm
    | positive => rfl
  cases u <;> cases v <;>
    simp [UnpackedFloat.sub, UnpackedFloat.add, UnpackedFloat.neg, apply_neg, sub_eq_add_neg]

/-- The difference of finite doubles is their exact difference, rounded. -/
theorem number?_sub (hx : toRat? x = some p) (hy : toRat? y = some q) :
    number? (x - y) = number? (ofRat (p - q)) := by
  have minus : x - y = x + -y := by
    obtain ⟨negative, m, e, reading, rfl⟩ := toRat?_eq_some_iff.1 hy
    rw [sub_eq, add_eq, sub_eq_add, read_neg reading, reading]
    congr 2
    cases m <;> simp [Reading.unpacked, UnpackedFloat.neg, neg_signOf]
  rw [minus, number?_add hx (toRat?_neg hy), sub_eq_add_neg]

/-! ## Products -/

theorem signOf_mul (negative negative' : Bool) :
    signOf negative * signOf negative' = signOf (negative ^^ negative') := by
  cases negative <;> cases negative' <;> rfl

theorem signOf_div (negative negative' : Bool) :
    signOf negative / signOf negative' = signOf (negative ^^ negative') := by
  cases negative <;> cases negative' <;> rfl

/-- The last bit of an exact product is not above that of a double. -/
theorem add_le_spacingExponent (hm : Canonical m e) (hn : Canonical n f) (nonzero : m ≠ 0)
    (nonzero' : n ≠ 0) : e + f ≤ spacingExponent (magnitude (m * n) (e + f)) := by
  rw [spacingExponent, binaryExponent_magnitude (mul_ne_zero nonzero nonzero')]
  have full {k : ℕ} (le : fractionCount ≤ k) (divides : k ≤ m * n) : 52 ≤ (m * n).log2 :=
    (Nat.le_log2 (mul_ne_zero nonzero nonzero')).2 (le.trans divides)
  rcases hm.normal with rfl | long
  · rcases hn.normal with rfl | long'
    · omega
    · have := full long' (Nat.le_mul_of_pos_left n (Nat.pos_of_ne_zero nonzero))
      omega
  · have := full long (Nat.le_mul_of_pos_right m (Nat.pos_of_ne_zero nonzero'))
    omega

theorem value_mul (negative negative' : Bool) (m n : ℕ) (e f : ℤ) :
    value negative m e * value negative' n f =
      if negative ^^ negative' then -magnitude (m * n) (e + f) else magnitude (m * n) (e + f) := by
  have product : magnitude (m * n) (e + f) = magnitude m e * magnitude n f := by
    simp only [magnitude, zpow_add₀ (two_ne_zero' ℚ)]
    push_cast
    ring
  rw [product]
  cases negative <;> cases negative' <;> simp [value]

/-- A product with zero is zero, with the sign of the product. -/
theorem mul_of_zero {negative' : Bool} (hx : read x = .finite negative m e)
    (hy : read y = .finite negative' n f) (none : m = 0 ∨ n = 0) :
    x * y = zero (negative ^^ negative') := by
  rw [mul_eq, hx, hy, ← ofUnpacked_zero, ← signOf_mul]
  rcases Nat.eq_zero_or_pos m with rfl | positive
  · cases n <;> rfl
  · obtain rfl : n = 0 := none.resolve_left positive.ne'
    rw [unpacked_finite negative positive]
    rfl

/-- Any other product is the exact one, rounded. -/
theorem mul_of_pos {negative' : Bool} (hx : read x = .finite negative m e)
    (hy : read y = .finite negative' n f) (positive : 0 < m) (positive' : 0 < n) :
    x * y = ofRat (value negative m e * value negative' n f) := by
  have canonical := (read_eq_finite_iff.1 hx).1
  have canonical' := (read_eq_finite_iff.1 hy).1
  have size := magnitude_pos (e + f) (Nat.mul_pos positive positive').ne'
  rw [mul_eq, hx, hy, value_mul, ofRat_signed _ size, unpacked_finite negative positive,
    unpacked_finite negative' positive']
  simp only [UnpackedFloat.mul, signOf_mul]
  rw [ofUnpacked_roundWithAccuracy _ size (.exact _ _)
    (add_le_spacingExponent canonical canonical' positive.ne' positive'.ne')]

/-- The product of finite doubles is their exact product, rounded. -/
theorem number?_mul (hx : toRat? x = some p) (hy : toRat? y = some q) :
    number? (x * y) = number? (ofRat (p * q)) := by
  obtain ⟨negative, m, e, reading, rfl⟩ := toRat?_eq_some_iff.1 hx
  obtain ⟨negative', n, f, reading', rfl⟩ := toRat?_eq_some_iff.1 hy
  rcases Nat.eq_zero_or_pos m with rfl | positive
  · rw [mul_of_zero reading reading' (.inl rfl), number?_zero, value_zero, zero_mul,
      number?_ofRat_zero]
  rcases Nat.eq_zero_or_pos n with rfl | positive'
  · rw [mul_of_zero reading reading' (.inr rfl), number?_zero, value_zero, mul_zero,
      number?_ofRat_zero]
  · rw [mul_of_pos reading reading' positive positive']

/-! ## Quotients -/

/-- A quotient is cut off below the last bit of a double. -/
theorem divCore_spec (hm : m ≠ 0) (hn : n ≠ 0) :
    let core := divCore .binary64 m e n f
    Cut (.ofMantissaAndAccuracy core.1 core.2.2) (magnitude m e / magnitude n f / 2 ^ core.2.1) ∧
      core.2.1 ≤ spacingExponent (magnitude m e / magnitude n f) := by
  have least : Format.binary64.minExponent = -1074 := rfl
  have width : (Format.binary64.mantissaBits : ℤ) = 53 := rfl
  simp only [divCore, Format.targetExponent, totalExponent, least, width]
  set target := min (e - f) (max ((m.log2 : ℤ) + 1 + e - (n.log2 + 1 + f) - 53) (-1074))
    with target_eq
  constructor
  · have shifted : magnitude m e / magnitude n f / 2 ^ target =
        ((m <<< (e - f - target).toNat : ℕ) : ℚ) / n := by
      have exponent : e = target + (e - f - target).toNat + f := by omega
      generalize (e - f - target).toNat = shift at exponent ⊢
      rw [exponent, Nat.shiftLeft_eq]
      simp only [magnitude, zpow_add₀ (two_ne_zero' ℚ), zpow_natCast]
      push_cast
      field_simp
    rw [shifted]
    exact Cut.quotient _ (Nat.pos_of_ne_zero hn)
  · have below : (m.log2 : ℤ) + e - (n.log2 + f) - 1 ≤
        binaryExponent (magnitude m e / magnitude n f) := by
      have dividend := magnitude_pos e hm
      have divisor := magnitude_pos f hn
      have between := (quotient_between two_pos (binaryExponent_spec dividend)
        (binaryExponent_spec divisor)).1.trans_lt (binaryExponent_spec (div_pos dividend divisor)).2
      rw [zpow_lt_zpow_iff_right₀ one_lt_two, binaryExponent_magnitude hm,
        binaryExponent_magnitude hn] at between
      omega
    unfold spacingExponent
    omega

theorem value_div (negative negative' : Bool) (m n : ℕ) (e f : ℤ) :
    value negative m e / value negative' n f =
      if negative ^^ negative' then -(magnitude m e / magnitude n f)
      else magnitude m e / magnitude n f := by
  cases negative <;> cases negative' <;> simp [value, neg_div, div_neg]

/-- The quotient of finite doubles is their exact quotient, rounded. -/
theorem number?_div (hx : toRat? x = some p) (hy : toRat? y = some q) (nonzero : q ≠ 0) :
    number? (x / y) = number? (ofRat (p / q)) := by
  obtain ⟨negative, m, e, reading, rfl⟩ := toRat?_eq_some_iff.1 hx
  obtain ⟨negative', n, f, reading', rfl⟩ := toRat?_eq_some_iff.1 hy
  have positive' : 0 < n := by
    refine Nat.pos_of_ne_zero ?_
    rintro rfl
    exact nonzero (value_zero negative' f)
  rw [div_eq, reading, reading', unpacked_finite negative' positive']
  rcases Nat.eq_zero_or_pos m with rfl | positive
  · have none : UnpackedFloat.div .binary64 (Reading.finite negative 0 e).unpacked
        (.finite (signOf negative') n f positive') = .zero (signOf (negative ^^ negative')) := by
      rw [← signOf_div]
      rfl
    rw [none, ofUnpacked_zero, number?_zero, value_zero, zero_div, number?_ofRat_zero]
  · have quotient_pos : 0 < magnitude m e / magnitude n f :=
      div_pos (magnitude_pos e positive.ne') (magnitude_pos f positive'.ne')
    obtain ⟨cut, fine⟩ := divCore_spec (e := e) (f := f) positive.ne' positive'.ne'
    rw [value_div, ofRat_signed _ quotient_pos, unpacked_finite negative positive]
    simp only [UnpackedFloat.div, signOf_div]
    rw [ofUnpacked_roundWithAccuracy _ quotient_pos cut fine]

/-! ## Results of moderate size -/

theorem toRat?_eq_some_iff_number? : toRat? x = some q ↔ number? x = some ((q : ℝ) : EReal) := by
  refine ⟨number?_of_toRat?, fun number => ?_⟩
  rw [number?] at number
  rw [toRat?_eq_some_iff]
  cases reading : read x with
  | finite negative m e =>
    simp only [reading, Reading.number?, Option.some_inj, EReal.coe_eq_coe_iff,
      Rat.cast_inj] at number
    exact ⟨negative, m, e, rfl, number⟩
  | infinite negative =>
    rw [reading, Reading.number?, Option.some_inj] at number
    cases negative <;> simp at number
  | undefined =>
    rw [reading] at number
    cases number

theorem toRat?_of_number?_eq (same : number? x = number? y) (number : toRat? y = some q) :
    toRat? x = some q := by
  rw [toRat?_eq_some_iff_number?, same, ← toRat?_eq_some_iff_number?, number]

/-- A result of moderate size is the double nearest to the exact one. -/
theorem exists_nearest (same : number? x = number? (ofRat q)) (moderate : |q| < 2 ^ 1023) :
    ∃ t, toRat? x = some t ∧ IsNearest q t := by
  cases roundsTo_ofRat q with
  | finite number nearest => exact ⟨_, toRat?_of_number?_eq same number, nearest⟩
  | infinite _ large => exact absurd moderate large.not_gt

/-- A double that is nearest to a number above one is off by no more than half of its last bit. -/
theorem IsNearest.abs_sub_le {t : ℚ} (nearest : IsNearest q t) (least : 1 ≤ q)
    (moderate : q < 2 ^ 1023) : |t - q| ≤ q / 2 ^ 53 := by
  have positive : 0 < q := by linarith
  obtain ⟨u, number, nearest'⟩ := exists_nearest rfl ((abs_of_pos positive).trans_lt moderate)
  obtain rfl := nearest.unique nearest'
  rcases ofRat_spec positive with infinite | ⟨n, number', near⟩
  · rw [infinite, toRat?_infinity] at number
    cases number
  · rw [number, Option.some_inj] at number'
    rw [← number'] at near
    obtain ⟨low, high⟩ := binaryExponent_spec positive
    have exponent : 0 ≤ binaryExponent q := by
      have less : (2 : ℚ) ^ (0 : ℤ) < 2 ^ (binaryExponent q + 1) := by
        simpa using least.trans_lt high
      rw [zpow_lt_zpow_iff_right₀ one_lt_two] at less
      omega
    have spacing : spacingExponent q = binaryExponent q - 52 := max_eq_left (by omega)
    rw [spacing, zpow_sub₀ two_ne_zero] at near
    norm_num at near ⊢
    linarith

/-- A result that is a double is not rounded. -/
theorem toRat?_of_isDouble (same : number? x = number? (ofRat q)) (double : IsDouble q) :
    toRat? x = some q := by
  obtain ⟨y, number⟩ := double
  rw [number?_ofRat_self number] at same
  exact toRat?_of_number?_eq same number

theorem read_abs (reading : read x = .finite negative m e) :
    read (Float.abs x) = .finite false m e := by
  obtain ⟨canonical, -⟩ := read_eq_finite_iff.1 reading
  refine read_eq_finite_of_toNat canonical ?_
  rw [← toNat_pack _ canonical]
  have unpacked : x.toModel.unpack.abs = (Reading.finite false m e).unpacked := by
    rw [unpack_eq, reading]
    cases m <;> rfl
  rw [← unpacked]
  rfl

theorem toRat?_abs (number : toRat? x = some q) : toRat? (Float.abs x) = some |q| := by
  obtain ⟨negative, m, e, reading, rfl⟩ := toRat?_eq_some_iff.1 number
  exact toRat?_eq_some_iff.2 ⟨false, m, e, read_abs reading, (abs_value negative m e).symm⟩

end ContentionChart.Binary64
