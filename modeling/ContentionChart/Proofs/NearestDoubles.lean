import ContentionChart.Proofs.DoubleOrder

/-!
# Nearest doubles

Rounding a number to a double finds the nearest one, and of two that are equally near the one with
the even mantissa. What is nearest is said here without regard to how it is found. Between two
doubles with even mantissas there is always another, so that there is one nearest double only, and
the nearest double of a greater number is not less.

## Main definitions

* `IsDouble`, `IsEvenDouble` — the numbers of finite doubles, and of those with an even mantissa.
* `IsNearest` — the number of the double that is nearest to a number.
* `RoundsTo` — what a number is rounded to: its nearest double, unless it is too large.

## Main statements

* `IsNearest.unique`, `IsNearest.mono` — the nearest double is one, and follows the number.
* `roundsTo_ofRat` — rounding a rational.
-/

namespace ContentionChart.Binary64

variable {p q t u : ℚ} {x : Float} {negative : Bool} {m n : ℕ} {e f k : ℤ}

/-! ## The numbers of doubles -/

/-- The number of a finite double. -/
def IsDouble (t : ℚ) : Prop := ∃ x, toRat? x = some t

/-- The number of a finite double with an even mantissa. -/
def IsEvenDouble (t : ℚ) : Prop :=
  ∃ x negative mantissa exponent, read x = .finite negative mantissa exponent ∧
    value negative mantissa exponent = t ∧ Even mantissa

theorem abs_value (negative : Bool) (m : ℕ) (e : ℤ) : |value negative m e| = magnitude m e := by
  cases negative <;> simp [value, abs_of_nonneg (magnitude_nonneg m e)]

theorem value_of_abs_eq (size : |t| = magnitude m e) : value (decide (t < 0)) m e = t := by
  rcases lt_or_ge t 0 with below | above
  · simp [value, ← size, below, abs_of_neg]
  · simp [value, ← size, above.not_gt, abs_of_nonneg above]

theorem isDouble_iff : IsDouble t ↔ ∃ m e, Canonical m e ∧ |t| = magnitude m e := by
  constructor
  · rintro ⟨x, number⟩
    obtain ⟨negative, m, e, reading, rfl⟩ := toRat?_eq_some_iff.1 number
    exact ⟨m, e, (read_eq_finite_iff.1 reading).1, abs_value negative m e⟩
  · rintro ⟨m, e, canonical, size⟩
    exact ⟨_, toRat?_eq_some_iff.2
      ⟨_, m, e, read_eq_finite_iff.2 ⟨canonical, rfl⟩, value_of_abs_eq size⟩⟩

theorem isEvenDouble_iff :
    IsEvenDouble t ↔ ∃ m e, Canonical m e ∧ |t| = magnitude m e ∧ Even m := by
  constructor
  · rintro ⟨x, negative, m, e, reading, rfl, even⟩
    exact ⟨m, e, (read_eq_finite_iff.1 reading).1, abs_value negative m e, even⟩
  · rintro ⟨m, e, canonical, size, even⟩
    exact ⟨_, _, m, e, read_eq_finite_iff.2 ⟨canonical, rfl⟩, value_of_abs_eq size, even⟩

theorem IsDouble.neg (double : IsDouble t) : IsDouble (-t) := by
  simpa [isDouble_iff] using double

theorem IsEvenDouble.neg (even : IsEvenDouble t) : IsEvenDouble (-t) := by
  simpa [isEvenDouble_iff] using even

theorem isDouble_natCast (short : n < 2 * fractionCount) : IsDouble n :=
  ⟨_, toRat?_ofRat_natCast short⟩

/-- Integers of up to 53 bits are numbers of doubles, with a binary point among the bits or before
them too. -/
theorem isDouble_div_two_pow {i : ℤ} {k : ℕ} (short : i.natAbs < 2 * fractionCount)
    (small : k ≤ 1022) : IsDouble (i / 2 ^ k) := by
  rcases eq_or_ne i 0 with rfl | nonzero
  · simpa using isDouble_natCast (n := 0) (by decide)
  obtain ⟨m, e, canonical, -, same⟩ :=
    exists_magnitude_div_two_pow (Int.natAbs_ne_zero.2 nonzero) short small
  have power : (0 : ℚ) < 2 ^ k := by positivity
  refine isDouble_iff.2 ⟨m, e, canonical, ?_⟩
  rw [same, abs_div, abs_of_pos power, Nat.cast_natAbs, Int.cast_abs]

theorem isDouble_zero : IsDouble 0 := by
  simpa using isDouble_natCast (n := 0) (by decide)

theorem isEvenDouble_zero : IsEvenDouble 0 :=
  isEvenDouble_iff.2 ⟨0, -1074, ⟨by decide, le_rfl, by decide, .inl rfl⟩, by simp [magnitude],
    Even.zero⟩

theorem isDouble_two_pow : IsDouble (2 ^ 1023) := by
  refine isDouble_iff.2 ⟨fractionCount, 971, ⟨by decide, by decide, le_rfl, .inr le_rfl⟩, ?_⟩
  have split : 1023 = 52 + 971 := rfl
  rw [abs_of_pos (by positivity), magnitude, split, pow_add]
  norm_num [fractionCount]

/-- The double after one with an even mantissa has the same exponent. -/
theorem Canonical.succ (canonical : Canonical m e) (even : Even m) : Canonical (m + 1) e := by
  have whole : Even (2 * fractionCount) := even_two_mul _
  have lt := canonical.mantissa_lt
  refine ⟨?_, canonical.least, canonical.greatest, canonical.normal.imp_right (by omega)⟩
  grind

/-- Between two numbers with even mantissas there is one with an odd mantissa. -/
theorem exists_between_of_nonneg (nonneg : 0 ≤ t) (lt : t < u) (even_t : IsEvenDouble t)
    (even_u : IsEvenDouble u) : ∃ v, IsDouble v ∧ t < v ∧ v < u := by
  obtain ⟨m, e, canonical, size, even⟩ := isEvenDouble_iff.1 even_t
  obtain ⟨n, f, canonical', size', even'⟩ := isEvenDouble_iff.1 even_u
  rw [abs_of_nonneg nonneg] at size
  rw [abs_of_pos (nonneg.trans_lt lt)] at size'
  have next := canonical.succ even
  have power : (0 : ℚ) < 2 ^ e := zpow_pos two_pos e
  have positive := magnitude_pos e m.succ_ne_zero
  refine ⟨magnitude (m + 1) e, isDouble_iff.2 ⟨_, _, next, abs_of_pos positive⟩, ?_, ?_⟩
  · rw [size, magnitude, magnitude]
    push_cast
    linarith
  · rw [size, size'] at lt
    rw [size']
    rcases lt_trichotomy e f with before | rfl | after
    · exact magnitude_lt_of_exponent_lt next canonical' before
    · have less : m < n := by
        rw [magnitude, magnitude, mul_lt_mul_iff_left₀ power] at lt
        exact_mod_cast lt
      have skipped : m + 1 < n := by grind
      rw [magnitude, magnitude, mul_lt_mul_iff_left₀ power]
      exact_mod_cast skipped
    · exact absurd lt (magnitude_lt_of_exponent_lt canonical' canonical after).not_gt

/-- Two numbers with even mantissas are not next to each other. -/
theorem exists_between (lt : t < u) (even_t : IsEvenDouble t) (even_u : IsEvenDouble u) :
    ∃ v, IsDouble v ∧ t < v ∧ v < u := by
  rcases le_or_gt 0 t with nonneg | negative
  · exact exists_between_of_nonneg nonneg lt even_t even_u
  rcases lt_or_ge 0 u with positive | nonpos
  · exact ⟨0, isDouble_zero, negative, positive⟩
  · obtain ⟨v, double, above, below⟩ := exists_between_of_nonneg (neg_nonneg.2 nonpos)
      (neg_lt_neg lt) even_u.neg even_t.neg
    exact ⟨-v, double.neg, lt_neg.1 below, neg_lt.1 above⟩

/-! ## The nearest double -/

/-- The number of the double that is nearest to a number. Of two that are equally near it is the one
with the even mantissa. -/
structure IsNearest (q t : ℚ) : Prop where
  double : IsDouble t
  le : ∀ u, IsDouble u → |q - t| ≤ |q - u|
  even : ∀ u, IsDouble u → |q - u| = |q - t| → u ≠ t → IsEvenDouble t

namespace IsNearest

theorem refl (double : IsDouble t) : IsNearest t t where
  double
  le u _ := by simp
  even u _ same other := by
    rw [sub_self, abs_zero, abs_eq_zero, sub_eq_zero] at same
    exact absurd same.symm other

theorem neg (h : IsNearest q t) : IsNearest (-q) (-t) := by
  have mirror (v : ℚ) : |-q - v| = |q - -v| := by
    rw [← abs_neg]
    ring_nf
  refine ⟨h.double.neg, fun u double => ?_, fun u double same other => ?_⟩
  · rw [mirror, mirror, neg_neg]
    exact h.le _ double.neg
  · rw [mirror, mirror, neg_neg] at same
    exact (h.even _ double.neg same fun eq => other (neg_eq_iff_eq_neg.1 eq)).neg

/-- The greater of two numbers is as near as the other from their middle on. -/
theorem abs_sub_le_iff (lt : t < u) : |q - u| ≤ |q - t| ↔ t + u ≤ 2 * q := by
  rcases abs_cases (q - t) with ⟨left, _⟩ | ⟨left, _⟩ <;>
    rcases abs_cases (q - u) with ⟨right, _⟩ | ⟨right, _⟩ <;>
      constructor <;> intro <;> linarith

theorem abs_sub_le_iff' (lt : t < u) : |q - t| ≤ |q - u| ↔ 2 * q ≤ t + u := by
  rcases abs_cases (q - t) with ⟨left, _⟩ | ⟨left, _⟩ <;>
    rcases abs_cases (q - u) with ⟨right, _⟩ | ⟨right, _⟩ <;>
      constructor <;> intro <;> linarith

theorem ge (h : IsNearest q t) (h' : IsNearest q u) : u ≤ t := by
  by_contra! lt
  have same : |q - u| = |q - t| := le_antisymm (h'.le t h.double) (h.le u h'.double)
  have even_t := h.even u h'.double same lt.ne'
  have even_u := h'.even t h.double same.symm lt.ne
  -- A double between them would be nearer than both.
  obtain ⟨v, double, above, below⟩ := exists_between lt even_t even_u
  have right := (abs_sub_le_iff' above).1 (h.le v double)
  have left := (abs_sub_le_iff below).1 (h'.le v double)
  linarith

/-- There is one nearest double. -/
theorem unique (h : IsNearest q t) (h' : IsNearest q u) : t = u :=
  le_antisymm (h'.ge h) (h.ge h')

/-- The nearest double of a greater number is not less. -/
theorem mono (h : IsNearest p t) (h' : IsNearest q u) (le : p ≤ q) : t ≤ u := by
  by_contra! lt
  have left := (abs_sub_le_iff lt).1 (h.le u h'.double)
  have right := (abs_sub_le_iff' lt).1 (h'.le t h.double)
  obtain rfl : p = q := by linarith
  exact lt.ne (h'.unique h)

end IsNearest

/-- A number that is nearer to zero than half of the least double is rounded to zero. -/
theorem isNearest_zero (small : |q| < (2 ^ 1075)⁻¹) : IsNearest q 0 := by
  have nearer {u : ℚ} (double : IsDouble u) (nonzero : u ≠ 0) : |q - 0| < |q - u| := by
    obtain ⟨x, number⟩ := double
    have half : ((2 : ℚ) ^ 1074)⁻¹ = (2 ^ 1075)⁻¹ + (2 ^ 1075)⁻¹ := by
      rw [pow_succ _ 1074, mul_inv, ← mul_add]
      norm_num
    have least := (abs_bounds_of_toRat? number).2 nonzero
    have apart := abs_sub_abs_le_abs_sub u q
    calc |q - 0| = |q| := by rw [sub_zero]
      _ < (2 ^ 1075)⁻¹ := small
      _ ≤ |u| - (2 ^ 1075)⁻¹ := le_sub_iff_add_le.2 (half ▸ least)
      _ < |u| - |q| := sub_lt_sub_left small _
      _ ≤ |q - u| := abs_sub_comm u q ▸ apart
  refine ⟨isDouble_zero, fun u double => ?_, fun _ _ _ _ => isEvenDouble_zero⟩
  rcases eq_or_ne u 0 with rfl | nonzero
  · exact le_rfl
  · exact (nearer double nonzero).le

/-! ## Rounding to multiples -/

theorem one_le_abs_sub {i j : ℤ} (other : i ≠ j) : (1 : ℚ) ≤ |(i : ℚ) - j| := by
  exact_mod_cast Int.one_le_abs (sub_ne_zero.2 other)

/-- No integer is nearer than the one that is found. -/
theorem abs_sub_roundHalfEven_le (q : ℚ) (k : ℤ) : |q - roundHalfEven q| ≤ |q - k| := by
  rcases eq_or_ne k (roundHalfEven q) with rfl | other
  · exact le_rfl
  have half := abs_roundHalfEven_sub_le q
  have apart := one_le_abs_sub other
  have triangle := abs_sub_le (k : ℚ) q (roundHalfEven q)
  rw [abs_sub_comm] at half
  rw [abs_sub_comm (k : ℚ) q] at triangle
  linarith

/-- Of two integers that are equally near the even one is found. -/
theorem even_roundHalfEven (tie : |q - k| = |q - roundHalfEven q|) (other : k ≠ roundHalfEven q) :
    Even (roundHalfEven q) := by
  have apart := one_le_abs_sub other
  have triangle := abs_sub_le (k : ℚ) q (roundHalfEven q)
  rw [abs_sub_comm (k : ℚ) q, tie] at triangle
  have half : 1 / 2 ≤ |q - roundHalfEven q| := by linarith
  have low := Rat.floor_le q
  have high := Rat.lt_floor_add_one q
  simp only [roundHalfEven] at half ⊢
  split_ifs at half ⊢ with below above even
  · rw [abs_of_nonneg (by linarith)] at half
    linarith
  · push_cast at half high
    rw [abs_of_nonpos (by linarith)] at half
    linarith
  · exact Int.even_iff.2 even
  · exact Int.even_add_one.2 (Int.even_iff.not.2 even)

/-- A double is a multiple of the distance between doubles near a number, or lies below the power of
two next below that number, which is such a multiple. -/
theorem multiple_or_lt (positive : 0 < q) (double : IsDouble u) :
    (∃ k : ℤ, u = k * 2 ^ spacingExponent q) ∨
      |u| < 2 ^ (spacingExponent q + 52) ∧ 2 ^ (spacingExponent q + 52) ≤ q := by
  obtain ⟨m, e, canonical, size⟩ := isDouble_iff.1 double
  rcases le_or_gt (spacingExponent q) e with coarse | fine
  · left
    obtain ⟨shift, split⟩ := Int.le.dest coarse
    have whole : |u| = ((m * 2 ^ shift : ℕ) : ℤ) * 2 ^ spacingExponent q := by
      rw [size, magnitude, ← split, zpow_add₀ two_ne_zero, zpow_natCast]
      push_cast
      ring
    rcases abs_choice u with same | opposite
    · exact ⟨_, same ▸ whole⟩
    · refine ⟨-((m * 2 ^ shift : ℕ) : ℤ), ?_⟩
      rw [Int.cast_neg, neg_mul, ← whole, opposite, neg_neg]
  · right
    have normal : spacingExponent q + 52 = binaryExponent q := by
      have least := canonical.least
      unfold spacingExponent at *
      omega
    refine ⟨?_, normal ▸ (binaryExponent_spec positive).1⟩
    calc |u| = magnitude m e := size
      _ < 2 ^ (e + 53) := magnitude_lt canonical
      _ ≤ 2 ^ (spacingExponent q + 52) := zpow_le_zpow_right₀ one_le_two (by omega)

/-- The multiple of the distance between doubles that is nearest to a number is nearest among all
doubles, and even where another double is as near. -/
theorem nearest_multiple (positive : 0 < q) (double : IsDouble u) :
    let step := (2 : ℚ) ^ spacingExponent q
    let multiple := roundHalfEven (q / step)
    |q - multiple * step| ≤ |q - u| ∧
      (|q - u| = |q - multiple * step| → u ≠ multiple * step → Even multiple) := by
  intro step multiple
  have step_pos : 0 < step := zpow_pos two_pos _
  have scaled (k : ℤ) : |q - k * step| = |q / step - k| * step := by
    rw [← abs_of_pos step_pos, ← abs_mul, abs_of_pos step_pos, sub_mul,
      div_mul_cancel₀ _ step_pos.ne']
  have near (k : ℤ) : |q - multiple * step| ≤ |q - k * step| := by
    rw [scaled, scaled]
    exact mul_le_mul_of_nonneg_right (abs_sub_roundHalfEven_le _ k) step_pos.le
  rcases multiple_or_lt positive double with ⟨k, rfl⟩ | ⟨below, le⟩
  · refine ⟨near k, fun tie other => ?_⟩
    rw [scaled, scaled, mul_left_inj' step_pos.ne'] at tie
    refine even_roundHalfEven tie ?_
    rintro rfl
    exact other rfl
  · -- The power of two is nearer than any double below it.
    have power : (2 : ℚ) ^ (spacingExponent q + 52) = ((2 ^ 52 : ℤ) : ℚ) * step := by
      rw [zpow_add₀ two_ne_zero, mul_comm]
      norm_num [step]
    have nearer : |q - multiple * step| < |q - u| := by
      calc |q - multiple * step| ≤ |q - ((2 ^ 52 : ℤ) : ℚ) * step| := near _
        _ = q - 2 ^ (spacingExponent q + 52) := by rw [← power, abs_of_nonneg (sub_nonneg.2 le)]
        _ < q - u := sub_lt_sub_left ((le_abs_self u).trans_lt below) q
        _ ≤ |q - u| := le_abs_self _
    exact ⟨nearer.le, fun tie => absurd tie nearer.ne'⟩

/-! ## Rounding -/

/-- What a number is rounded to: the nearest double, unless the number is too large for one. -/
inductive RoundsTo (q : ℚ) (x : Float) : Prop
  | finite {t : ℚ} (number : toRat? x = some t) (nearest : IsNearest q t) : RoundsTo q x
  | infinite (number : toRat? x = none) (large : 2 ^ 1023 ≤ |q|) : RoundsTo q x

/-- A number of moderate size is what a number is rounded to exactly if it is nearest to it. -/
theorem RoundsTo.toRat?_eq_some_iff (h : RoundsTo q x) (moderate : |t| < 2 ^ 1023) :
    toRat? x = some t ↔ IsNearest q t := by
  cases h with
  | finite number nearest =>
    rw [number, Option.some_inj]
    exact ⟨fun same => same ▸ nearest, nearest.unique⟩
  | infinite number large =>
    rw [number]
    refine ⟨nofun, fun nearest => absurd moderate (not_lt.2 ?_)⟩
    have bound : IsNearest (2 ^ 1023) (2 ^ 1023) := .refl isDouble_two_pow
    rcases le_abs.1 large with above | below
    · exact le_abs.2 (.inl (bound.mono nearest above))
    · exact le_abs.2 (.inr (bound.mono nearest.neg below))

theorem toRat?_zero (negative : Bool) : toRat? (zero negative) = some 0 := by
  have reading : read (zero negative) = .finite negative 0 (-1074) := by
    cases negative <;> rfl
  exact toRat?_eq_some_iff.2 ⟨_, _, _, reading, by simp [value, magnitude]⟩

theorem toRat?_infinity (negative : Bool) : toRat? (infinity negative) = none := by
  cases negative <;> rfl

/-- Rounding a positive rational, with a sign in front of it. -/
theorem roundsTo_of_pos (negative : Bool) (positive : 0 < q) :
    RoundsTo (if negative then -q else q) (ofMagnitudeBits negative (magnitudeBits q)) := by
  rcases magnitudeBits_spec positive with infinite | ⟨m, e, canonical, bits, same, even⟩
  · have large := le_of_magnitudeBits_eq positive infinite
    refine .infinite ?_ ?_
    · rw [infinite]
      exact toRat?_infinity negative
    · cases negative <;> simpa [abs_of_pos positive] using large
  · have number : toRat? (ofMagnitudeBits negative (magnitudeBits q)) =
        some (value negative m e) :=
      toRat?_of_read (read_eq_finite_iff.2 ⟨canonical, congrArg _ bits⟩)
    have size : |magnitude m e| = magnitude m e := abs_value false m e
    have nearest : IsNearest q (magnitude m e) := by
      refine ⟨isDouble_iff.2 ⟨m, e, canonical, size⟩, fun u double => ?_,
        fun u double tie other => isEvenDouble_iff.2 ⟨m, e, canonical, size, even ?_⟩⟩
      · rw [same]
        exact (nearest_multiple positive double).1
      · rw [same] at tie other
        exact (nearest_multiple positive double).2 tie other
    refine .finite number ?_
    cases negative with
    | false => exact nearest
    | true => exact nearest.neg

theorem roundsTo_ofRat (q : ℚ) : RoundsTo q (ofRat q) := by
  rcases lt_trichotomy q 0 with below | rfl | above
  · have rounds := roundsTo_of_pos true (neg_pos.2 below)
    rw [← ofRat_signed true (neg_pos.2 below)] at rounds
    simpa using rounds
  · exact .finite (toRat?_zero false) (.refl isDouble_zero)
  · have rounds := roundsTo_of_pos false above
    rw [← ofRat_signed false above] at rounds
    simpa using rounds

end ContentionChart.Binary64
