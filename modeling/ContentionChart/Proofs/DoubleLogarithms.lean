import ContentionChart.Binary64.Logarithm
import ContentionChart.Proofs.DoubleArithmetic

/-!
# Logarithms of doubles

The logarithm of a number is that of a power of two and a rest, which is the logarithm of a number
near one. The rest is shorter than the logarithm of two. Numbers that are eight times apart differ
by three powers of two, so that their logarithms are in order whatever the series for the rest comes
to.

## Main statements

* `abs_logNear_le` — the rest is not longer than the logarithm of two.
* `logFixed_bounds` — the logarithm from the binary exponent.
* `exists_log10` — the logarithm of a positive double is a double.
* `log10_le_log10` — the logarithms of doubles that are eight times apart.
-/

namespace ContentionChart.Binary64

variable {x y : Float} {p q : ℚ}

/-! ## Fixed-point series -/

theorem fixedOne_pos : 0 < fixedOne := by decide

/-- The logarithm of two is more than one half, and that of ten is more than twice as long. -/
theorem logTwo_spec : fixedOne + 485 ≤ 2 * logTwo ∧ 2 * logTwo ≤ logTen := by decide +kernel

theorem logTwo_pos : 0 < logTwo := by
  have one := fixedOne_pos
  have two := logTwo_spec.1
  omega

theorem logTen_pos : 0 < logTen := by
  have two := logTwo_pos
  have ten := logTwo_spec.2
  omega

/-- A product with a small factor, rounded down. -/
theorem abs_mulFixed_le {a b : ℤ} (nonneg : 0 ≤ b) (small : 20 * b ≤ fixedOne) :
    20 * |mulFixed a b| ≤ |a| + 20 := by
  have one := fixedOne_pos
  have product : |a * b| * 20 ≤ |a| * fixedOne := by
    rw [abs_mul, abs_of_nonneg nonneg, mul_assoc, mul_comm b]
    exact mul_le_mul_of_nonneg_left small (abs_nonneg a)
  have low : mulFixed a b * fixedOne ≤ a * b := Int.ediv_mul_le _ one.ne'
  have high : a * b < (mulFixed a b + 1) * fixedOne := Int.lt_ediv_add_one_mul_self _ one
  have upper : 20 * mulFixed a b ≤ |a| := by
    refine le_of_mul_le_mul_right ?_ one
    linarith [le_abs_self (a * b)]
  have lower : -(20 * mulFixed a b) - 20 ≤ |a| := by
    refine le_of_mul_le_mul_right ?_ one
    linarith [neg_abs_le (a * b)]
  rcases abs_choice (mulFixed a b) with same | same <;> omega

/-- The terms of the series get smaller at least twenty times from each to the next. -/
theorem abs_arctanhSeries_le {square : ℤ} (nonneg : 0 ≤ square) (small : 20 * square ≤ fixedOne)
    (terms : ℕ) (power i : ℤ) :
    4 * |arctanhSeries square terms power i| ≤ 5 * |power| + 8 * terms := by
  induction terms generalizing power i with
  | zero => simp [arctanhSeries]
  | succ terms ih =>
    have first : |power / i| ≤ |power| := Int.abs_ediv_le_abs power i
    have rest := ih (mulFixed power square) (i + 2)
    have next := abs_mulFixed_le (a := power) nonneg small
    have size := abs_nonneg power
    rw [arctanhSeries]
    have triangle := abs_add_le (power / i)
      (arctanhSeries square terms (mulFixed power square) (i + 2))
    push_cast
    omega

theorem abs_toFixed_le (short : |q| ≤ 1 / 5) : 5 * |toFixed q| ≤ fixedOne + 5 := by
  have one : (0 : ℚ) < fixedOne := Int.cast_pos.2 fixedOne_pos
  obtain ⟨below, above⟩ := abs_le.1 short
  have low : (toFixed q : ℚ) ≤ q * fixedOne := Rat.floor_le _
  have high : q * fixedOne < toFixed q + 1 := by
    exact_mod_cast Rat.lt_floor_add_one (q * fixedOne)
  have size : |(toFixed q : ℚ)| ≤ fixedOne / 5 + 1 := by
    have left := mul_le_mul_of_nonneg_right below one.le
    have right := mul_le_mul_of_nonneg_right above one.le
    rw [abs_le]
    constructor <;> linarith
  have cast : 5 * ((|toFixed q| : ℤ) : ℚ) ≤ fixedOne + 5 := by
    rw [Int.cast_abs]
    linarith
  exact_mod_cast cast

theorem mulFixed_self_le {z : ℤ} (short : 5 * |z| ≤ fixedOne + 5) :
    20 * mulFixed z z ≤ fixedOne := by
  have low : mulFixed z z * fixedOne ≤ z * z := Int.ediv_mul_le _ fixedOne_pos.ne'
  have bound : |z| * |z| ≤ (fixedOne / 5 + 1) * (fixedOne / 5 + 1) :=
    mul_self_le_mul_self (abs_nonneg z) (by omega)
  have enough : 20 * ((fixedOne / 5 + 1) * (fixedOne / 5 + 1)) ≤ fixedOne * fixedOne := by
    decide
  rw [abs_mul_abs_self] at bound
  exact le_of_mul_le_mul_right (by linarith) fixedOne_pos

/-- The logarithm of a number near one is shorter than that of two. -/
theorem abs_logNear_le (low : 2 / 3 ≤ q) (high : q ≤ 4 / 3) : |logNear q| ≤ logTwo := by
  have small : |(q - 1) / (q + 1)| ≤ 1 / 5 := by
    have positive : 0 < q + 1 := by linarith
    rw [abs_div, abs_of_pos positive, div_le_iff₀ positive, abs_le]
    constructor <;> linarith
  have short := abs_toFixed_le small
  have nonneg : 0 ≤ mulFixed _ _ :=
    Int.ediv_nonneg (mul_self_nonneg (toFixed ((q - 1) / (q + 1)))) fixedOne_pos.le
  have series := abs_arctanhSeries_le nonneg (mulFixed_self_le short) 60
    (toFixed ((q - 1) / (q + 1))) 1
  have enough := logTwo_spec.1
  simp only [logNear, abs_mul, Nat.abs_ofNat]
  push_cast at series
  omega

/-! ## Logarithms of rationals -/

/-- The logarithm from the binary exponent, up to two powers of two. -/
theorem logFixed_bounds (positive : 0 < q) :
    (binaryExponent q - 1) * logTwo ≤ logFixed q ∧
      logFixed q ≤ (binaryExponent q + 2) * logTwo := by
  obtain ⟨low, high⟩ := binaryExponent_spec positive
  have power : (0 : ℚ) < 2 ^ binaryExponent q := zpow_pos two_pos _
  rw [zpow_add_one₀ two_ne_zero] at high
  have from_rest {e : ℤ} (least : binaryExponent q ≤ e) (greatest : e ≤ binaryExponent q + 1)
      (rest : |logNear (q / 2 ^ e)| ≤ logTwo) :
      (binaryExponent q - 1) * logTwo ≤ e * logTwo + logNear (q / 2 ^ e) ∧
        e * logTwo + logNear (q / 2 ^ e) ≤ (binaryExponent q + 2) * logTwo := by
    obtain ⟨below, above⟩ := abs_le.1 rest
    have left := mul_le_mul_of_nonneg_right least logTwo_pos.le
    have right := mul_le_mul_of_nonneg_right greatest logTwo_pos.le
    constructor <;> linarith
  simp only [logFixed]
  split
  case isTrue near =>
    refine from_rest le_rfl (by omega) (abs_logNear_le ?_ near)
    rw [le_div_iff₀ power]
    linarith
  case isFalse far =>
    refine from_rest (by omega) le_rfl (abs_logNear_le ?_ ?_)
    · rw [not_le, lt_div_iff₀ power] at far
      rw [zpow_add_one₀ two_ne_zero, le_div_iff₀ (by positivity)]
      linarith
    · rw [zpow_add_one₀ two_ne_zero, div_le_iff₀ (by positivity)]
      linarith

/-- Numbers that are eight times apart differ by three powers of two. -/
theorem logFixed_le_logFixed (positive : 0 < p) (apart : 8 * p ≤ q) : logFixed p ≤ logFixed q := by
  have positive' : 0 < q := by linarith
  have exponents : binaryExponent p + 2 ≤ binaryExponent q - 1 := by
    have less : (2 : ℚ) ^ (binaryExponent p + 3) < 2 ^ (binaryExponent q + 1) := by
      calc (2 : ℚ) ^ (binaryExponent p + 3) = 2 ^ binaryExponent p * 8 := by
            rw [zpow_add₀ two_ne_zero]
            norm_num
        _ ≤ q := by linarith [(binaryExponent_spec positive).1]
        _ < 2 ^ (binaryExponent q + 1) := (binaryExponent_spec positive').2
    rw [zpow_lt_zpow_iff_right₀ one_lt_two] at less
    omega
  calc logFixed p ≤ (binaryExponent p + 2) * logTwo := (logFixed_bounds positive).2
    _ ≤ (binaryExponent q - 1) * logTwo := mul_le_mul_of_nonneg_right exponents logTwo_pos.le
    _ ≤ logFixed q := (logFixed_bounds positive').1

/-! ## Logarithms of doubles -/

theorem binaryExponent_bounds (number : toRat? x = some q) (positive : 0 < q) :
    -1074 ≤ binaryExponent q ∧ binaryExponent q < 1024 := by
  obtain ⟨above, below⟩ := abs_bounds_of_toRat? number
  rw [abs_of_pos positive] at above below
  obtain ⟨low, high⟩ := binaryExponent_spec positive
  have least : (2 : ℚ) ^ (-1074 : ℤ) < 2 ^ (binaryExponent q + 1) := by
    refine lt_of_le_of_lt ?_ high
    simpa [zpow_neg] using below positive.ne'
  have greatest : (2 : ℚ) ^ binaryExponent q < 2 ^ (1024 : ℤ) :=
    low.trans_lt (by exact_mod_cast above)
  rw [zpow_lt_zpow_iff_right₀ one_lt_two] at least greatest
  omega

theorem abs_log_le (number : toRat? x = some q) (positive : 0 < q) :
    |(logFixed q / logTen : ℚ)| ≤ 1076 := by
  obtain ⟨least, greatest⟩ := binaryExponent_bounds number positive
  obtain ⟨low, high⟩ := logFixed_bounds positive
  have two := logTwo_pos
  have ten := logTwo_spec.2
  have ten_pos : (0 : ℚ) < logTen := Int.cast_pos.2 logTen_pos
  have size : |logFixed q| ≤ 1076 * logTen := by
    have left := mul_le_mul_of_nonneg_right least two.le
    have right := mul_le_mul_of_nonneg_right greatest.le two.le
    rw [abs_le]
    constructor <;> linarith
  rw [abs_div, abs_of_pos ten_pos, div_le_iff₀ ten_pos]
  exact_mod_cast size

/-- The logarithm of a positive double is the double nearest to the quotient of two logarithms. -/
theorem exists_log10 (number : toRat? x = some q) (positive : 0 < q) :
    ∃ l, toRat? (log10 x) = some l ∧ IsNearest (logFixed q / logTen) l := by
  have moderate : |(logFixed q / logTen : ℚ)| < 2 ^ 1023 :=
    (abs_log_le number positive).trans_lt <|
      calc (1076 : ℚ) < 2 ^ 11 := by norm_num
        _ ≤ 2 ^ 1023 := pow_le_pow_right₀ one_le_two (by decide)
  obtain ⟨negative, m, e, reading, rfl⟩ := toRat?_eq_some_iff.1 number
  obtain ⟨size, sign, -⟩ := value_spec positive.ne'
  obtain rfl : negative = false := by rw [← sign, decide_eq_false positive.not_gt]
  have nonzero : m ≠ 0 := by
    rintro rfl
    simp [magnitude] at size
  have double : log10 x = ofRat (logFixed (value false m e) / logTen) := by
    simp only [log10, reading, if_neg nonzero, value, Bool.false_eq_true, if_false]
  exact exists_nearest (congrArg number? double) moderate

/-- The logarithms of doubles that are eight times apart are in order. -/
theorem log10_le_log10 (hx : toRat? x = some p) (hy : toRat? y = some q) (positive : 0 < p)
    (apart : 8 * p ≤ q) : log10 x ≤ log10 y := by
  obtain ⟨k, left, nearest⟩ := exists_log10 hx positive
  obtain ⟨l, right, nearest'⟩ := exists_log10 hy (by linarith)
  rw [(compare_iff_of_toRat? left right).2]
  refine nearest.mono nearest' (div_le_div_of_nonneg_right ?_ ?_)
  · exact Int.cast_le.2 (logFixed_le_logFixed positive apart)
  · exact Int.cast_nonneg logTen_pos.le

/-- A double that is not above one has a logarithm that is not above one either. -/
theorem exists_log10_of_le_one (number : toRat? x = some q) (positive : 0 < q) (small : q ≤ 1) :
    ∃ l, toRat? (log10 x) = some l ∧ -1076 ≤ l ∧ l ≤ 1 := by
  have exponent : binaryExponent q ≤ 0 := by
    have less : (2 : ℚ) ^ binaryExponent q < 2 ^ (1 : ℤ) :=
      (binaryExponent_spec positive).1.trans_lt (by linarith)
    rw [zpow_lt_zpow_iff_right₀ one_lt_two] at less
    omega
  have low := (abs_le.1 (abs_log_le number positive)).1
  have high : (logFixed q / logTen : ℚ) ≤ 1 := by
    have ten_pos : (0 : ℚ) < logTen := Int.cast_pos.2 logTen_pos
    have le := (logFixed_bounds positive).2.trans
      (mul_le_mul_of_nonneg_right (add_le_add_left exponent 2) logTwo_pos.le)
    rw [div_le_one ten_pos, Int.cast_le]
    linarith [logTwo_spec.2]
  have integer {i : ℤ} (near : i.natAbs ≤ 1076) : IsNearest i i := by
    refine .refl ?_
    simpa using isDouble_div_two_pow (i := i) (k := 0) (by rw [fractionCount]; omega) (by decide)
  obtain ⟨l, log, nearest⟩ := exists_log10 number positive
  refine ⟨l, log, ?_, ?_⟩
  · exact_mod_cast (integer (i := -1076) (by decide)).mono nearest (by exact_mod_cast low)
  · exact_mod_cast nearest.mono (integer (i := 1) (by decide)) (by exact_mod_cast high)

/-! ## Powers of ten -/

/-- A whole power of ten is the double nearest to it, or one past all doubles. -/
theorem exp10_of_whole {k : ℤ} (number : toRat? x = some (k : ℚ)) :
    exp10 x =
      if k ≤ -400 then zero false else if 400 ≤ k then infinity false else ofRat (10 ^ k) := by
  obtain ⟨negative, m, e, reading, same⟩ := toRat?_eq_some_iff.1 number
  have low : (k : ℚ) ≤ -400 ↔ k ≤ -400 := by exact_mod_cast Iff.rfl
  have high : 400 ≤ (k : ℚ) ↔ 400 ≤ k := by exact_mod_cast Iff.rfl
  simp only [exp10, reading, same, Rat.floor_intCast, low, high, if_true]

theorem exp10_ofInt {k : ℤ} (bound : k.natAbs < 2 * fractionCount) :
    exp10 (ofInt k) =
      if k ≤ -400 then zero false else if 400 ≤ k then infinity false else ofRat (10 ^ k) :=
  exp10_of_whole (toRat?_ofInt bound)

/-- The largest double is between two powers of ten. -/
theorem powers_around_largest : 1 + 2 * 10 ^ 307 < 2 ^ 1023 ∧ 2 ^ 1024 ≤ 10 ^ 309 := by
  decide +kernel

/-- What is past the largest double is rounded to infinity. -/
theorem ofRat_of_large (large : 2 ^ 1024 ≤ q) : ofRat q = infinity false := by
  have positive : 0 < q := lt_of_lt_of_le (by positivity) large
  have exponent : 1024 ≤ binaryExponent q := by
    have less : (2 : ℚ) ^ (1024 : ℤ) < 2 ^ (binaryExponent q + 1) :=
      lt_of_le_of_lt (by exact_mod_cast large) (binaryExponent_spec positive).2
    rw [zpow_lt_zpow_iff_right₀ one_lt_two] at less
    omega
  have full : magnitudeBits q = infinityBits := by
    obtain ⟨significand, count, -, least | normal⟩ := significand_spec positive
    · simp only [spacingExponent] at least
      omega
    · rw [magnitudeBits_eq count, min_eq_right]
      simp only [spacingExponent, fractionCount, infinityBits] at normal ⊢
      omega
  rw [infinity, ← full]
  exact ofRat_signed false positive

/-- The powers of ten up to the 307th are far from the largest double. -/
theorem exists_exp10 {k : ℕ} (small : k ≤ 307) :
    ∃ q, toRat? (exp10 (ofInt k)) = some q ∧ |q - 10 ^ k| ≤ 10 ^ k / 2 ^ 53 ∧
      1 + q < 2 ^ 1023 := by
  have moderate : (1 + 2 * 10 ^ k : ℚ) < 2 ^ 1023 := by
    calc (1 + 2 * 10 ^ k : ℚ) ≤ 1 + 2 * 10 ^ 307 := by gcongr; norm_num
      _ < 2 ^ 1023 := by exact_mod_cast powers_around_largest.1
  have positive : (0 : ℚ) < 10 ^ k := by positivity
  have power : (10 : ℚ) ^ k < 2 ^ 1023 := lt_of_le_of_lt (by linarith) moderate
  have double : exp10 (ofInt k) = ofRat (10 ^ k) := by
    rw [exp10_ofInt (by rw [fractionCount]; omega), if_neg (by omega), if_neg (by omega),
      zpow_natCast]
  obtain ⟨q, number, nearest⟩ :=
    exists_nearest (congrArg number? double) ((abs_of_pos positive).trans_lt power)
  have near := nearest.abs_sub_le (one_le_pow₀ (by norm_num)) power
  have above := (abs_le.1 near).2
  exact ⟨q, number, near, lt_of_le_of_lt (by linarith) moderate⟩

/-- The powers of ten from the 309th on are past all doubles. -/
theorem exp10_of_large {k : ℕ} (large : 309 ≤ k) (bound : k < 2 * fractionCount) :
    exp10 (ofInt k) = infinity false := by
  rw [exp10_ofInt (by omega), if_neg (by omega)]
  split
  · rfl
  · refine ofRat_of_large ?_
    rw [zpow_natCast]
    calc (2 : ℚ) ^ 1024 ≤ 10 ^ 309 := by exact_mod_cast powers_around_largest.2
      _ ≤ 10 ^ k := pow_le_pow_right₀ (by norm_num) large

end ContentionChart.Binary64
