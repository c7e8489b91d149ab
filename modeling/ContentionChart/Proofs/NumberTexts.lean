import ContentionChart.Decimal.Notation
import ContentionChart.Proofs.NumeralGrammar
import ContentionChart.Proofs.ShortestDecimal
import ContentionChart.Results.ThreadCounts

/-!
# Reading written numbers

A number that was written down is read back as it was.

## Main definitions

* `IsNumberChar` — the characters that numbers are written in.

## Main statements

* `Numeral.ofChars?_withSign` — the numeral of a sign and digits.
* `Numeral.exists_spellsDecimal_positional` — a decimal in its positional form.
* `Numeral.spellsDecimal_scientific` — a decimal in its scientific form.
* `parseFloat?_plain` — the text of a finite double.
* `threadCount?_toString` — the text of a thread count.
-/

namespace ContentionChart

open Decimal (digits intDigits positional scientificForm withPoint)

namespace Numeral

/-! ## Digits -/

theorem digitsValue_eq (ds : List Char) : digitsValue ds = Nat.ofDigitChars 10 ds 0 :=
  Nat.ofDigitChars_eq_foldl.symm

@[simp] theorem digitsValue_digits (n : ℕ) : digitsValue (digits n) = n := by
  rw [digitsValue_eq, digits, Nat.ofDigitChars_ten_toDigits]

theorem digitsValue_append_zeros (ds : List Char) (count : ℕ) :
    digitsValue (ds ++ List.replicate count '0') = 10 ^ count * digitsValue ds := by
  rw [digitsValue_eq, Nat.ofDigitChars_append, Nat.ofDigitChars_replicate_zero, digitsValue_eq]

theorem digitsValue_zeros_append (count : ℕ) (ds : List Char) :
    digitsValue (List.replicate count '0' ++ ds) = digitsValue ds := by
  rw [digitsValue_eq, Nat.ofDigitChars_append, Nat.ofDigitChars_replicate_zero, mul_zero,
    digitsValue_eq]

theorem isDigit_of_mem_digits {n : ℕ} {c : Char} (mem : c ∈ digits n) : c.isDigit = true :=
  Nat.isDigit_of_mem_toDigits (by decide) (by decide) mem

theorem allDigits_digits (n : ℕ) : AllDigits (digits n) := fun _ => isDigit_of_mem_digits

/-- Digits, and an exponent or none, are a whole number. -/
theorem spellsDecimal_whole {whole rest : List Char} {e : ℤ} (all : AllDigits whole)
    (nonempty : whole ≠ []) (power : SpellsExponent rest e) :
    SpellsDecimal (whole ++ rest) ⟨digitsValue whole, e⟩ := by
  have spells := SpellsDecimal.mk all .none (List.append_ne_nil_of_left_ne_nil nonempty []) power
  simpa using spells

/-- Digits with a point among them, and an exponent or none. -/
theorem spellsDecimal_point {whole fraction rest : List Char} {e : ℤ} (all : AllDigits whole)
    (all' : AllDigits fraction) (nonempty : whole ≠ []) (power : SpellsExponent rest e) :
    SpellsDecimal (whole ++ '.' :: (fraction ++ rest))
      ⟨digitsValue (whole ++ fraction), e - fraction.length⟩ :=
  .mk all (.point all') (List.append_ne_nil_of_left_ne_nil nonempty fraction) power

/-- A decimal is read with the sign in front of it. -/
theorem ofChars?_withSign (negative : Bool) {body : List Char} {d : Decimal}
    (decimal : SpellsDecimal body d) :
    ofChars? (Notation.withSign negative body) = some (.decimal negative d) := by
  apply ofChars?_eq_some_iff.2
  cases negative with
  | false => exact .decimal .none decimal
  | true => exact .decimal .minus decimal

/-! ## Decimals -/

theorem isDigit_of_mem_replicate {count : ℕ} {c : Char} (mem : c ∈ List.replicate count '0') :
    c.isDigit = true := by
  rw [List.eq_of_mem_replicate mem]
  rfl

/-- Zeros in front of the point. -/
theorem spellsDecimal_append_zeros (n count : ℕ) :
    SpellsDecimal (digits n ++ List.replicate count '0') ⟨10 ^ count * n, 0⟩ := by
  have all : AllDigits (digits n ++ List.replicate count '0') := by
    intro c mem
    rcases List.mem_append.1 mem with mem | mem
    · exact isDigit_of_mem_digits mem
    · exact isDigit_of_mem_replicate mem
  have spells := spellsDecimal_whole all
    (List.append_ne_nil_of_left_ne_nil Nat.toDigits_ne_nil _) .none
  rwa [List.append_nil, digitsValue_append_zeros, digitsValue_digits] at spells

/-- Digits behind the point, after zeros if there are too few. -/
theorem spellsDecimal_withPoint {places : ℕ} (some_places : places ≠ 0) (n : ℕ) :
    SpellsDecimal (withPoint places (digits n)) ⟨n, -(places : ℤ)⟩ := by
  rw [withPoint, if_neg some_places]
  set padded := List.replicate (places + 1 - (digits n).length) '0' ++ digits n with padded_eq
  have all : AllDigits padded := by
    intro c mem
    rcases List.mem_append.1 mem with mem | mem
    · exact isDigit_of_mem_replicate mem
    · exact isDigit_of_mem_digits mem
  have long : places < padded.length := by
    rw [padded_eq, List.length_append, List.length_replicate]
    omega
  have front : AllDigits (padded.take (padded.length - places)) :=
    fun c mem => all c (List.mem_of_mem_take mem)
  have back : AllDigits (padded.drop (padded.length - places)) :=
    fun c mem => all c (List.mem_of_mem_drop mem)
  have nonempty : padded.take (padded.length - places) ≠ [] := by
    rw [← List.length_pos_iff, List.length_take]
    omega
  have count : (padded.drop (padded.length - places)).length = places := by
    rw [List.length_drop]
    omega
  have spells := spellsDecimal_point front back nonempty .none
  rwa [List.append_nil, List.take_append_drop, count, padded_eq, digitsValue_zeros_append,
    digitsValue_digits, zero_sub] at spells

/-- A decimal without zeros after its coefficient is spelled digit by digit in its positional form.
-/
theorem spellsDecimal_positional {d : Decimal} (places : d.exponent ≤ 0) :
    SpellsDecimal d.positional d := by
  obtain ⟨n, e⟩ := d
  obtain ⟨count, rfl⟩ : ∃ count : ℕ, e = -(count : ℤ) := Int.exists_eq_neg_ofNat places
  cases count with
  | zero =>
    have spells := spellsDecimal_append_zeros n 0
    rwa [pow_zero, one_mul] at spells
  | succ count => exact spellsDecimal_withPoint count.succ_ne_zero n

/-- A decimal in its positional form has its value. -/
theorem exists_spellsDecimal_positional (d : Decimal) :
    ∃ e, SpellsDecimal d.positional e ∧ e.toRat = d.toRat := by
  rcases le_or_gt d.exponent 0 with places | multiple
  · exact ⟨d, spellsDecimal_positional places, rfl⟩
  · rw [positional, if_pos multiple.le]
    refine ⟨_, spellsDecimal_append_zeros d.coefficient d.exponent.toNat, ?_⟩
    obtain ⟨zeros, exponent⟩ := Int.eq_ofNat_of_zero_le multiple.le
    rw [Decimal.toRat, Decimal.toRat, exponent, Int.toNat_natCast, zpow_natCast, zpow_zero, mul_one,
      mul_comm]
    push_cast
    rfl

theorem spellsExponent_intDigits (e : ℤ) : SpellsExponent ('e' :: intDigits e) e := by
  have all := allDigits_digits e.natAbs
  rcases lt_or_ge e 0 with negative | nonneg
  · have spells := SpellsExponent.digits (.inl rfl) .minus all Nat.toDigits_ne_nil
    rw [digitsValue_digits, if_pos rfl, Int.ofNat_natAbs_of_nonpos negative.le, neg_neg] at spells
    rwa [intDigits, if_pos negative]
  · have spells := SpellsExponent.digits (.inl rfl) .none all Nat.toDigits_ne_nil
    rw [digitsValue_digits, if_neg Bool.false_ne_true, Int.natAbs_of_nonneg nonneg] at spells
    rwa [intDigits, if_neg nonneg.not_gt]

/-- A decimal is spelled digit by digit in its scientific form. -/
theorem spellsDecimal_scientific (d : Decimal) : SpellsDecimal d.scientific d := by
  obtain ⟨n, e⟩ := d
  have all := allDigits_digits n
  have value := digitsValue_digits n
  unfold Decimal.scientific Decimal.leadingExponent
  dsimp only
  match form : digits n with
  | [] => exact absurd form Nat.toDigits_ne_nil
  | [c] =>
    rw [form] at all value
    have spells := spellsDecimal_whole all (List.cons_ne_nil c []) (spellsExponent_intDigits e)
    rw [value] at spells
    simpa [scientificForm] using spells
  | c :: c' :: cs =>
    rw [form] at all value
    obtain ⟨digit, others⟩ := List.forall_mem_cons.1 all
    have spells := spellsDecimal_point (List.forall_mem_singleton.2 digit) others
      (List.cons_ne_nil c []) (spellsExponent_intDigits (e + (c :: c' :: cs).length - 1))
    rw [List.singleton_append, List.singleton_append, value] at spells
    have exponent : e + (c :: c' :: cs).length - 1 - (c' :: cs).length = e := by
      simp only [List.length_cons, Nat.cast_add, Nat.cast_one]
      ring
    rwa [exponent] at spells

/-! ## Doubles -/

open Binary64 (Canonical magnitude magnitude_bounds magnitudeBits_magnitude ofMagnitudeBits packed)

/-- Decimals of the size of doubles are not too large to be computed. -/
theorem leadingExponent_lt {d : Decimal} (nonzero : d.coefficient ≠ 0) (high : d.toRat < 2 ^ 1025) :
    d.leadingExponent < 400 := by
  have ten : (1 : ℚ) < 10 := by norm_num
  have large : (2 : ℚ) ^ 1025 ≤ 10 ^ ((400 : ℕ) : ℤ) := by
    rw [zpow_natCast]
    exact_mod_cast (by decide +kernel : 2 ^ 1025 ≤ 10 ^ 400)
  have below := (Decimal.leadingExponent_spec nonzero).1.trans_lt (high.trans_le large)
  rwa [zpow_lt_zpow_iff_right₀ ten] at below

/-- And they are not too small. -/
theorem le_leadingExponent {d : Decimal} (nonzero : d.coefficient ≠ 0)
    (low : (2 ^ 1075)⁻¹ ≤ d.toRat) : -400 ≤ d.leadingExponent := by
  have ten : (1 : ℚ) < 10 := by norm_num
  have small : (10 : ℚ) ^ (-(400 : ℕ) : ℤ) ≤ (2 ^ 1075)⁻¹ := by
    rw [zpow_neg, zpow_natCast]
    refine inv_anti₀ (by positivity) ?_
    exact_mod_cast (by decide +kernel : 2 ^ 1075 ≤ 10 ^ 400)
  have above := (small.trans low).trans_lt (Decimal.leadingExponent_spec nonzero).2
  rw [zpow_lt_zpow_iff_right₀ ten] at above
  omega

/-- A decimal that stands for a double is read as that double. -/
theorem decimalToFloat_eq (negative : Bool) {mantissa : ℕ} {exponent : ℤ} {d : Decimal}
    (canonical : Canonical mantissa exponent) (nonzero : mantissa ≠ 0)
    (stands : Decimal.StandsFor (magnitude mantissa exponent) d) :
    decimalToFloat negative d = ofMagnitudeBits negative (packed mantissa exponent) := by
  obtain ⟨least, greatest⟩ := magnitude_bounds canonical nonzero
  obtain ⟨coefficient, same, half_le, le_double⟩ := stands
  have positive := Decimal.toRat_pos coefficient
  have low : (2 ^ 1075)⁻¹ ≤ d.toRat := by
    rw [pow_succ, mul_inv, ← div_eq_mul_inv, div_le_iff₀ two_pos, mul_comm]
    exact least.trans half_le
  have high : d.toRat < 2 ^ 1025 := by
    calc d.toRat ≤ 2 * magnitude mantissa exponent := le_double
      _ < 2 * 2 ^ 1024 := mul_lt_mul_of_pos_left greatest two_pos
      _ = 2 ^ 1025 := (pow_succ' 2 1024).symm
  have not_large := leadingExponent_lt coefficient high
  have not_small := le_leadingExponent coefficient low
  have bits : Binary64.magnitudeBits d.toRat = packed mantissa exponent :=
    same.trans (magnitudeBits_magnitude canonical nonzero)
  unfold decimalToFloat
  rw [if_neg coefficient, if_neg (by omega), if_neg (by omega)]
  rw [Binary64.ofRat_signed negative positive, bits]

theorem decimalToFloat_natCast {n : ℕ} (lt : n < 2 ^ 32) :
    decimalToFloat false ⟨n, 0⟩ = Binary64.ofRat n := by
  have value : Decimal.toRat ⟨n, 0⟩ = n := by rw [Decimal.toRat, zpow_zero, mul_one]
  unfold decimalToFloat
  rcases Nat.eq_zero_or_pos n with rfl | positive
  · rw [if_pos rfl, Nat.cast_zero, Binary64.ofRat, if_pos rfl]
  · have one : (1 : ℚ) ≤ n := by exact_mod_cast positive
    have low : ((2 : ℚ) ^ 1075)⁻¹ ≤ n := (inv_le_one_of_one_le₀ (one_le_pow₀ one_le_two)).trans one
    have high : (n : ℚ) < 2 ^ 1025 := by
      calc (n : ℚ) < 2 ^ 32 := by exact_mod_cast lt
        _ ≤ 2 ^ 1025 := pow_le_pow_right₀ one_le_two (by decide)
    rw [← value] at low high
    have not_large := leadingExponent_lt (d := ⟨n, 0⟩) positive.ne' high
    have not_small := le_leadingExponent (d := ⟨n, 0⟩) positive.ne' low
    rw [if_neg positive.ne', if_neg (by omega), if_neg (by omega), value]
    rfl

end Numeral

/-- A finite double is read back from its text. -/
theorem parseFloat?_plain {x : Float} (finite : Binary64.isFinite x = true) :
    parseFloat? (Notation.plain x) = some x := by
  obtain ⟨negative, mantissa, exponent, reading⟩ := Binary64.exists_of_isFinite finite
  obtain ⟨canonical, same⟩ := Binary64.read_eq_finite_iff.1 reading
  rw [parseFloat?, Notation.plain, Notation.write, reading, String.toList_ofList]
  dsimp only
  rcases eq_or_ne mantissa 0 with rfl | nonzero
  · have zero : Binary64.magnitude 0 exponent = 0 := by simp [Binary64.magnitude]
    have least : exponent = -1074 := canonical.normal.resolve_right (by decide)
    have spells := Numeral.spellsDecimal_append_zeros 0 0
    rw [if_pos zero, same, least]
    exact congrArg (Option.map Numeral.toFloat) (Numeral.ofChars?_withSign negative spells)
  · have positive := Binary64.magnitude_pos exponent nonzero
    obtain ⟨d, spells, value⟩ := Numeral.exists_spellsDecimal_positional
      (Decimal.shortest (Binary64.magnitude mantissa exponent))
    have stands := (Decimal.shortest_spec exponent nonzero).congr value
    rw [if_neg positive.ne', Numeral.ofChars?_withSign negative spells, same]
    exact congrArg some (Numeral.decimalToFloat_eq negative canonical nonzero stands)

/-- A thread count is read back from its text. -/
theorem threadCount?_toString {n : ℕ} (lt : n < 2 ^ 32) : threadCount? (toString n) = some n := by
  have text : (toString n).toList = Notation.withSign false (digits n) := by
    rw [Nat.toString_eq_repr, Nat.toList_repr]
    rfl
  have spells := Numeral.spellsDecimal_whole (Numeral.allDigits_digits n) Nat.toDigits_ne_nil .none
  rw [List.append_nil, Numeral.digitsValue_digits] at spells
  have float : parseFloat? (toString n) = some (Binary64.ofRat n) := by
    rw [parseFloat?, text, Numeral.ofChars?_withSign false spells,
      ← Numeral.decimalToFloat_natCast lt]
    rfl
  have value : Binary64.toRat? (Binary64.ofRat n) = some (n : ℚ) :=
    Binary64.toRat?_ofRat_natCast (lt.trans (by decide))
  have nonneg : ¬(n : ℚ) < 0 := not_lt.2 (Nat.cast_nonneg n)
  have below : ¬threadBound ≤ n := by
    rw [not_le, threadBound]
    exact_mod_cast lt
  simp only [threadCount?, float, Option.bind_eq_bind, Option.bind_some, value]
  rw [if_neg (not_or.2 ⟨nonneg, below⟩), ← Int.cast_natCast, Rat.floor_intCast, Int.toNat_natCast]

theorem lt_of_threadCount? {s : String} {n : ℕ} (h : threadCount? s = some n) : n < 2 ^ 32 := by
  simp only [threadCount?, Option.bind_eq_bind, Option.bind_eq_some_iff] at h
  obtain ⟨x, -, count, -, cut⟩ := h
  split at cut
  case isTrue => cases cut
  case isFalse inside =>
    obtain ⟨nonneg, below⟩ := not_or.1 inside
    obtain rfl := Option.some.inj cut
    have floor : count.floor < 2 ^ 32 := by
      rw [Rat.floor_lt_iff]
      rw [not_le, threadBound] at below
      exact_mod_cast below
    omega

/-! ## Characters -/

/-- One of the characters from the minus sign to the digit nine: a sign, a point or a digit. -/
def IsNumberChar (c : Char) : Prop := 45 ≤ c.toNat ∧ c.toNat ≤ 57

instance (c : Char) : Decidable (IsNumberChar c) := inferInstanceAs (Decidable (_ ∧ _))

theorem isNumberChar_of_isDigit {c : Char} (digit : c.isDigit = true) : IsNumberChar c := by
  have number : c.toNat = c.val.toNat := rfl
  simp only [Char.isDigit, ge_iff_le, Bool.and_eq_true, decide_eq_true_eq,
    UInt32.le_iff_toNat_le] at digit
  exact ⟨le_trans (by decide) digit.1, digit.2⟩

theorem isNumberChar_of_mem_withPoint {places n : ℕ} {c : Char}
    (mem : c ∈ withPoint places (digits n)) : IsNumberChar c := by
  have padded {count : ℕ} : ∀ c ∈ List.replicate count '0' ++ digits n, IsNumberChar c := by
    intro c mem
    rcases List.mem_append.1 mem with mem | mem
    · exact isNumberChar_of_isDigit (Numeral.isDigit_of_mem_replicate mem)
    · exact isNumberChar_of_isDigit (Numeral.isDigit_of_mem_digits mem)
  unfold withPoint at mem
  split at mem
  case isTrue => exact padded c mem
  case isFalse =>
    rcases List.mem_append.1 mem with mem | mem
    · exact padded c (List.mem_of_mem_take mem)
    · rcases List.mem_cons.1 mem with rfl | mem
      · exact ⟨by decide, by decide⟩
      · exact padded c (List.mem_of_mem_drop mem)

theorem isNumberChar_of_mem_positional {d : Decimal} {c : Char} (mem : c ∈ d.positional) :
    IsNumberChar c := by
  unfold positional at mem
  split at mem
  case isTrue =>
    rcases List.mem_append.1 mem with mem | mem
    · exact isNumberChar_of_isDigit (Numeral.isDigit_of_mem_digits mem)
    · exact isNumberChar_of_isDigit (Numeral.isDigit_of_mem_replicate mem)
  case isFalse => exact isNumberChar_of_mem_withPoint mem

theorem isNumberChar_of_mem_plain {x : Float} (finite : Binary64.isFinite x = true) {c : Char}
    (mem : c ∈ (Notation.plain x).toList) : IsNumberChar c := by
  obtain ⟨negative, mantissa, exponent, reading⟩ := Binary64.exists_of_isFinite finite
  rw [Notation.plain, Notation.write, reading, String.toList_ofList] at mem
  have magnitude {body : List Char} (own : ∀ c ∈ body, IsNumberChar c)
      (mem : c ∈ Notation.withSign negative body) : IsNumberChar c := by
    cases negative with
    | false => exact own c mem
    | true =>
      rcases List.mem_cons.1 mem with rfl | mem
      · exact ⟨by decide, by decide⟩
      · exact own c mem
  refine magnitude ?_ mem
  intro c mem
  split at mem
  · rw [List.mem_singleton.1 mem]
    exact ⟨by decide, by decide⟩
  · exact isNumberChar_of_mem_positional mem

theorem isNumberChar_of_mem_toString {n : ℕ} {c : Char} (mem : c ∈ (toString n).toList) :
    IsNumberChar c := by
  rw [Nat.toString_eq_repr, Nat.toList_repr] at mem
  exact isNumberChar_of_isDigit (Numeral.isDigit_of_mem_digits mem)

end ContentionChart
