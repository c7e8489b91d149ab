import ContentionChart.Proofs.LabelNumbers
import ContentionChart.Proofs.NearestDoubles

/-!
# Texts of thread counts

A text is a thread count if the double nearest to the number that it spells is one, and then the
part after the point is cut off. All whole numbers below the bound are doubles, and so is the bound.
Rounding therefore neither moves a whole number that has a place nor brings one past the bound back
below it, and it never changes the order of two counts.

## Main definitions

* `Numeral.Denotes` — a text spells a numeral for a number.
* `Numeral.SpellsWhole` — a text spells a whole number, digit by digit.

## Main statements

* `Numeral.toRat?_toFloat_eq_some_iff` — a numeral is read as the nearest double.
* `threadCount?_eq_some_iff_denotes` — the texts of thread counts.
* `threadCount?_of_spellsWhole` — whole numbers.
* `threadCount?_mono` — the order of thread counts.
-/

namespace ContentionChart

open Binary64 (IsNearest RoundsTo isDouble_natCast isDouble_zero isNearest_zero roundsTo_ofRat
  toRat?_infinity toRat?_zero)

namespace Numeral

variable {s : String} {cs ds : List Char} {n : Numeral} {q t : ℚ} {k : ℕ}

/-! ## Rounding numerals -/

/-- A decimal is rounded to the nearest double, also where that is known without computing it. -/
theorem roundsTo_decimalToFloat (negative : Bool) (d : Decimal) :
    RoundsTo (if negative then -d.toRat else d.toRat) (decimalToFloat negative d) := by
  have nonneg : 0 ≤ d.toRat := by
    unfold Decimal.toRat
    positivity
  have size : |if negative then -d.toRat else d.toRat| = d.toRat := by
    cases negative <;> simp [abs_of_nonneg nonneg]
  unfold decimalToFloat
  generalize (if negative then -d.toRat else d.toRat) = q at size
  split_ifs with zero large small
  · have none : d.toRat = 0 := by simp [Decimal.toRat, zero]
    obtain rfl : q = 0 := abs_eq_zero.1 (size.trans none)
    exact .finite (toRat?_zero negative) (.refl isDouble_zero)
  · refine .infinite (toRat?_infinity negative) ?_
    have high : 2 ^ 1025 ≤ d.toRat :=
      le_of_not_gt fun lt => large.not_gt (leadingExponent_lt zero lt)
    calc (2 : ℚ) ^ 1023 ≤ 2 ^ 1025 := pow_le_pow_right₀ one_le_two (by decide)
      _ ≤ |q| := size ▸ high
  · refine .finite (toRat?_zero negative) (isNearest_zero ?_)
    exact size ▸ lt_of_not_ge fun le => small.not_ge (le_leadingExponent zero le)
  · exact roundsTo_ofRat _

theorem toRat?_undefined : Binary64.toRat? Binary64.undefined = none := rfl

/-- A numeral is read as the double that is nearest to its number, if that double is of moderate
size. Infinities have no number. -/
theorem toRat?_toFloat_eq_some_iff (moderate : |t| < 2 ^ 1023) :
    Binary64.toRat? n.toFloat = some t ↔ ∃ q, n.toRat? = some q ∧ IsNearest q t := by
  cases n with
  | decimal negative d =>
    simpa [toRat?, toFloat] using (roundsTo_decimalToFloat negative d).toRat?_eq_some_iff moderate
  | infinite negative => simp [toRat?, toFloat, toRat?_infinity]
  | undefined => simp [toRat?, toFloat, toRat?_undefined]

/-! ## Numbers in texts -/

/-- A text spells a numeral for a number. -/
def Denotes (s : String) (q : ℚ) : Prop := ∃ n, Spells s.toList n ∧ n.toRat? = some q

theorem Denotes.unique {p : ℚ} (h : Denotes s p) (h' : Denotes s q) : p = q := by
  obtain ⟨n, spells, number⟩ := h
  obtain ⟨n', spells', number'⟩ := h'
  have same := (ofChars?_eq_some_iff.2 spells).symm.trans (ofChars?_eq_some_iff.2 spells')
  grind

/-- Reading a text finds the double that is nearest to the number in it. -/
theorem exists_parseFloat?_iff (moderate : |t| < 2 ^ 1023) :
    (∃ x, parseFloat? s = some x ∧ Binary64.toRat? x = some t) ↔
      ∃ q, Denotes s q ∧ IsNearest q t := by
  simp only [parseFloat?, Option.map_eq_some_iff, ofChars?_eq_some_iff, Denotes]
  constructor
  · rintro ⟨_, ⟨n, spells, rfl⟩, value⟩
    obtain ⟨q, number, nearest⟩ := (toRat?_toFloat_eq_some_iff moderate).1 value
    exact ⟨q, ⟨n, spells, number⟩, nearest⟩
  · rintro ⟨q, ⟨n, spells, number⟩, nearest⟩
    exact ⟨_, ⟨n, spells, rfl⟩, (toRat?_toFloat_eq_some_iff moderate).2 ⟨q, number, nearest⟩⟩

/-- A whole number in decimal digits, any of them zeros in front: with a plus or nothing before
them, and with a point and zeros or nothing behind them. -/
inductive SpellsWhole : List Char → ℕ → Prop
  | mk {sign ds point : List Char} (plus : sign = [] ∨ sign = ['+']) (all : AllDigits ds)
      (nonempty : ds ≠ []) (zeros : point = [] ∨ ∃ count, point = '.' :: List.replicate count '0') :
      SpellsWhole (sign ++ (ds ++ point)) (digitsValue ds)

/-- Zeros behind the point do not change a number. -/
theorem spellsDecimal_zeros (all : AllDigits ds) (nonempty : ds ≠ []) (count : ℕ) :
    ∃ d, SpellsDecimal (ds ++ '.' :: List.replicate count '0') d ∧ d.toRat = digitsValue ds := by
  have zeros : AllDigits (List.replicate count '0') := fun c => isDigit_of_mem_replicate
  have spells := spellsDecimal_point all zeros nonempty .none
  rw [List.append_nil] at spells
  refine ⟨_, spells, ?_⟩
  have power : (10 : ℚ) ^ count ≠ 0 := by positivity
  simp [Decimal.toRat, digitsValue_append_zeros]
  field_simp

theorem SpellsWhole.denotes (whole : SpellsWhole s.toList k) : Denotes s k := by
  generalize same : s.toList = cs at whole
  obtain @⟨sign, ds, point, plus, all, nonempty, zeros⟩ := whole
  have signed : SpellsSign sign false := by
    rcases plus with rfl | rfl
    · exact .none
    · exact .plus
  obtain ⟨d, decimal, value⟩ :
      ∃ d, SpellsDecimal (ds ++ point) d ∧ d.toRat = digitsValue ds := by
    rcases zeros with rfl | ⟨count, rfl⟩
    · exact ⟨_, spellsDecimal_whole all nonempty .none, by simp [Decimal.toRat]⟩
    · exact spellsDecimal_zeros all nonempty count
  refine ⟨.decimal false d, same ▸ .decimal signed decimal, ?_⟩
  simp [toRat?, value]

end Numeral

/-! ## Thread counts -/

open Numeral (Denotes SpellsWhole)

variable {s s' : String} {n n' k : ℕ} {p q : ℚ}

theorem toNat_floor_eq_iff (nonneg : 0 ≤ q) : q.floor.toNat = n ↔ n ≤ q ∧ q < n + 1 := by
  have floor : q.floor.toNat = ⌊q⌋₊ := rfl
  rw [floor, Nat.floor_eq_iff nonneg]

/-- The part of a number after the point is cut off. -/
theorem threadCount?_eq_some_iff :
    threadCount? s = some n ↔
      ∃ x t, parseFloat? s = some x ∧ Binary64.toRat? x = some t ∧ 0 ≤ t ∧ t < 2 ^ 32 ∧
        n ≤ t ∧ t < n + 1 := by
  have bound : threadBound = 2 ^ 32 := by norm_num [threadBound]
  simp only [threadCount?, bound, Option.bind_eq_bind, Option.bind_eq_some_iff,
    Option.ite_none_left_eq_some, not_or, not_lt, not_le, Option.some_inj]
  constructor
  · rintro ⟨x, read, t, value, ⟨nonneg, below⟩, cut⟩
    exact ⟨x, t, read, value, nonneg, below, (toNat_floor_eq_iff nonneg).1 cut⟩
  · rintro ⟨x, t, read, value, nonneg, below, cut⟩
    exact ⟨x, read, t, value, ⟨nonneg, below⟩, (toNat_floor_eq_iff nonneg).2 cut⟩

/-- The texts of thread counts, by the nearest doubles of their numbers. -/
theorem threadCount?_eq_some_iff_denotes :
    threadCount? s = some n ↔
      ∃ q t, Denotes s q ∧ IsNearest q t ∧ 0 ≤ t ∧ t < 2 ^ 32 ∧ n ≤ t ∧ t < n + 1 := by
  have moderate {t : ℚ} (nonneg : 0 ≤ t) (below : t < 2 ^ 32) : |t| < 2 ^ 1023 := by
    rw [abs_of_nonneg nonneg]
    exact below.trans_le (pow_le_pow_right₀ one_le_two (by decide))
  rw [threadCount?_eq_some_iff]
  constructor
  · rintro ⟨x, t, read, value, nonneg, below, cut⟩
    obtain ⟨q, denotes, nearest⟩ :=
      (Numeral.exists_parseFloat?_iff (moderate nonneg below)).1 ⟨x, read, value⟩
    exact ⟨q, t, denotes, nearest, nonneg, below, cut⟩
  · rintro ⟨q, t, denotes, nearest, nonneg, below, cut⟩
    obtain ⟨x, read, value⟩ :=
      (Numeral.exists_parseFloat?_iff (moderate nonneg below)).2 ⟨q, denotes, nearest⟩
    exact ⟨x, t, read, value, nonneg, below, cut⟩

/-- Whole numbers are read as they are below the bound, and refused from it on. -/
theorem threadCount?_of_spellsWhole (whole : SpellsWhole s.toList k) :
    threadCount? s = if k < 2 ^ 32 then some k else none := by
  split
  case isTrue small =>
    have double := isDouble_natCast (small.trans (by decide))
    have below : (k : ℚ) < 2 ^ 32 := by exact_mod_cast small
    exact threadCount?_eq_some_iff_denotes.2
      ⟨k, k, whole.denotes, .refl double, k.cast_nonneg, below, le_rfl, lt_add_one _⟩
  case isFalse large =>
    refine Option.eq_none_iff_forall_ne_some.2 fun n read => ?_
    obtain ⟨q, t, denotes, nearest, -, below, -⟩ := threadCount?_eq_some_iff_denotes.1 read
    obtain rfl := denotes.unique whole.denotes
    -- The bound is a double itself, and not above the number.
    have bound : IsNearest ((2 ^ 32 : ℕ) : ℚ) ((2 ^ 32 : ℕ) : ℚ) :=
      .refl (isDouble_natCast (by decide))
    have above := bound.mono nearest (by exact_mod_cast not_lt.1 large)
    push_cast at above
    exact below.not_ge above

/-- A text for a greater number does not denote fewer threads. -/
theorem threadCount?_mono (denotes : Denotes s p) (denotes' : Denotes s' q) (le : p ≤ q)
    (read : threadCount? s = some n) (read' : threadCount? s' = some n') : n ≤ n' := by
  obtain ⟨_, t, same, nearest, -, -, low, -⟩ := threadCount?_eq_some_iff_denotes.1 read
  obtain ⟨_, t', same', nearest', -, -, -, high⟩ := threadCount?_eq_some_iff_denotes.1 read'
  obtain rfl := same.unique denotes
  obtain rfl := same'.unique denotes'
  have between : (n : ℚ) < n' + 1 :=
    calc (n : ℚ) ≤ t := low
      _ ≤ t' := nearest.mono nearest' le
      _ < n' + 1 := high
  exact Nat.lt_succ_iff.1 (by exact_mod_cast between)

/-- A text denotes a thread count exactly if it is a numeral whose nearest double is not negative
and below the bound, and then the count is that double without the part after the point. So whole
numbers are read as they are, of any size and spelling, and counts are in the order of the numbers
that are spelled. -/
theorem threadCount?_nearest (s : String) :
    (∀ n : ℕ, threadCount? s = some n ↔
      ∃ q t, Denotes s q ∧ IsNearest q t ∧ 0 ≤ t ∧ t < 2 ^ 32 ∧ n ≤ t ∧ t < n + 1) ∧
    (∀ k, SpellsWhole s.toList k → threadCount? s = if k < 2 ^ 32 then some k else none) ∧
    ∀ s' p q n n', Denotes s p → Denotes s' q → p ≤ q → threadCount? s = some n →
      threadCount? s' = some n' → n ≤ n' :=
  ⟨fun _ => threadCount?_eq_some_iff_denotes, fun _ => threadCount?_of_spellsWhole,
    fun _ _ _ _ _ => threadCount?_mono⟩

/-- The last whole number that is read and the first that is refused, and two numbers that are
read in their order. The first of these is rounded up to a whole number. -/
theorem threadCount?_nearest_bound :
    threadCount? "+004294967295.00" = some 4294967295 ∧ threadCount? "4294967296" = none ∧
      (∃ q t, Denotes "2.9999999999999999999" q ∧ IsNearest q t ∧ 0 ≤ t ∧ t < 2 ^ 32 ∧
        (3 : ℕ) ≤ t ∧ t < (3 : ℕ) + 1) ∧
      3 ≤ 5 := by
  have last : SpellsWhole "+004294967295.00".toList 4294967295 :=
    @SpellsWhole.mk ['+'] "004294967295".toList ['.', '0', '0'] (.inr rfl)
      (List.all_eq_true.1 rfl) nofun (.inr ⟨2, rfl⟩)
  have first : SpellsWhole "4294967296".toList 4294967296 :=
    @SpellsWhole.mk [] "4294967296".toList [] (.inl rfl) (List.all_eq_true.1 rfl) nofun (.inl rfl)
  have close : Denotes "2.9999999999999999999" (29999999999999999999 / 10 ^ 19) :=
    ⟨.decimal false ⟨29999999999999999999, -19⟩, Numeral.ofChars?_eq_some_iff.1 (by decide),
      by norm_num [Numeral.toRat?, Decimal.toRat]⟩
  have five : Denotes "55e-1" (11 / 2) :=
    ⟨.decimal false ⟨55, -1⟩, Numeral.ofChars?_eq_some_iff.1 (by decide),
      by norm_num [Numeral.toRat?, Decimal.toRat]⟩
  have read : threadCount? "2.9999999999999999999" = some 3 := by decide +kernel
  refine ⟨(threadCount?_nearest _).2.1 _ last, (threadCount?_nearest _).2.1 _ first,
    ((threadCount?_nearest _).1 3).1 read, ?_⟩
  exact (threadCount?_nearest _).2.2 _ _ _ _ _ close five (by norm_num) read (by decide +kernel)

end ContentionChart
