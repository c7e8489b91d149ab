import ContentionChart.Chart.Label
import ContentionChart.Proofs.DoubleOrder
import ContentionChart.Proofs.NumberTexts

/-!
# Labels

A label shows a throughput with few digits. It is read back as the decimal that the throughput was
rounded to, so that two labels are the same only if two throughputs were rounded to the same
decimal.

## Main definitions

* `Label.rounded`, `Label.unit` — the decimal on a label, and a step of its last digit.
* `Label.numeral`, `Label.spelled` — what a label spells.
* `Label.Alike` — throughputs that labels do not tell apart.

## Main statements

* `Label.abs_rounded_sub_le` — a label is off by at most one half of a step of its last digit.
* `Label.ofChars?_text` — a label is read as what it was written for.
* `Label.ofThroughput_eq_iff` — which labels are the same.
-/

namespace ContentionChart

open Binary64 (roundHalfEven)

/-! ## Rounding to decimals -/

namespace Decimal

variable {q : ℚ}

/-- Rounding to a power of ten gives the nearest multiple of it. -/
theorem toRat_roundTo (exponent : ℤ) (nonneg : 0 ≤ q) :
    (roundTo exponent q).toRat = roundHalfEven (q / 10 ^ exponent) * 10 ^ exponent := by
  have power : (0 : ℚ) < 10 ^ exponent := zpow_pos (by norm_num) _
  have count : 0 ≤ roundHalfEven (q / 10 ^ exponent) :=
    Binary64.le_roundHalfEven (by rw [Int.cast_zero]; positivity)
  rw [roundTo, toRat, ← Int.cast_natCast, Int.toNat_of_nonneg count]

/-- Rounding to a number of digits is rounding to the last of them. Where the digits are all nines
and round up, the last one is the next. -/
theorem toSignificant_spec {count : ℕ} (some_digits : 0 < count) (positive : 0 < q) :
    let last := decimalExponent q - count + 1
    ((toSignificant count q).exponent = last ∨ (toSignificant count q).exponent = last + 1) ∧
      (toSignificant count q).toRat = (roundTo last q).toRat := by
  intro last
  have power : (0 : ℚ) < 10 ^ last := zpow_pos (by norm_num) _
  have most : roundHalfEven (q / 10 ^ last) ≤ (10 ^ count : ℕ) := by
    refine Binary64.roundHalfEven_le ?_
    have top := (decimalExponent_spec positive).2
    rw [div_le_iff₀ power]
    calc q ≤ 10 ^ (count + last) := top.le.trans_eq (by congr 1; omega)
      _ = ((10 ^ count : ℕ) : ℤ) * 10 ^ last := by
        rw [zpow_add₀ (by norm_num), zpow_natCast]
        norm_num
  unfold toSignificant
  dsimp only
  split
  case isTrue => exact ⟨.inl rfl, rfl⟩
  case isFalse longer =>
    -- One digit too many is a power of ten, which keeps its value without its last zero.
    refine ⟨.inr rfl, ?_⟩
    have carried : (roundTo last q).coefficient = 10 ^ count := by
      rw [digits, Nat.length_toDigits_le_iff (by decide) some_digits, not_lt] at longer
      exact le_antisymm (Int.toNat_le.2 most) longer
    have exponent : (roundTo last q).exponent = last := rfl
    obtain ⟨count, rfl⟩ := Nat.exists_eq_succ_of_ne_zero some_digits.ne'
    change toRat ⟨(roundTo last q).coefficient / 10, last + 1⟩ = _
    rw [toRat, toRat, carried, exponent, Nat.pow_succ, Nat.mul_div_cancel _ (by decide),
      zpow_add_one₀ (by norm_num)]
    push_cast
    ring

end Decimal

namespace Label

open Decimal (toPlaces toSignificant decimalExponent)

variable {p q : ℚ} {x y : Float}

/-! ## Digits of a label -/

/-- The decimal that stands for a positive magnitude. -/
def rounded (q : ℚ) : Decimal :=
  if 100000 ≤ q ∨ q < 1 / 100 then toSignificant 2 q
  else if 100 ≤ q then toPlaces 0 q
  else toPlaces 2 q

/-- What one step of the last digit of a label stands for: the second digit of a magnitude that is
written with an exponent, the units of one without places, and hundredths otherwise. -/
def unit (q : ℚ) : ℚ :=
  if 100000 ≤ q ∨ q < 1 / 100 then 10 ^ (decimalExponent q - 1)
  else if 100 ≤ q then 1
  else 1 / 100

theorem unit_pos (q : ℚ) : 0 < unit q := by
  unfold unit
  split_ifs <;> positivity

theorem unit_le (positive : 0 < q) : unit q ≤ q := by
  unfold unit
  split_ifs with exponent whole
  · calc (10 : ℚ) ^ (decimalExponent q - 1) ≤ 10 ^ decimalExponent q :=
          zpow_le_zpow_right₀ (by norm_num) (by omega)
      _ ≤ q := (Decimal.decimalExponent_spec positive).1
  · linarith
  · linarith [not_or.1 exponent]

/-- The number on a label is the nearest one that its digits can show. -/
theorem toRat_rounded (positive : 0 < q) :
    (rounded q).toRat = roundHalfEven (q / unit q) * unit q := by
  unfold rounded unit
  split_ifs
  · have last : decimalExponent q - (2 : ℕ) + 1 = decimalExponent q - 1 := by push_cast; ring
    rw [(Decimal.toSignificant_spec two_pos positive).2, last, Decimal.toRat_roundTo _ positive.le]
  · rw [toPlaces, Decimal.toRat_roundTo _ positive.le, Nat.cast_zero, neg_zero, zpow_zero]
  · have hundredth : (10 : ℚ) ^ (-(2 : ℕ) : ℤ) = 1 / 100 := by norm_num
    rw [toPlaces, Decimal.toRat_roundTo _ positive.le, hundredth]

/-- A label is off by at most one half of a step of its last digit. -/
theorem abs_rounded_sub_le (positive : 0 < q) : |(rounded q).toRat - q| ≤ unit q / 2 := by
  rw [toRat_rounded positive]
  exact Binary64.abs_roundHalfEven_mul_sub_le (unit_pos q) q

/-- The last place of a decimal that is written with an exponent is neither the units nor the
hundredths, so that the last place tells how a decimal is written. -/
theorem exponent_toSignificant (positive : 0 < q) (exponent : 100000 ≤ q ∨ q < 1 / 100) :
    4 ≤ (toSignificant 2 q).exponent ∨ (toSignificant 2 q).exponent ≤ -3 := by
  obtain ⟨low, high⟩ := Decimal.decimalExponent_spec positive
  have last := (Decimal.toSignificant_spec two_pos positive).1
  have ten : (1 : ℚ) < 10 := by norm_num
  push_cast at last
  rcases exponent with large | small
  · have lead : (10 : ℚ) ^ (5 : ℤ) < 10 ^ (decimalExponent q + 1) := by
      refine lt_of_le_of_lt ?_ high
      norm_num
      exact large
    rw [zpow_lt_zpow_iff_right₀ ten] at lead
    omega
  · have lead : (10 : ℚ) ^ decimalExponent q < 10 ^ (-2 : ℤ) := by
      refine low.trans_lt ?_
      norm_num at small ⊢
      exact small
    rw [zpow_lt_zpow_iff_right₀ ten] at lead
    omega

/-! ## Reading a label -/

/-- How a decimal is written on a label. -/
def write (d : Decimal) : List Char :=
  if d.exponent = 0 ∨ d.exponent = -2 then d.positional else d.scientific

theorem spellsDecimal_write (d : Decimal) : Numeral.SpellsDecimal (write d) d := by
  unfold write
  split
  case isTrue places => exact Numeral.spellsDecimal_positional (by omega)
  case isFalse => exact Numeral.spellsDecimal_scientific d

theorem ofMagnitude_eq (positive : 0 < q) : ofMagnitude q = write (rounded q) := by
  unfold ofMagnitude rounded write
  split_ifs with exponent last units last' places
  · have := exponent_toSignificant positive exponent
    omega
  · rw [Notation.magnitudeScientific, if_neg positive.ne']
  · rfl
  · exact absurd (.inl rfl) last'
  · rfl
  · exact absurd (.inr rfl) places

/-- The text of a numeral on a label. -/
def text : Numeral → String
  | .decimal negative d => String.ofList (Notation.withSign negative (write d))
  | .infinite negative => String.ofList (Notation.withSign negative ['i', 'n', 'f'])
  | .undefined => String.ofList ['N', 'a', 'N']

/-- A label is read as the numeral that it was written for. -/
theorem ofChars?_text (n : Numeral) : Numeral.ofChars? (text n).toList = some n := by
  cases n with
  | decimal negative d =>
    rw [text, String.toList_ofList]
    exact Numeral.ofChars?_withSign negative (spellsDecimal_write d)
  | infinite negative => cases negative <;> decide
  | undefined => decide

theorem text_injective : Function.Injective text := by
  intro m n same
  have read := congrArg (fun s : String => Numeral.ofChars? s.toList) same
  simpa [ofChars?_text] using read

/-- The numeral on the label of a finite throughput. -/
def numeral (q : ℚ) : Numeral := .decimal (q < 0) (if q = 0 then ⟨0, 0⟩ else rounded |q|)

/-- The text of a finite throughput, given by its exact value. -/
def ofRat (q : ℚ) : String := text (numeral q)

/-- The numeral on the label of a throughput. -/
def spelled (y : Float) : Numeral :=
  match Binary64.read y with
  | .finite negative mantissa exponent => numeral (Binary64.value negative mantissa exponent)
  | .infinite negative => .infinite negative
  | .undefined => .undefined

theorem ofThroughput_eq (y : Float) : ofThroughput y = text (spelled y) := by
  unfold ofThroughput Notation.write spelled Binary64.toRat?
  cases Binary64.read y with
  | finite negative m e =>
    simp only [Option.some.injEq, numeral]
    split
    case isTrue zero =>
      rw [zero]
      decide
    case isFalse nonzero =>
      obtain ⟨positive, sign, size⟩ := Binary64.value_spec nonzero
      rw [size, sign, ofMagnitude_eq positive]
      rfl
  | infinite negative => rfl
  | undefined => rfl

/-! ## Labels that are the same -/

theorem toRat_rounded_pos (positive : 0 < q) : 0 < (rounded q).toRat := by
  have low := (abs_le.1 (abs_rounded_sub_le positive)).1
  have unit := unit_le positive
  linarith

theorem numeral_eq_iff : numeral p = numeral q ↔ p = q ∨ 0 < p * q ∧ rounded |p| = rounded |q| := by
  have shown {q : ℚ} (nonzero : q ≠ 0) : rounded |q| ≠ ⟨0, 0⟩ := by
    intro none
    have positive := toRat_rounded_pos (abs_pos.2 nonzero)
    simp [none, Decimal.toRat] at positive
  rcases eq_or_ne p 0 with rfl | hp
  · rcases eq_or_ne q 0 with rfl | hq
    · simp
    · simp [numeral, hq, hq.symm, (shown hq).symm]
  · rcases eq_or_ne q 0 with rfl | hq
    · simp [numeral, hp, shown hp]
    · have sign : 0 < p * q ↔ (p < 0 ↔ q < 0) := by
        rw [mul_pos_iff]
        grind
      simp only [numeral, hp, hq, if_false, Numeral.decimal.injEq, decide_eq_decide, sign]
      grind

/-- Throughputs that labels do not tell apart. They are the same number, or they have the same sign
and their magnitudes are rounded to the same decimal. -/
def Alike (x y : Float) : Prop :=
  Binary64.number? x = Binary64.number? y ∨
    ∃ p q, Binary64.toRat? x = some p ∧ Binary64.toRat? y = some q ∧ 0 < p * q ∧
      rounded |p| = rounded |q|

/-- Labels are the same if and only if their throughputs are alike. -/
theorem ofThroughput_eq_iff : ofThroughput x = ofThroughput y ↔ Alike x y := by
  rw [ofThroughput_eq, ofThroughput_eq, text_injective.eq_iff]
  unfold spelled Alike Binary64.number? Binary64.toRat?
  cases Binary64.read x with
  | finite negative m e =>
    cases Binary64.read y with
    | finite negative' n f => simp [Binary64.Reading.number?, numeral_eq_iff]
    | infinite negative' => cases negative' <;> simp [Binary64.Reading.number?, numeral]
    | undefined => simp [Binary64.Reading.number?, numeral]
  | infinite negative =>
    cases negative <;> cases Binary64.read y with
    | finite negative' n f => simp [Binary64.Reading.number?, numeral]
    | infinite negative' => cases negative' <;> simp [Binary64.Reading.number?]
    | undefined => simp [Binary64.Reading.number?]
  | undefined => cases Binary64.read y <;> simp [Binary64.Reading.number?, numeral]

/-- Magnitudes on the same label are apart by at most one half of a step of the last digit of each.
-/
theorem abs_sub_le_of_rounded_eq (hp : 0 < p) (hq : 0 < q) (same : rounded p = rounded q) :
    |p - q| ≤ (unit p + unit q) / 2 := by
  have near := abs_rounded_sub_le hp
  have near' := abs_rounded_sub_le hq
  rw [abs_sub_comm] at near
  rw [← same] at near'
  linarith [abs_sub_le p (rounded p).toRat q]

theorem spelled_of_toRat? (h : Binary64.toRat? x = some q) : spelled x = numeral q := by
  obtain ⟨negative, m, e, reading, rfl⟩ := Binary64.toRat?_eq_some_iff.1 h
  rw [spelled, reading]

theorem ofThroughput_of_toRat? (h : Binary64.toRat? x = some q) : ofThroughput x = ofRat q := by
  rw [ofThroughput_eq, spelled_of_toRat? h, ofRat]

theorem ofRat_eq_iff : ofRat p = ofRat q ↔ p = q ∨ 0 < p * q ∧ rounded |p| = rounded |q| := by
  rw [ofRat, ofRat, text_injective.eq_iff, numeral_eq_iff]

/-- Throughputs on the same label are apart by at most one half of a step of the last digit of each.
-/
theorem abs_sub_le_of_ofRat_eq (same : ofRat p = ofRat q) :
    |p - q| ≤ (unit |p| + unit |q|) / 2 := by
  rcases ofRat_eq_iff.1 same with rfl | ⟨sign, same⟩
  · rw [sub_self, abs_zero]
    linarith [unit_pos |p|]
  · have near := abs_sub_le_of_rounded_eq (abs_pos.2 (left_ne_zero_of_mul sign.ne'))
      (abs_pos.2 (right_ne_zero_of_mul sign.ne')) same
    rcases mul_pos_iff.1 sign with ⟨hp, hq⟩ | ⟨hp, hq⟩
    · rwa [abs_of_pos hp, abs_of_pos hq] at near ⊢
    · rw [abs_of_neg hp, abs_of_neg hq] at near ⊢
      rwa [neg_sub_neg, abs_sub_comm] at near

/-- Neither of two throughputs on the same label is more than three times the other. -/
theorem abs_le_three_mul_of_ofRat_eq (same : ofRat p = ofRat q) : |q| ≤ 3 * |p| := by
  rcases ofRat_eq_iff.1 same with rfl | ⟨sign, rounded⟩
  · linarith [abs_nonneg p]
  · have near := abs_sub_le_of_ofRat_eq same
    have hp := unit_le (abs_pos.2 (left_ne_zero_of_mul sign.ne'))
    have hq := unit_le (abs_pos.2 (right_ne_zero_of_mul sign.ne'))
    linarith [abs_sub_abs_le_abs_sub q p, abs_sub_comm p q]

end Label

end ContentionChart
