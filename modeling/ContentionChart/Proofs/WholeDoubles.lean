import ContentionChart.ChartNumber
import ContentionChart.Proofs.DoubleArithmetic

/-!
# Whole doubles

Rounding a double to a whole one and taking its integer part keep the side of zero that it is on,
and so do quotients by what has no sign. What stands for no number is on neither side: it counts as
zero when its integer part is taken.

## Main definitions

* `NotNegative`, `NotPositive` — no number, or one on a side of zero.

## Main statements

* `toRat?_toWhole` — a double that is rounded to an integer.
* `NotNegative.floor`, `NotPositive.ceil`, `NotNegative.toIntWithin_nonneg`,
  `NotPositive.toIntWithin_nonpos` — the integers next to a double.
* `NotNegative.div`, `NotPositive.div` — quotients, by zero too.
-/

namespace ContentionChart.Binary64

open ChartNumber
open Float.Model (UnpackedFloat)

variable {x y : Float} {p q : ℚ} {m n : ℕ} {e f : ℤ} {negative : Bool} {least most : ℤ}

/-! ## Integer parts -/

theorem toIntWithin_bounds {least most : ℤ} (low : least ≤ 0) (high : 0 ≤ most) (x : Float) :
    least ≤ toIntWithin least most x ∧ toIntWithin least most x ≤ most := by
  unfold toIntWithin
  split
  case h_1 => omega
  case h_2 => split <;> omega
  case h_3 => exact ⟨low, high⟩

theorem toInt32_bounds (x : Float) : -0x80000000 ≤ toInt32 x ∧ toInt32 x ≤ 0x7fffffff :=
  toIntWithin_bounds (by decide) (by decide) x

/-- A double that is rounded to an integer stands for this integer if it has up to 53 bits. -/
theorem toRat?_toWhole {rule : ℚ → ℤ} (number : toRat? x = some q)
    (short : (rule q).natAbs < 2 * fractionCount) :
    toRat? (toWhole rule x) = some (rule q : ℚ) := by
  obtain ⟨negative, m, e, reading, rfl⟩ := toRat?_eq_some_iff.1 number
  simp only [toWhole, reading]
  split
  case isTrue zero => rw [toRat?_zero, zero, Int.cast_zero]
  case isFalse => exact toRat?_ofInt short

/-! ## Sides of zero -/

/-- No number, or one that is not below zero. -/
def NotNegative (x : Float) : Prop := ∀ a, number? x = some a → 0 ≤ a

/-- No number, or one that is not above zero. -/
def NotPositive (x : Float) : Prop := ∀ a, number? x = some a → a ≤ 0

theorem notNegative_of_toRat? (number : toRat? x = some q) (nonneg : 0 ≤ q) : NotNegative x := by
  rintro a place
  rw [number?_of_toRat? number, Option.some_inj] at place
  rw [← place]
  exact_mod_cast nonneg

theorem notPositive_of_toRat? (number : toRat? x = some q) (nonpos : q ≤ 0) : NotPositive x := by
  rintro a place
  rw [number?_of_toRat? number, Option.some_inj] at place
  rw [← place]
  exact_mod_cast nonpos

/-- A rounded number keeps its sign. -/
theorem number?_ofMagnitudeBits (negative : Bool) (positive : 0 < q) :
    ∃ a : EReal, 0 ≤ a ∧
      number? (ofMagnitudeBits negative (magnitudeBits q)) = some (if negative then -a else a) := by
  rcases magnitudeBits_spec positive with infinite | ⟨m, e, canonical, bits, -, -⟩
  · refine ⟨⊤, le_top, ?_⟩
    have reading : read (infinity negative) = .infinite negative := by
      cases negative <;> rfl
    rw [infinite, ← infinity, number?, reading, Reading.number?, EReal.neg_top]
  · have reading : read (ofMagnitudeBits negative (magnitudeBits q)) = .finite negative m e :=
      read_eq_finite_iff.2 ⟨canonical, by rw [bits]⟩
    refine ⟨((magnitude m e : ℝ) : EReal), by exact_mod_cast magnitude_nonneg m e, ?_⟩
    rw [number?, reading, Reading.number?]
    cases negative <;> simp [value]

theorem notNegative_ofRat (nonneg : 0 ≤ q) : NotNegative (ofRat q) := by
  intro b number
  rcases nonneg.eq_or_lt with rfl | positive
  · rw [number?_ofRat_zero, Option.some_inj] at number
    exact number.le
  · obtain ⟨a, size, number'⟩ := number?_ofMagnitudeBits false positive
    have double : ofRat q = ofMagnitudeBits false (magnitudeBits q) := ofRat_signed false positive
    rw [double, number', Option.some_inj] at number
    rw [← number]
    exact size

theorem notPositive_ofRat (nonpos : q ≤ 0) : NotPositive (ofRat q) := by
  intro b number
  rcases nonpos.eq_or_lt with rfl | below
  · rw [number?_ofRat_zero, Option.some_inj] at number
    exact number.ge
  · obtain ⟨a, size, number'⟩ := number?_ofMagnitudeBits true (neg_pos.2 below)
    have double : ofRat q = ofMagnitudeBits true (magnitudeBits (-q)) := by
      simpa using ofRat_signed true (neg_pos.2 below)
    rw [double, number', Option.some_inj] at number
    rw [← number]
    simpa using size

theorem NotNegative.of_number?_eq (h : NotNegative y) (same : number? x = number? y) :
    NotNegative x := by
  rwa [NotNegative, same]

theorem NotPositive.of_number?_eq (h : NotPositive y) (same : number? x = number? y) :
    NotPositive x := by
  rwa [NotPositive, same]

theorem NotNegative.value_nonneg (h : NotNegative x) (reading : read x = .finite negative m e) :
    0 ≤ value negative m e := by
  exact_mod_cast h _ (number?_of_toRat? (toRat?_of_read reading))

theorem NotPositive.value_nonpos (h : NotPositive x) (reading : read x = .finite negative m e) :
    value negative m e ≤ 0 := by
  exact_mod_cast h _ (number?_of_toRat? (toRat?_of_read reading))

/-! ## Integers next to a double -/

theorem NotNegative.floor (h : NotNegative x) : NotNegative (floor x) := by
  unfold Binary64.floor toWhole
  split
  case h_1 negative m e reading =>
    have nonneg := h.value_nonneg reading
    dsimp only
    split
    · exact notNegative_of_toRat? (toRat?_zero negative) le_rfl
    · have whole : 0 ≤ (value negative m e).floor := Rat.le_floor_iff.2 (by exact_mod_cast nonneg)
      exact notNegative_ofRat (Int.cast_nonneg whole)
  case h_2 => exact h

theorem NotPositive.ceil (h : NotPositive x) : NotPositive (ceil x) := by
  unfold Binary64.ceil toWhole
  split
  case h_1 negative m e reading =>
    have nonpos := h.value_nonpos reading
    dsimp only
    split
    · exact notPositive_of_toRat? (toRat?_zero negative) le_rfl
    · have whole : (value negative m e).ceil ≤ 0 := Rat.ceil_le_iff.2 (by exact_mod_cast nonpos)
      exact notPositive_ofRat (Int.cast_nonpos.2 whole)
  case h_2 => exact h

theorem NotNegative.toIntWithin_nonneg (h : NotNegative x) (high : 0 ≤ most) :
    0 ≤ toIntWithin least most x := by
  unfold Binary64.toIntWithin
  split
  case h_1 negative m e reading =>
    have nonneg := h.value_nonneg reading
    have whole : 0 ≤ truncate (value negative m e) := by
      rw [truncate, if_neg nonneg.not_gt]
      exact Rat.le_floor_iff.2 (by exact_mod_cast nonneg)
    omega
  case h_2 negative reading =>
    cases negative with
    | false => exact high
    | true =>
      have bottom := h ⊥ (by rw [number?, reading]; rfl)
      simp at bottom
  case h_3 => exact le_rfl

theorem NotPositive.toIntWithin_nonpos (h : NotPositive x) (low : least ≤ 0) :
    toIntWithin least most x ≤ 0 := by
  unfold Binary64.toIntWithin
  split
  case h_1 negative m e reading =>
    have nonpos := h.value_nonpos reading
    have whole : truncate (value negative m e) ≤ 0 := by
      unfold truncate
      split
      · have nonneg : 0 ≤ (-value negative m e).floor :=
          Rat.le_floor_iff.2 (by simpa using nonpos)
        omega
      case isFalse above =>
        rw [nonpos.antisymm (not_lt.1 above)]
        exact (Rat.floor_intCast 0).le
    omega
  case h_2 negative reading =>
    cases negative with
    | true => exact low
    | false =>
      have top := h ⊤ (by rw [number?, reading]; rfl)
      simp at top
  case h_3 => exact le_rfl

/-! ## Quotients by what has no sign -/

/-- A number is infinitely many times zero, and how many times zero is zero nobody knows. -/
theorem number?_div_zero (dividend : read x = .finite negative m e)
    (divisor : read y = .finite false 0 f) :
    number? (x / y) = if m = 0 then none else some (if negative then ⊥ else ⊤) := by
  have undefined : number? (ofUnpacked .notANumber) = none := by
    have reading : read (ofUnpacked .notANumber) = .undefined := rfl
    rw [number?, reading]
    rfl
  have infinite : number? (ofUnpacked (.infinity (signOf negative))) =
      some (if negative then ⊥ else ⊤) := by
    have reading : read (ofUnpacked (.infinity (signOf negative))) = .infinite negative := by
      cases negative <;> rfl
    rw [number?, reading]
    rfl
  rw [div_eq, dividend, divisor]
  split
  case isTrue zero =>
    rw [zero]
    exact undefined
  case isFalse some =>
    rw [unpacked_finite negative (Nat.pos_of_ne_zero some), ← infinite]
    cases negative <;> rfl

theorem NotNegative.div (dividend : toRat? x = some p) (nonneg : 0 ≤ p)
    (divisor : read y = .finite false n f) : NotNegative (x / y) := by
  rcases Nat.eq_zero_or_pos n with rfl | positive
  · obtain ⟨negative, m, e, reading, rfl⟩ := toRat?_eq_some_iff.1 dividend
    intro a place
    rw [number?_div_zero reading divisor] at place
    split at place
    case isTrue => cases place
    case isFalse some =>
      rw [← Option.some_inj.1 place]
      cases negative with
      | false => exact le_top
      | true =>
        have size := magnitude_pos e some
        simp only [value, if_true] at nonneg
        linarith
  · have size := magnitude_pos f positive.ne'
    have number : toRat? y = some (magnitude n f) := toRat?_of_read divisor
    exact (notNegative_ofRat (div_nonneg nonneg size.le)).of_number?_eq
      (number?_div dividend number size.ne')

theorem NotPositive.div (dividend : toRat? x = some p) (nonpos : p ≤ 0)
    (divisor : read y = .finite false n f) : NotPositive (x / y) := by
  rcases Nat.eq_zero_or_pos n with rfl | positive
  · obtain ⟨negative, m, e, reading, rfl⟩ := toRat?_eq_some_iff.1 dividend
    intro a place
    rw [number?_div_zero reading divisor] at place
    split at place
    case isTrue => cases place
    case isFalse some =>
      rw [← Option.some_inj.1 place]
      cases negative with
      | true => exact bot_le
      | false =>
        have size := magnitude_pos e some
        simp only [value, Bool.false_eq_true, if_false] at nonpos
        linarith
  · have size := magnitude_pos f positive.ne'
    have number : toRat? y = some (magnitude n f) := toRat?_of_read divisor
    exact (notPositive_ofRat (div_nonpos_of_nonpos_of_nonneg nonpos size.le)).of_number?_eq
      (number?_div dividend number size.ne')

/-- Adding a number without a sign keeps the side. -/
theorem NotNegative.add (h : NotNegative x) (term : read y = .finite false n f) :
    NotNegative (x + y) := by
  cases reading : read x with
  | finite negative m e =>
    have number := toRat?_of_read reading
    have number' : toRat? y = some (magnitude n f) := toRat?_of_read term
    have nonneg := add_nonneg (h.value_nonneg reading) (magnitude_nonneg n f)
    exact (notNegative_ofRat nonneg).of_number?_eq (number?_add number number')
  | infinite negative =>
    have same : x + y = ofUnpacked (.infinity (signOf negative)) := by
      rw [add_eq, reading, term]
      cases n <;> rfl
    have unchanged : read (x + y) = read x := by
      rw [same, reading]
      cases negative <;> rfl
    refine h.of_number?_eq ?_
    rw [number?, number?, unchanged]
  | undefined =>
    have same : x + y = ofUnpacked .notANumber := by
      rw [add_eq, reading]
      rfl
    have unchanged : read (x + y) = read x := by
      rw [same, reading]
      rfl
    refine h.of_number?_eq ?_
    rw [number?, number?, unchanged]

end ContentionChart.Binary64
