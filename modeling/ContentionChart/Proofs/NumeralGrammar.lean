import ContentionChart.Decimal.Numeral
import Mathlib.Data.List.TakeDrop
import Mathlib.Data.List.TakeWhile
import Mathlib.Tactic.IntervalCases

/-!
# The grammar of numerals

How numerals are spelled, said by rules that do not take a text apart: what a sign, an exponent, a
fraction, a decimal and a whole numeral look like, and what each of them stands for. Reading a text
finds a numeral in it exactly if the rules build the text, and finds the one that they say.

## Main definitions

* `Numeral.Spells` — a text spells a numeral.
* `Numeral.SpellsDecimal` — a text spells a decimal, without a sign.

## Main statements

* `Numeral.digits?_eq_some_iff` — the decimals that are read.
* `Numeral.ofChars?_eq_some_iff` — the numerals that are read.
-/

namespace ContentionChart.Numeral

/-! ## The rules -/

/-- A sign, or none, which counts as a plus. -/
inductive SpellsSign : List Char → Bool → Prop
  | none : SpellsSign [] false
  | plus : SpellsSign ['+'] false
  | minus : SpellsSign ['-'] true

/-- All characters are decimal digits. -/
def AllDigits (ds : List Char) : Prop := ∀ c ∈ ds, c.isDigit = true

/-- An exponent, or none, which counts as zero. -/
inductive SpellsExponent : List Char → ℤ → Prop
  | none : SpellsExponent [] 0
  | digits {letter : Char} {sign ds : List Char} {negative : Bool}
      (isLetter : letter = 'e' ∨ letter = 'E') (signed : SpellsSign sign negative)
      (all : AllDigits ds) (nonempty : ds ≠ []) :
      SpellsExponent (letter :: (sign ++ ds))
        (if negative then -(digitsValue ds : ℤ) else digitsValue ds)

/-- A point with the digits after it, or neither. -/
inductive SpellsFraction : List Char → List Char → Prop
  | none : SpellsFraction [] []
  | point {ds : List Char} (all : AllDigits ds) : SpellsFraction ('.' :: ds) ds

/-- Digits with at most one point among them, and an exponent. There is at least one digit, on
either side of the point. -/
inductive SpellsDecimal : List Char → Decimal → Prop
  | mk {whole point fraction exponent : List Char} {e : ℤ} (all : AllDigits whole)
      (pointed : SpellsFraction point fraction) (nonempty : whole ++ fraction ≠ [])
      (power : SpellsExponent exponent e) :
      SpellsDecimal (whole ++ (point ++ exponent))
        ⟨digitsValue (whole ++ fraction), e - fraction.length⟩

/-- The letters of a word, in any case. -/
def SpellsWord (cs : List Char) (word : String) : Prop := String.ofList (cs.map Char.toLower) = word

/-- A sign, and then a decimal, one of the two words for an infinity, or the word for no number. -/
inductive Spells : List Char → Numeral → Prop
  | decimal {sign body : List Char} {negative : Bool} {d : Decimal}
      (signed : SpellsSign sign negative) (decimal : SpellsDecimal body d) :
      Spells (sign ++ body) (.decimal negative d)
  | infinite {sign body : List Char} {negative : Bool} (signed : SpellsSign sign negative)
      (word : SpellsWord body "inf" ∨ SpellsWord body "infinity") :
      Spells (sign ++ body) (.infinite negative)
  | undefined {sign body : List Char} {negative : Bool} (signed : SpellsSign sign negative)
      (word : SpellsWord body "nan") : Spells (sign ++ body) .undefined

variable {cs ds rest sign body point fraction exponent : List Char} {negative : Bool} {e : ℤ}
  {d : Decimal} {n : Numeral}

/-! ## Signs -/

/-- A text does not begin with a sign. -/
def Unsigned (cs : List Char) : Prop := ∀ c ∈ cs.head?, c ≠ '+' ∧ c ≠ '-'

theorem exists_sign (cs : List Char) :
    ∃ sign negative body, SpellsSign sign negative ∧ splitSign cs = (negative, body) ∧
      cs = sign ++ body := by
  unfold splitSign
  split
  · exact ⟨_, _, _, .plus, rfl, rfl⟩
  · exact ⟨_, _, _, .minus, rfl, rfl⟩
  · exact ⟨_, _, _, .none, rfl, rfl⟩

/-- What follows a sign has no other. -/
theorem splitSign_append (signed : SpellsSign sign negative) (unsigned : Unsigned body) :
    splitSign (sign ++ body) = (negative, body) := by
  cases signed with
  | plus => rfl
  | minus => rfl
  | none =>
    rw [List.nil_append, splitSign]
    · rintro cs rfl
      exact (unsigned '+' rfl).1 rfl
    · rintro cs rfl
      exact (unsigned '-' rfl).2 rfl

theorem AllDigits.unsigned (all : AllDigits ds) : Unsigned ds := by
  intro c head
  have digit := all c (List.mem_of_mem_head? head)
  constructor <;> (rintro rfl; cases digit)

/-! ## Exponents -/

theorem exponent?_eq_some_iff : exponent? cs = some e ↔ SpellsExponent cs e := by
  constructor
  · intro read
    cases cs with
    | nil =>
      cases read
      exact .none
    | cons letter cs =>
      obtain ⟨sign, negative, ds, signed, split, rfl⟩ := exists_sign cs
      simp only [exponent?, split] at read
      split at read
      case isFalse => cases read
      case isTrue form =>
        obtain ⟨isLetter, nonempty, all⟩ := form
        cases read
        exact .digits isLetter signed (List.all_eq_true.1 all) nonempty
  · intro spells
    cases spells with
    | none => rfl
    | digits isLetter signed all nonempty =>
      simp only [exponent?, splitSign_append signed all.unsigned]
      exact if_pos ⟨isLetter, nonempty, List.all_eq_true.2 all⟩

/-- An exponent begins with a letter. -/
theorem SpellsExponent.head (power : SpellsExponent cs e) :
    ∀ c ∈ cs.head?, c.isDigit = false ∧ c ≠ '.' := by
  cases power with
  | none => nofun
  | digits isLetter =>
    rintro c ⟨⟩
    rcases isLetter with rfl | rfl <;> decide

/-! ## Decimals -/

/-- Digits are taken off up to the first other character. -/
theorem span_digits (all : AllDigits ds) (stops : ∀ c ∈ rest.head?, c.isDigit = false) :
    (ds ++ rest).span Char.isDigit = (ds, rest) := by
  induction ds with
  | nil => cases rest <;> simp_all [List.span_eq_takeWhile_dropWhile]
  | cons c ds ih => simp_all [AllDigits, List.span_eq_takeWhile_dropWhile]

theorem exists_digits (cs : List Char) :
    ∃ ds rest, AllDigits ds ∧ cs.span Char.isDigit = (ds, rest) ∧ cs = ds ++ rest := by
  refine ⟨_, _, ?_, List.span_eq_takeWhile_dropWhile _ cs, List.takeWhile_append_dropWhile.symm⟩
  exact fun c => List.mem_takeWhile_imp

theorem exists_fraction (cs : List Char) :
    ∃ point fraction rest, SpellsFraction point fraction ∧ splitFraction cs = (fraction, rest) ∧
      cs = point ++ rest := by
  unfold splitFraction
  split
  case h_1 cs =>
    obtain ⟨ds, rest, all, split, rfl⟩ := exists_digits cs
    exact ⟨_, ds, rest, .point all, split, rfl⟩
  case h_2 => exact ⟨_, _, _, .none, rfl, rfl⟩

theorem splitFraction_append (pointed : SpellsFraction point fraction)
    (power : SpellsExponent exponent e) :
    splitFraction (point ++ exponent) = (fraction, exponent) := by
  cases pointed with
  | point all => exact span_digits all fun c head => (power.head c head).1
  | none =>
    rw [List.nil_append, splitFraction]
    rintro cs rfl
    exact (power.head '.' rfl).2 rfl

/-- What follows the digits in front is a point or an exponent. -/
theorem head_fraction_append (pointed : SpellsFraction point fraction)
    (power : SpellsExponent exponent e) : ∀ c ∈ (point ++ exponent).head?, c.isDigit = false := by
  cases pointed with
  | none => exact fun c head => (power.head c head).1
  | point all =>
    rintro c ⟨⟩
    rfl

theorem digits?_eq_some_iff : digits? cs = some d ↔ SpellsDecimal cs d := by
  constructor
  · intro read
    obtain ⟨whole, rest, all, split, rfl⟩ := exists_digits cs
    obtain ⟨point, fraction, rest, pointed, split', rfl⟩ := exists_fraction rest
    simp only [digits?, split, split'] at read
    split at read
    case isTrue => cases read
    case isFalse nonempty =>
      obtain ⟨e, power, rfl⟩ := Option.map_eq_some_iff.1 read
      exact .mk all pointed (by simpa using nonempty) (exponent?_eq_some_iff.1 power)
  · rintro ⟨all, pointed, nonempty, power⟩
    simp only [digits?, span_digits all (head_fraction_append pointed power),
      splitFraction_append pointed power, exponent?_eq_some_iff.2 power]
    exact if_neg (by simpa using nonempty)

/-- A decimal begins with a digit or a point. -/
theorem SpellsDecimal.exists_head (decimal : SpellsDecimal cs d) :
    ∃ c ∈ cs.head?, c.isDigit = true ∨ c = '.' := by
  obtain @⟨whole, point, fraction, exponent, e, all, pointed, nonempty, -⟩ := decimal
  cases whole with
  | cons c whole => exact ⟨c, rfl, .inl (all c List.mem_cons_self)⟩
  | nil =>
    cases pointed with
    | none => exact absurd rfl nonempty
    | point => exact ⟨'.', rfl, .inr rfl⟩

/-! ## Numerals -/

theorem SpellsDecimal.unsigned (decimal : SpellsDecimal cs d) : Unsigned cs := by
  obtain ⟨c, head, begins⟩ := decimal.exists_head
  intro c' head'
  obtain rfl := Option.mem_unique head head'
  rcases begins with digit | rfl
  · constructor <;> (rintro rfl; cases digit)
  · decide

/-- A word begins with a letter. -/
theorem SpellsWord.exists_head {word : String} (spells : SpellsWord cs word)
    (letter : word.toList.head?.any Char.isAlpha = true) :
    ∃ c ∈ cs.head?, c.toLower.isAlpha = true := by
  subst spells
  cases cs with
  | nil => cases letter
  | cons c cs => exact ⟨c, rfl, by simpa using letter⟩

theorem SpellsWord.unsigned {word : String} (spells : SpellsWord cs word)
    (letter : word.toList.head?.any Char.isAlpha = true) : Unsigned cs := by
  obtain ⟨c, head, begins⟩ := spells.exists_head letter
  intro c' head'
  obtain rfl := Option.mem_unique head head'
  constructor <;> (rintro rfl; cases begins)

theorem not_isAlpha_toLower_of_isDigit {c : Char} (digit : c.isDigit = true) :
    c.toLower.isAlpha = false := by
  have bounds : 48 ≤ c.toNat ∧ c.toNat ≤ 57 := by
    simpa [Char.isDigit, UInt32.le_iff_toNat_le] using digit
  obtain ⟨low, high⟩ := bounds
  rw [← Char.ofNat_toNat c]
  interval_cases c.toNat <;> rfl

/-- Neither digits nor a point have a lower case, so that a decimal is no word. -/
theorem SpellsDecimal.not_spellsWord {word : String} (decimal : SpellsDecimal cs d)
    (letter : word.toList.head?.any Char.isAlpha = true) : ¬SpellsWord cs word := by
  intro spells
  obtain ⟨c, head, begins⟩ := decimal.exists_head
  obtain ⟨c', head', letter⟩ := spells.exists_head letter
  obtain rfl := Option.mem_unique head head'
  rcases begins with digit | rfl
  · simp [not_isAlpha_toLower_of_isDigit digit] at letter
  · cases letter

/-- A numeral has a character besides its sign. -/
theorem Spells.ne_nil (spells : Spells cs n) : cs ≠ [] := by
  have some_body {body : List Char} (exists_head : ∃ c, c ∈ body.head?) (sign : List Char) :
      sign ++ body ≠ [] := by
    obtain ⟨c, head⟩ := exists_head
    apply List.append_ne_nil_of_right_ne_nil
    exact List.ne_nil_of_mem (List.mem_of_mem_head? head)
  cases spells with
  | decimal _ decimal => exact some_body (decimal.exists_head.imp fun _ => And.left) _
  | undefined _ word => exact some_body ((word.exists_head rfl).imp fun _ => And.left) _
  | infinite _ word =>
    rcases word with word | word
    all_goals exact some_body ((word.exists_head rfl).imp fun _ => And.left) _

theorem ofChars?_eq_some_iff : ofChars? cs = some n ↔ Spells cs n := by
  constructor
  · intro read
    obtain ⟨sign, negative, body, signed, split, rfl⟩ := exists_sign cs
    simp only [ofChars?, split] at read
    split at read
    case isTrue word =>
      cases read
      exact .infinite signed word
    case isFalse =>
      split at read
      case isTrue word =>
        cases read
        exact .undefined signed word
      case isFalse =>
        obtain ⟨d, decimal, rfl⟩ := Option.map_eq_some_iff.1 read
        exact .decimal signed (digits?_eq_some_iff.1 decimal)
  · intro spells
    cases spells with
    | infinite signed word =>
      have unsigned := word.elim (·.unsigned rfl) (·.unsigned rfl)
      simp only [ofChars?, splitSign_append signed unsigned]
      exact if_pos word
    | undefined signed word =>
      simp only [ofChars?, splitSign_append signed (word.unsigned rfl)]
      unfold SpellsWord at word
      simp [word]
    | decimal signed decimal =>
      have no_word {word : String} (letter : word.toList.head?.any Char.isAlpha = true) :
          ¬String.ofList (_ : List Char) = word := decimal.not_spellsWord letter
      simp only [ofChars?, splitSign_append signed decimal.unsigned,
        digits?_eq_some_iff.2 decimal]
      rw [if_neg (not_or.2 ⟨no_word rfl, no_word rfl⟩), if_neg (no_word rfl)]
      rfl

end ContentionChart.Numeral
