import ContentionChart.CommandLine.Option
import ContentionChart.Proofs.DoubleOrder
import ContentionChart.Proofs.NumeralGrammar
import ContentionChart.Proofs.Trimming

/-!
# Texts of option values

The values of options are texts of few characters. Numerals, counts, sizes and the names of scales
have no character that could stand for a broken encoding.

## Main definitions

* `Numeral.isNumeralChar` — the characters of numerals.

## Main statements

* `Numeral.isNumeralChar_of_mem` — a numeral has these characters only.
* `FigureSize.isSide_iff` — the lengths that a side may have.
-/

namespace ContentionChart

/-! ## Characters of numerals -/

namespace Numeral

variable {cs : List Char} {c : Char}

/-- A digit, a sign, a point, or a letter of an exponent or of a word. -/
def isNumeralChar (c : Char) : Bool :=
  c.isDigit || ['+', '-', '.'].contains c || ['a', 'e', 'f', 'i', 'n', 't', 'y'].contains c.toLower

theorem isNumeralChar_of_isDigit (digit : c.isDigit = true) : isNumeralChar c = true := by
  simp [isNumeralChar, digit]

theorem isNumeralChar_of_mem_sign {negative : Bool} (signed : SpellsSign cs negative)
    (mem : c ∈ cs) : isNumeralChar c = true := by
  cases signed with
  | none => cases mem
  | plus | minus =>
    rw [List.mem_singleton.1 mem]
    decide

theorem isNumeralChar_of_mem_exponent {e : ℤ} (power : SpellsExponent cs e) (mem : c ∈ cs) :
    isNumeralChar c = true := by
  cases power with
  | none => cases mem
  | digits isLetter signed all =>
    rcases List.mem_cons.1 mem with rfl | mem
    · rcases isLetter with rfl | rfl <;> decide
    · rcases List.mem_append.1 mem with mem | mem
      · exact isNumeralChar_of_mem_sign signed mem
      · exact isNumeralChar_of_isDigit (all c mem)

theorem isNumeralChar_of_mem_fraction {fraction : List Char} (pointed : SpellsFraction cs fraction)
    (mem : c ∈ cs) : isNumeralChar c = true := by
  cases pointed with
  | none => cases mem
  | point all =>
    rcases List.mem_cons.1 mem with rfl | mem
    · decide
    · exact isNumeralChar_of_isDigit (all c mem)

theorem isNumeralChar_of_mem_decimal {d : Decimal} (decimal : SpellsDecimal cs d) (mem : c ∈ cs) :
    isNumeralChar c = true := by
  obtain ⟨all, pointed, -, power⟩ := decimal
  rcases List.mem_append.1 mem with mem | mem
  · exact isNumeralChar_of_isDigit (all c mem)
  · rcases List.mem_append.1 mem with mem | mem
    · exact isNumeralChar_of_mem_fraction pointed mem
    · exact isNumeralChar_of_mem_exponent power mem

/-- A word has the characters of numerals if it has its letters, in any case. -/
theorem isNumeralChar_of_mem_word {word : String} (spells : SpellsWord cs word)
    (letters : word.toList.all ['a', 'e', 'f', 'i', 'n', 't', 'y'].contains = true)
    (mem : c ∈ cs) : isNumeralChar c = true := by
  subst spells
  rw [String.toList_ofList] at letters
  have letter := List.all_eq_true.1 letters c.toLower (List.mem_map_of_mem mem)
  rw [isNumeralChar, letter, Bool.or_true]

/-- A numeral has the characters of numerals only. -/
theorem isNumeralChar_of_mem {n : Numeral} (numeral : Spells cs n) (mem : c ∈ cs) :
    isNumeralChar c = true := by
  cases numeral with
  | decimal signed decimal =>
    rcases List.mem_append.1 mem with mem | mem
    · exact isNumeralChar_of_mem_sign signed mem
    · exact isNumeralChar_of_mem_decimal decimal mem
  | infinite signed word =>
    rcases List.mem_append.1 mem with mem | mem
    · exact isNumeralChar_of_mem_sign signed mem
    · rcases word with inf | infinity
      · exact isNumeralChar_of_mem_word inf (by decide) mem
      · exact isNumeralChar_of_mem_word infinity (by decide) mem
  | undefined signed word =>
    rcases List.mem_append.1 mem with mem | mem
    · exact isNumeralChar_of_mem_sign signed mem
    · exact isNumeralChar_of_mem_word word (by decide) mem

end Numeral

/-! ## Counts -/

theorem isDigit_of_mem_count {ds : List Char} {n count : ℕ}
    (read : ds.foldlM countDigit n = .ok count) : ∀ c ∈ ds, c.isDigit = true := by
  induction ds generalizing n with
  | nil => nofun
  | cons d ds ih =>
    rw [List.foldlM_cons] at read
    cases digit : countDigit n d with
    | error fault =>
      rw [digit] at read
      cases read
    | ok next =>
      rw [digit] at read
      refine List.forall_mem_cons.2 ⟨?_, ih read⟩
      unfold countDigit at digit
      split at digit
      case isTrue => cases digit
      case isFalse other => simpa using other

theorem isNumeralChar_of_mem_parseCount {s : String} {count : ℕ} (read : parseCount s = .ok count)
    {c : Char} (mem : c ∈ s.toList) : Numeral.isNumeralChar c = true := by
  unfold parseCount at read
  split at read
  case h_1 => cases read
  case h_2 => cases read
  case h_3 digits _ signed =>
    rw [signed] at mem
    rcases List.mem_cons.1 mem with rfl | mem
    · decide
    · exact Numeral.isNumeralChar_of_isDigit (isDigit_of_mem_count read c mem)
  case h_4 => exact Numeral.isNumeralChar_of_isDigit (isDigit_of_mem_count read c mem)

/-! ## Sizes of figures -/

namespace FigureSize

variable {x : Float} {cs : List Char} {s : String} {size : FigureSize Float} {c : Char}

/-- A side may have any length up to a hundred inches, but for zero. -/
theorem isSide_iff : isSide x = true ↔ ∃ q : ℚ, Binary64.toRat? x = some q ∧ 0 < q ∧ q ≤ 100 := by
  have zero : Binary64.toRat? 0.0 = some 0 := Binary64.toRat?_literal_zero
  have hundred : Binary64.toRat? 100.0 = some 100 := by
    have reading : Binary64.read 100.0 = .finite false 0x19000000000000 (-46) := rfl
    exact Binary64.toRat?_eq_some_iff.2
      ⟨_, _, _, reading, by norm_num [Binary64.value, Binary64.magnitude]⟩
  have between {q : ℚ} (value : Binary64.toRat? x = some q) :
      0.0 < x ∧ x ≤ 100.0 ↔ 0 < q ∧ q ≤ 100 :=
    and_congr (Binary64.compare_iff_of_toRat? zero value).1
      (Binary64.compare_iff_of_toRat? value hundred).2
  rw [isSide, Bool.and_eq_true, Bool.and_eq_true, decide_eq_true_eq, decide_eq_true_eq, and_assoc]
  constructor
  · rintro ⟨finite, sides⟩
    obtain ⟨negative, m, e, reading⟩ := Binary64.exists_of_isFinite finite
    have value := Binary64.toRat?_of_read reading
    exact ⟨_, value, (between value).1 sides⟩
  · rintro ⟨q, value, sides⟩
    obtain ⟨negative, m, e, reading, -⟩ := Binary64.toRat?_eq_some_iff.1 value
    exact ⟨by rw [Binary64.isFinite, reading], (between value).2 sides⟩

theorem side?_eq_some_iff :
    side? cs = some x ↔
      ((Numeral.ofChars? (Text.trimList Text.isBlank cs)).map Numeral.toFloat = some x ∧
        isSide x = true) := by
  rw [side?, Option.filter_eq_some_iff]

/-- What is read as a side is made of the characters of numerals, and of blanks. -/
theorem char_of_mem_side (read : side? cs = some x) (mem : c ∈ cs) :
    Text.isBlank c = true ∨ Numeral.isNumeralChar c = true := by
  obtain ⟨n, numeral, -⟩ := Option.map_eq_some_iff.1 (side?_eq_some_iff.1 read).1
  have spells := Numeral.ofChars?_eq_some_iff.1 numeral
  exact (Text.mem_trimList_of_mem mem).imp_right (Numeral.isNumeralChar_of_mem spells)

/-- The parts of a text that is read as a size. -/
theorem exists_of_parse? (read : parse? s = some size) :
    ∃ width separator height, s.toList = width ++ separator :: height ∧
      isSeparator separator = true ∧ side? width = some size.width ∧
      side? height = some size.height := by
  unfold parse? at read
  rw [List.span_eq_takeWhile_dropWhile] at read
  have whole := List.takeWhile_append_dropWhile (p := fun c => !isSeparator c) (l := s.toList)
  have first := List.head?_dropWhile_not (fun c => !isSeparator c) s.toList
  split at read
  case h_2 => cases read
  case h_1 width separator height parts =>
    obtain ⟨rfl, rest⟩ := Prod.mk.inj parts
    obtain ⟨x, left, y, right, rfl⟩ :
        ∃ x, side? _ = some x ∧ ∃ y, side? height = some y ∧ ⟨x, y⟩ = size := by
      simpa [Option.bind_eq_some_iff] using read
    rw [rest] at whole first
    exact ⟨_, separator, height, whole.symm, by simpa using first, left, right⟩

end FigureSize

/-! ## Values of options -/

namespace ValueOption

open Utf8 (replacement)

variable {o : ValueOption} {s : String}

/-- The names that are let through are those of the scales. -/
theorem problem?_scale_eq_none_iff :
    scale.problem? s = none ↔ ∃ scale, Scale.ofName? s = some scale := by
  have named : s ∈ Scale.names ↔ ∃ scale, Scale.ofName? s = some scale := by
    rw [← Option.isSome_iff_exists, Scale.ofName?, List.find?_isSome, Scale.names]
    simp [eq_comm]
  rw [← named, problem?]
  split
  case isTrue mem => simp [mem]
  case isFalse other => simp [other]

theorem problem?_threadTicks_eq_none_iff :
    threadTicks.problem? s = none ↔ ∃ count, parseCount s = .ok count := by
  unfold problem?
  cases parseCount s <;> simp

theorem problem?_figure_eq_none_iff :
    figure.problem? s = none ↔ ∃ size, FigureSize.parse? s = some size := by
  unfold problem?
  cases FigureSize.parse? s <;> simp

/-- The standard values are good values. -/
theorem problem?_standard (standard : o.standard? = some s) : o.problem? s = none := by
  cases o with
  | csvIn => rfl
  | output => rfl
  | scale =>
    cases standard
    decide
  | threadTicks =>
    cases standard
    decide
  | figure =>
    cases standard
    decide +kernel

/-- Where a value must be of some form, no good one has a character that stands for a broken
encoding. -/
theorem replacement_notMem (standing : o.standard? ≠ none) (good : o.problem? s = none) :
    replacement ∉ s.toList := by
  have foreign : Numeral.isNumeralChar replacement = false := by decide
  intro mem
  cases o with
  | csvIn => exact standing rfl
  | output => exact standing rfl
  | scale =>
    obtain ⟨scale, named⟩ := problem?_scale_eq_none_iff.1 good
    have name : scale.name = s := by simpa using List.find?_some named
    have plain : scale.name.toList.contains replacement = false := by cases scale <;> decide
    rw [name, List.contains_iff_mem.2 mem] at plain
    cases plain
  | threadTicks =>
    obtain ⟨count, read⟩ := problem?_threadTicks_eq_none_iff.1 good
    rw [isNumeralChar_of_mem_parseCount read mem] at foreign
    cases foreign
  | figure =>
    obtain ⟨size, read⟩ := problem?_figure_eq_none_iff.1 good
    obtain ⟨width, separator, height, parts, separates, left, right⟩ :=
      FigureSize.exists_of_parse? read
    have side {cs : List Char} {x : Float} (read : FigureSize.side? cs = some x) :
        replacement ∉ cs := by
      intro mem
      rcases FigureSize.char_of_mem_side read mem with blank | own
      · exact absurd blank (by decide)
      · rw [own] at foreign
        cases foreign
    rw [parts] at mem
    rcases List.mem_append.1 mem with mem | mem
    · exact side left mem
    · rcases List.mem_cons.1 mem with rfl | mem
      · exact absurd separates (by decide)
      · exact side right mem

end ValueOption

end ContentionChart
