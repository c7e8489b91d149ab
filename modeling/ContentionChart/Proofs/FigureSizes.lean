import ContentionChart.Proofs.NumberTexts
import ContentionChart.Proofs.NumeralGrammar
import ContentionChart.Proofs.OptionTexts

/-!
# Texts of figure sizes

A size is read by cutting its text at the first `x`. No numeral has an `x` in it, so that this finds
the only place where a text can be cut into a width and a height. A size that was read is read again
from the text that it is written as.

## Main definitions

* `FigureSize.SpellsSide` — a text spells the length of a side.
* `FigureSize.IsCut` — a text is cut into the texts of a width and of a height.

## Main statements

* `FigureSize.side?_eq_some_iff_spellsSide` — the sides that are read.
* `FigureSize.parse?_eq_some_iff` — the sizes that are read.
* `FigureSize.IsCut.unique` — there is one place to cut at.
* `FigureSize.parse?_cut` — how sizes are read and written.
-/

namespace ContentionChart

/-! ## Blanks around a text -/

namespace Text

variable {α : Type} {drop : α → Bool} {before body after : List α}

/-- What is trimmed off stands before and after what is left. -/
theorem exists_trimList (drop : α → Bool) (xs : List α) :
    ∃ before after, (∀ x ∈ before, drop x = true) ∧ (∀ x ∈ after, drop x = true) ∧
      xs = before ++ (trimList drop xs ++ after) := by
  have kind {ys : List α} : ∀ y ∈ ys.takeWhile drop, drop y = true :=
    fun y => List.mem_takeWhile_imp
  refine ⟨xs.takeWhile drop, ((xs.dropWhile drop).reverse.takeWhile drop).reverse, kind, ?_, ?_⟩
  · intro x mem
    exact kind x (List.mem_reverse.1 mem)
  · rw [trimList, ← List.reverse_append, List.takeWhile_append_dropWhile, List.reverse_reverse,
      List.takeWhile_append_dropWhile]

/-- Trimming takes off what stands around a text that has nothing to trim. -/
theorem Trimmed.trimList_append (trimmed : Trimmed drop body) (nonempty : body ≠ [])
    (before_drop : ∀ x ∈ before, drop x = true) (after_drop : ∀ x ∈ after, drop x = true) :
    trimList drop (before ++ (body ++ after)) = body := by
  have front : (body ++ after).dropWhile drop = body ++ after := by
    apply dropWhile_eq_self
    rw [List.head?_append_of_ne_nil _ nonempty]
    exact trimmed.first
  have back : body.reverse.dropWhile drop = body.reverse := by
    apply dropWhile_eq_self
    rw [List.head?_reverse]
    exact trimmed.last
  have after_drop' : ∀ x ∈ after.reverse, drop x = true := by simpa using after_drop
  rw [trimList, List.dropWhile_append_of_pos before_drop, front, List.reverse_append,
    List.dropWhile_append_of_pos after_drop', back, List.reverse_reverse]

/-- Blanks are neither capitals nor digits. -/
theorem toLower_eq_of_isBlank {c : Char} (blank : isBlank c = true) :
    c.toLower = c ∧ c.isDigit = false := by
  constructor
  · apply Char.toLower_eq_of_not_isUpper
    simp [isBlank, Char.isUpper, UInt32.le_iff_toNat_le] at blank ⊢
    omega
  · simp [isBlank, Char.isDigit, UInt32.le_iff_toNat_le] at blank ⊢
    omega

end Text

/-- No character of a numeral is blank. -/
theorem Numeral.not_isBlank_of_isNumeralChar {c : Char} (own : isNumeralChar c = true) :
    Text.isBlank c = false := by
  by_contra blank
  rw [Bool.not_eq_false] at blank
  obtain ⟨lower, digit⟩ := Text.toLower_eq_of_isBlank blank
  have listed : c ∈ ['+', '-', '.', 'a', 'e', 'f', 'i', 'n', 't', 'y'] := by
    simpa [isNumeralChar, lower, digit, or_assoc] using own
  have visible :
      ['+', '-', '.', 'a', 'e', 'f', 'i', 'n', 't', 'y'].all (!Text.isBlank ·) = true := by
    decide
  simpa [blank] using List.all_eq_true.1 visible c listed

namespace FigureSize

variable {cs width height : List Char} {separator : Char} {x : Float} {s : String}
  {size : FigureSize Float}

/-! ## Sides -/

/-- A numeral with blanks around it, whose double is a length that a side may have. -/
inductive SpellsSide : List Char → Float → Prop
  | mk {before body after : List Char} {n : Numeral} {length : ℚ}
      (blank_before : ∀ c ∈ before, Text.isBlank c = true)
      (blank_after : ∀ c ∈ after, Text.isBlank c = true) (numeral : Numeral.Spells body n)
      (value : Binary64.toRat? n.toFloat = some length) (positive : 0 < length)
      (le_hundred : length ≤ 100) : SpellsSide (before ++ (body ++ after)) n.toFloat

theorem side?_eq_some_iff_spellsSide : side? cs = some x ↔ SpellsSide cs x := by
  rw [side?_eq_some_iff, isSide_iff]
  constructor
  · rintro ⟨read, length, value, positive, le_hundred⟩
    obtain ⟨n, numeral, rfl⟩ := Option.map_eq_some_iff.1 read
    obtain ⟨before, after, blank_before, blank_after, whole⟩ :=
      Text.exists_trimList Text.isBlank cs
    rw [whole]
    exact .mk blank_before blank_after (Numeral.ofChars?_eq_some_iff.1 numeral) value positive
      le_hundred
  · rintro ⟨blank_before, blank_after, numeral, value, positive, le_hundred⟩
    have trimmed : Text.Trimmed Text.isBlank _ := .of_forall fun c mem =>
      Numeral.not_isBlank_of_isNumeralChar (Numeral.isNumeralChar_of_mem numeral mem)
    rw [trimmed.trimList_append numeral.ne_nil blank_before blank_after,
      Numeral.ofChars?_eq_some_iff.2 numeral]
    exact ⟨rfl, _, value, positive, le_hundred⟩

/-- There is no separator in the text of a side. -/
theorem SpellsSide.not_isSeparator (side : SpellsSide cs x) :
    ∀ c ∈ cs, isSeparator c = false := by
  intro c mem
  have kind := char_of_mem_side (side?_eq_some_iff_spellsSide.2 side) mem
  have separates {d : Char} (isX : Text.isBlank d = false ∧ Numeral.isNumeralChar d = false) :
      c ≠ d := by
    rintro rfl
    simp [isX] at kind
  simp [isSeparator, separates (d := 'x') (by decide), separates (d := 'X') (by decide)]

/-- The text of a side denotes one length. -/
theorem SpellsSide.unique {y : Float} (side : SpellsSide cs x) (side' : SpellsSide cs y) : x = y :=
  Option.some.inj <|
    (side?_eq_some_iff_spellsSide.2 side).symm.trans (side?_eq_some_iff_spellsSide.2 side')

/-! ## Cuts -/

/-- A text is cut at an `x`, in either case, into the texts of a width and of a height. -/
structure IsCut (s : String) (width : List Char) (separator : Char) (height : List Char)
    (size : FigureSize Float) : Prop where
  whole : s.toList = width ++ separator :: height
  separator : separator = 'x' ∨ separator = 'X'
  width : SpellsSide width size.width
  height : SpellsSide height size.height

/-- The cut is where a text is taken apart, at its first separator. -/
theorem IsCut.span_eq (cut : IsCut s width separator height size) :
    (s.toList.span fun c => !isSeparator c) = (width, separator :: height) := by
  have separates : isSeparator separator = true := by simpa [isSeparator] using cut.separator
  have before : ∀ c ∈ width, (!isSeparator c) = true := by
    simpa using cut.width.not_isSeparator
  rw [cut.whole, List.span_eq_takeWhile_dropWhile, List.takeWhile_append_of_pos before,
    List.dropWhile_append_of_pos before]
  simp [separates]

theorem IsCut.unique {width' height' : List Char} {separator' : Char} {size' : FigureSize Float}
    (cut : IsCut s width separator height size) (cut' : IsCut s width' separator' height' size') :
    width = width' ∧ separator = separator' ∧ height = height' ∧ size = size' := by
  have same := cut.span_eq.symm.trans cut'.span_eq
  simp only [Prod.mk.injEq, List.cons.injEq] at same
  obtain ⟨rfl, rfl, rfl⟩ := same
  have sides : size.width = size'.width ∧ size.height = size'.height :=
    ⟨cut.width.unique cut'.width, cut.height.unique cut'.height⟩
  cases size
  cases size'
  simp_all

/-- A text is read as a size if it can be cut somewhere. -/
theorem parse?_eq_some_iff :
    parse? s = some size ↔ ∃ width separator height, IsCut s width separator height size := by
  constructor
  · intro read
    obtain ⟨width, separator, height, whole, separates, left, right⟩ := exists_of_parse? read
    exact ⟨width, separator, height, whole, by simpa [isSeparator] using separates,
      side?_eq_some_iff_spellsSide.1 left, side?_eq_some_iff_spellsSide.1 right⟩
  · rintro ⟨width, separator, height, cut⟩
    simp only [parse?, cut.span_eq, side?_eq_some_iff_spellsSide.2 cut.width,
      side?_eq_some_iff_spellsSide.2 cut.height]
    rfl

/-! ## Written sizes -/

/-- A length that a side may have is spelled by the text that it is written as. -/
theorem spellsSide_plain (side : isSide x = true) : SpellsSide (Notation.plain x).toList x := by
  obtain ⟨length, value, positive, le_hundred⟩ := isSide_iff.1 side
  have finite : Binary64.isFinite x = true := by simp_all [isSide]
  obtain ⟨n, numeral, rfl⟩ := Option.map_eq_some_iff.1 (parseFloat?_plain finite)
  have spells : SpellsSide ([] ++ (_ ++ [])) n.toFloat :=
    .mk (by simp) (by simp) (Numeral.ofChars?_eq_some_iff.1 numeral) value positive le_hundred
  rwa [List.nil_append, List.append_nil] at spells

/-- A text is read as a size exactly if it can be cut at an `x`, in either case, into two numerals,
blanks around them aside, whose doubles are positive and at most a hundred. There is one such cut,
and it gives the width and the height in this order. A size that was read is read again from the
text that it is written as. -/
theorem parse?_cut (s : String) :
    (∀ size, parse? s = some size ↔
      ∃ width separator height, IsCut s width separator height size) ∧
    (∀ {width separator height size width' separator' height' size'},
      IsCut s width separator height size → IsCut s width' separator' height' size' →
      width = width' ∧ separator = separator' ∧ height = height' ∧ size = size') ∧
    ∀ size, parse? s = some size → parse? size.text = some size := by
  refine ⟨fun size => parse?_eq_some_iff, IsCut.unique, fun size read => ?_⟩
  obtain ⟨_, _, _, _, _, left, right⟩ := exists_of_parse? read
  apply parse?_eq_some_iff.2
  refine ⟨_, 'x', _, ?_, .inl rfl, spellsSide_plain (side?_eq_some_iff.1 left).2,
    spellsSide_plain (side?_eq_some_iff.1 right).2⟩
  rw [text, String.toList_append, String.toList_append, List.append_assoc]
  rfl

/-- A capital separates as well, and each side has blanks, a sign or an exponent of its own. -/
theorem parse?_cut_capital :
    IsCut " 6.5X+4e0 " " 6.5".toList 'X' "+4e0 ".toList ⟨6.5, 4.0⟩ ∧
      parse? " 6.5X+4e0 " = some ⟨6.5, 4.0⟩ ∧ parse? (text ⟨6.5, 4.0⟩) = some ⟨6.5, 4.0⟩ := by
  have cut : IsCut " 6.5X+4e0 " " 6.5".toList 'X' "+4e0 ".toList ⟨6.5, 4.0⟩ :=
    ⟨rfl, .inr rfl, side?_eq_some_iff_spellsSide.1 (by decide +kernel),
      side?_eq_some_iff_spellsSide.1 (by decide +kernel)⟩
  obtain ⟨cuts, -, again⟩ := parse?_cut " 6.5X+4e0 "
  have read := (cuts _).2 ⟨_, _, _, cut⟩
  exact ⟨cut, read, again _ read⟩

end FigureSize

end ContentionChart
