import ContentionChart.Csv.Table
import ContentionChart.Proofs.Encoding

/-!
# Trimmed text

What was trimmed once stays as it is when it is trimmed again, and so do its bytes.

## Main definitions

* `Text.Trimmed` — there is nothing to trim at either end.

## Main statements

* `Text.trimmed_trimList` — what was trimmed is trimmed.
* `Text.Trimmed.trimList_eq` — what is trimmed stays as it is.
* `Text.Trimmed.encode` — the bytes of a trimmed text are trimmed.
* `Csv.trimmed_of_mem_rows` — the fields of a table are trimmed.
-/

namespace ContentionChart.Text

variable {α : Type} {drop : α → Bool} {xs : List α}

/-- No element of a kind stands at either end. -/
structure Trimmed (drop : α → Bool) (xs : List α) : Prop where
  first : ∀ x ∈ xs.head?, drop x = false
  last : ∀ x ∈ xs.getLast?, drop x = false

theorem Trimmed.of_forall (h : ∀ x ∈ xs, drop x = false) : Trimmed drop xs where
  first x mem := h x (List.mem_of_mem_head? mem)
  last x mem := h x (List.mem_of_mem_getLast? mem)

theorem Trimmed.of_any (h : xs.any drop = false) : Trimmed drop xs :=
  .of_forall fun x mem => Bool.eq_false_iff.2 (List.any_eq_false.1 h x mem)

theorem dropWhile_eq_self (first : ∀ x ∈ xs.head?, drop x = false) : xs.dropWhile drop = xs := by
  cases xs with
  | nil => rfl
  | cons x xs => exact List.dropWhile_cons_of_neg (by simp [first x rfl])

theorem Trimmed.trimList_eq (h : Trimmed drop xs) : trimList drop xs = xs := by
  have last : ∀ x ∈ xs.reverse.head?, drop x = false := by
    rw [List.head?_reverse]
    exact h.last
  rw [trimList, dropWhile_eq_self h.first, dropWhile_eq_self last, List.reverse_reverse]

theorem head?_dropWhile (drop : α → Bool) (xs : List α) :
    ∀ x ∈ (xs.dropWhile drop).head?, drop x = false := by
  intro x mem
  have stays := List.head?_dropWhile_not drop xs
  rw [Option.mem_def.1 mem] at stays
  exact stays

/-- What is trimmed away is of the kind. -/
theorem mem_trimList_of_mem {x : α} (mem : x ∈ xs) : drop x = true ∨ x ∈ trimList drop xs := by
  have split {ys : List α} (mem : x ∈ ys) : drop x = true ∨ x ∈ ys.dropWhile drop := by
    rw [← List.takeWhile_append_dropWhile (p := drop) (l := ys)] at mem
    exact (List.mem_append.1 mem).imp_left (List.all_eq_true.1 List.all_takeWhile x)
  rcases split mem with blank | mem
  · exact .inl blank
  · refine (split (List.mem_reverse.2 mem)).imp_right fun mem => ?_
    rwa [trimList, List.mem_reverse]

theorem trimmed_trimList (drop : α → Bool) (xs : List α) : Trimmed drop (trimList drop xs) where
  first x mem := by
    -- Trimming the end leaves a front of the list, which begins as the list does.
    obtain ⟨cut, whole⟩ := List.dropWhile_suffix (l := (xs.dropWhile drop).reverse) drop
    have front : trimList drop xs ++ cut.reverse = xs.dropWhile drop := by
      rw [trimList, ← List.reverse_append, whole, List.reverse_reverse]
    refine head?_dropWhile drop xs x ?_
    rw [← front, List.head?_append, Option.mem_def.1 mem]
    rfl
  last := by
    rw [trimList, List.getLast?_reverse]
    exact head?_dropWhile drop _

theorem trimmed_trim (s : String) : Trimmed isBlank (trim s).toList := by
  rw [trim, String.toList_ofList]
  exact trimmed_trimList isBlank s.toList

theorem Trimmed.trim_eq {s : String} (h : Trimmed isBlank s.toList) : trim s = s := by
  rw [trim, h.trimList_eq, String.ofList_toList]

/-- A blank byte is a blank character. -/
theorem isBlank_of_mem_encodeChar {b : UInt8} {c : Char} (blank : Csv.isAsciiBlank b = true)
    (mem : b ∈ String.utf8EncodeChar c) : isBlank c = true := by
  have cases : b = 0x20 ∨ b = 0x9 ∨ b = 0xa ∨ b = 0xc ∨ b = 0xd := by
    simpa [Csv.isAsciiBlank, or_assoc] using blank
  have number : c.toNat = b.toNat := by
    refine (Utf8.mem_encodeChar_iff ?_).1 mem
    rcases cases with rfl | rfl | rfl | rfl | rfl <;> decide
  unfold isBlank
  rcases cases with rfl | rfl | rfl | rfl | rfl <;> simp [number]

/-- The bytes of a trimmed text are trimmed. -/
theorem Trimmed.encode {s : String} (h : Trimmed isBlank s.toList) :
    Trimmed Csv.isAsciiBlank (Utf8.encode s) := by
  have notBlank {b : UInt8} {c : Char} (visible : isBlank c = false)
      (mem : b ∈ String.utf8EncodeChar c) : Csv.isAsciiBlank b = false := by
    cases blank : Csv.isAsciiBlank b with
    | false => rfl
    | true =>
      rw [isBlank_of_mem_encodeChar blank mem] at visible
      cases visible
  constructor
  · intro b mem
    obtain ⟨c, first, inChar⟩ := Utf8.exists_of_head?_encode mem
    exact notBlank (h.first c first) inChar
  · intro b mem
    obtain ⟨c, last, inChar⟩ := Utf8.exists_of_getLast?_encode mem
    exact notBlank (h.last c last) inChar

end ContentionChart.Text

namespace ContentionChart.Csv

/-! ## Fields of a table -/

theorem trimmed_of_decodeFields {record index : Nat} {start : Position} {fields : List Utf8.Bytes}
    {values : List String} (h : decodeFields record start index fields = .ok values) :
    ∀ value ∈ values, Text.Trimmed Text.isBlank value.toList := by
  induction fields generalizing index values with
  | nil =>
    cases h
    nofun
  | cons field fields ih =>
    rw [decodeFields] at h
    split at h
    case h_1 => cases h
    case h_2 =>
      cases rest : decodeFields record start (index + 1) fields with
      | error fault =>
        rw [rest] at h
        cases h
      | ok others =>
        rw [rest] at h
        cases h
        exact List.forall_mem_cons.2 ⟨Text.trimmed_trim _, ih rest⟩

theorem trimmed_of_mem_decodeRows {rs : List RawRecord} {values : List String}
    (mem : .fields values ∈ decodeRows rs) :
    ∀ value ∈ values, Text.Trimmed Text.isBlank value.toList := by
  obtain ⟨i, _, row⟩ := List.mem_mapIdx.1 mem
  unfold decodeRow at row
  split at row
  case h_1 decoded =>
    cases row
    exact trimmed_of_decodeFields decoded
  case h_2 => cases row

/-- The fields of all rows are trimmed. -/
theorem trimmed_of_mem_rows {source : Source} {values : List String}
    (mem : .fields values ∈ (Table.ofSource source).rows) :
    ∀ value ∈ values, Text.Trimmed Text.isBlank value.toList := by
  have whole {bytes : Utf8.Bytes} (mem : .fields values ∈ (Table.ofBytes bytes).rows) :
      ∀ value ∈ values, Text.Trimmed Text.isBlank value.toList := by
    unfold Table.ofBytes at mem
    split at mem
    · cases mem
    · exact trimmed_of_mem_decodeRows mem
  unfold Table.ofSource at mem
  split at mem
  case h_1 => exact whole mem
  case h_2 =>
    unfold Table.ofBrokenOff at mem
    split at mem
    case isTrue => exact whole mem
    case isFalse =>
      split at mem
      case h_1 => cases mem
      case h_2 =>
        rcases List.mem_append.1 mem with mem | broken
        · exact trimmed_of_mem_decodeRows mem
        · cases List.mem_singleton.1 broken

end ContentionChart.Csv
