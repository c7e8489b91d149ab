import ContentionChart.Proofs.Decoding
import ContentionChart.Proofs.Trimming

/-!
# Written tables

A table can be written without any quotes, with a comma between two fields and a line feed after
each row. Unless a field would then be taken for something else, it is read back as it was.

## Main definitions

* `Csv.writtenLine`, `Csv.written` — the bytes of a row, and of all rows.
* `Csv.PlainText`, `Csv.PlainField` — what can be written as it is, before and after it is trimmed.

## Main statements

* `Csv.PlainRow.splitFields_writtenLine`, `Csv.runs_written` — the fields and the lines are found
  again.
* `Csv.Table.ofBytes_written` — a written table is read back.
-/

namespace ContentionChart.Csv

open Utf8 (Bytes encode)

/-- The bytes of a row, without a line end. -/
def writtenLine (row : List String) : Bytes := [comma].intercalate (row.map encode)

/-- The bytes of some rows. -/
def written (rows : List (List String)) : Bytes :=
  rows.flatMap fun row => writtenLine row ++ [lineFeed]

theorem written_cons (row : List String) (rows : List (List String)) :
    written (row :: rows) = writtenLine row ++ [lineFeed] ++ written rows := List.flatMap_cons

/-- A text that is not taken for anything else when it is written as it is. -/
structure PlainText (text : String) : Prop where
  noComma : ',' ∉ text.toList
  noLineFeed : '\n' ∉ text.toList
  noReturn : '\r' ∉ text.toList
  notQuoted : text.toList.head? ≠ some '"'

/-- Such a text that has no blanks to lose either. -/
structure PlainField (field : String) : Prop extends PlainText field where
  trimmed : Text.Trimmed Text.isBlank field.toList

/-- A row of such fields, with some text or some comma. -/
structure PlainRow (row : List String) : Prop where
  fields : ∀ field ∈ row, PlainField field
  nonempty : row ≠ []
  notBlank : row ≠ [""]

variable {field : String} {row : List String} {rows : List (List String)}

theorem notMem_encode {b : UInt8} {c : Char} (ascii : b.toNat < 128) (number : c.toNat = b.toNat)
    (none : c ∉ field.toList) : b ∉ encode field := by
  rw [Utf8.mem_encode_iff ascii]
  rintro ⟨d, mem, same⟩
  obtain rfl : d = c := Char.toNat_inj.1 (same.trans number.symm)
  exact none mem

theorem PlainField.comma_notMem (h : PlainField field) : comma ∉ encode field :=
  notMem_encode (by decide) rfl h.noComma

theorem PlainField.unbroken (h : PlainField field) : ∀ b ∈ encode field, isLineEnd b = false := by
  intro b mem
  have lineFeed : lineFeed ∉ encode field := notMem_encode (by decide) rfl h.noLineFeed
  have carriageReturn : carriageReturn ∉ encode field := notMem_encode (by decide) rfl h.noReturn
  simp only [isLineEnd, Bool.or_eq_false_iff, beq_eq_false_iff_ne]
  constructor
  · rintro rfl
    exact lineFeed mem
  · rintro rfl
    exact carriageReturn mem

theorem PlainField.unquoted (h : PlainField field) : (encode field).head? ≠ some quote := by
  intro begins
  obtain ⟨c, first, mem⟩ := Utf8.exists_of_head?_encode begins
  rw [Utf8.mem_encodeChar_iff (by decide)] at mem
  obtain rfl : c = '"' := Char.toNat_inj.1 mem
  exact h.notQuoted first

/-- Commas separate the fields of a written row again. -/
theorem PlainRow.splitFields_writtenLine (h : PlainRow row) :
    splitFields (writtenLine row) = row.map encode := by
  refine List.splitOn_intercalate comma ?_ (by simpa using h.nonempty)
  intro bytes mem
  obtain ⟨field, inRow, rfl⟩ := List.mem_map.1 mem
  exact (h.fields field inRow).comma_notMem

theorem PlainRow.unbroken (h : PlainRow row) : ∀ b ∈ writtenLine row, isLineEnd b = false := by
  obtain ⟨fields, -, -⟩ := h
  unfold writtenLine
  induction row with
  | nil => nofun
  | cons field row ih =>
    obtain ⟨first, others⟩ := List.forall_mem_cons.1 fields
    cases row with
    | nil => simpa using first.unbroken
    | cons next row =>
      intro b mem
      rw [List.map_cons, List.map_cons, List.intercalate_cons_cons, List.append_assoc] at mem
      rcases List.mem_append.1 mem with mem | mem
      · exact first.unbroken b mem
      · rcases List.mem_cons.1 mem with rfl | mem
        · rfl
        · exact ih others b mem

theorem PlainRow.writtenLine_ne_nil (h : PlainRow row) : writtenLine row ≠ [] := by
  intro none
  have fields := h.splitFields_writtenLine
  rw [none, splitFields, List.splitOn_nil] at fields
  obtain ⟨field, rfl, empty⟩ := List.map_eq_singleton_iff.1 fields.symm
  have decoded := Utf8.decode?_encode field
  rw [empty] at decoded
  obtain rfl := Option.some.inj decoded
  exact h.notBlank rfl

theorem PlainRow.unquoted (h : PlainRow row) : Unquoted (writtenLine row) := by
  intro bytes mem
  rw [h.splitFields_writtenLine] at mem
  obtain ⟨field, inRow, rfl⟩ := List.mem_map.1 mem
  exact (h.fields field inRow).unquoted

/-- The lines of written rows are found again. -/
theorem runs_written (plain : ∀ row ∈ rows, PlainRow row) :
    runs (written rows) = rows.map writtenLine := by
  induction rows with
  | nil => rfl
  | cons row rows ih =>
    obtain ⟨first, others⟩ := List.forall_mem_cons.1 plain
    rw [written_cons, List.append_assoc, List.singleton_append, runs_append_lineEnd rfl,
      runs_of_unbroken first.unbroken, if_neg (by simpa using first.writtenLine_ne_nil),
      List.map_cons, ← ih others]
    rfl

/-- The lines of a written table, which does not begin with a mark. -/
theorem lines_written {header : List String} (plain : ∀ row ∈ header :: rows, PlainRow row)
    (unmarked : withoutMark (writtenLine header) = writtenLine header) :
    lines (written (header :: rows)) = (header :: rows).map writtenLine := by
  obtain ⟨first, others⟩ := List.forall_mem_cons.1 plain
  have separates : Separates [lineFeed] (written rows) := ⟨by simp [isLineEnd], nofun⟩
  rw [written_cons, List.append_assoc, lines_append_of_separates separates, lines, unmarked,
    runs_of_unbroken first.unbroken, if_neg (by simpa using first.writtenLine_ne_nil),
    runs_written others, List.map_cons]
  rfl

/-! ## Reading back -/

theorem mapM_decode_encode (plain : ∀ field ∈ row, PlainField field) :
    (row.map encode).mapM (fun bytes => (Utf8.decode? bytes).map Text.trim) = some row := by
  induction row with
  | nil => rfl
  | cons field row ih =>
    obtain ⟨first, others⟩ := List.forall_mem_cons.1 plain
    rw [List.map_cons, List.mapM_cons, ih others, Utf8.decode?_encode, Option.map_some,
      first.trimmed.trim_eq]
    rfl

theorem PlainRow.decodeHeader_eq (h : PlainRow row) (start : Position) :
    decodeHeader ⟨row.map encode, start⟩ = .ok row := by
  have texts := toOption_decodeFields 0 start 0 (row.map encode)
  rw [mapM_decode_encode h.fields] at texts
  rw [decodeHeader]
  cases decoded : decodeFields 0 start 0 (row.map encode) with
  | error fault =>
    rw [decoded] at texts
    cases texts
  | ok values =>
    rw [decoded] at texts
    rw [Option.some.inj texts]

theorem PlainRow.lineFields?_eq (h : PlainRow row) : lineFields? (writtenLine row) = some row := by
  have bytes : (row.map encode).map (Text.trimList isAsciiBlank) = row.map encode := by
    rw [List.map_map]
    refine List.map_congr_left fun field inRow => ?_
    exact (h.fields field inRow).trimmed.encode.trimList_eq
  have decoded := mapM_decode_encode h.fields
  rw [← bytes, List.mapM_map] at decoded
  rw [lineFields?, h.splitFields_writtenLine]
  exact decoded

/-- Rows of which everything was decoded are their fields. -/
theorem eq_map_fields {read : List Row} (h : read.map Row.values? = rows.map some) :
    read = rows.map .fields := by
  induction read generalizing rows with
  | nil => rw [List.map_eq_nil_iff.1 h.symm, List.map_nil]
  | cons row read ih =>
    obtain ⟨values, others, rfl, first, rest⟩ := List.map_eq_cons_iff.1 h.symm
    rw [List.map_cons, ih rest.symm]
    cases row with
    | fields own => rw [Option.some.inj first]
    | lost | brokenOff => cases first

/-- A table of plain fields is read back from its bytes. -/
theorem Table.ofBytes_written {header : List String} (plain : ∀ row ∈ header :: rows, PlainRow row)
    (unmarked : withoutMark (writtenLine header) = writtenLine header) :
    Table.ofBytes (written (header :: rows)) = ⟨.ok header, rows.map .fields⟩ := by
  obtain ⟨first, others⟩ := List.forall_mem_cons.1 plain
  have whole := lines_written plain unmarked
  have unquoted : ∀ line ∈ lines (written (header :: rows)), Unquoted line := by
    rw [whole]
    intro line mem
    obtain ⟨row, inRows, rfl⟩ := List.mem_map.1 mem
    exact (plain row inRows).unquoted
  obtain ⟨read, table, values, -⟩ := Table.ofBytes_of_lines unquoted whole
  rw [table, first.splitFields_writtenLine, first.decodeHeader_eq]
  have decoded : read.map Row.values? = rows.map some := by
    rw [values, List.map_map]
    exact List.map_congr_left fun row inRows => (others row inRows).lineFields?_eq
  rw [eq_map_fields decoded]

end ContentionChart.Csv
