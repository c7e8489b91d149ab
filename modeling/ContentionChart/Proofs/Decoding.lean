import ContentionChart.Proofs.Accepted
import ContentionChart.Proofs.Lines

/-!
# Decoded rows

What a row comes to depends on the texts of its fields only, or on their being undecodable, and not
on the number or the place of the record. In a text without quoted fields the rows are those of its
lines.

## Main definitions

* `Csv.fieldTexts?`, `Csv.lineFields?` — the texts in a record, and in a line.
* `Csv.Row.values?` — what was decoded of a row.

## Main statements

* `Csv.map_values?_decodeRows` — the rows of records, by the fields of these.
* `Csv.Table.ofBytes_of_lines` — the table in a text without quoted fields, line by line.
* `Entry.accepted_iff_values?` — measurements are found in what was decoded.
-/

namespace ContentionChart

namespace Csv

open Utf8 (Bytes)

/-- The trimmed texts of some fields, if all of them can be decoded. -/
def fieldTexts? (fields : List Bytes) : Option (List String) :=
  fields.mapM fun field => (Utf8.decode? (Text.trimList isAsciiBlank field)).map Text.trim

/-- The trimmed fields of a line, if all of them can be decoded. -/
def lineFields? (line : Bytes) : Option (List String) := fieldTexts? (splitFields line)

/-- The fields of a row, if they could be decoded. -/
def Row.values? : Row → Option (List String)
  | .fields values => some values
  | _ => none

theorem toOption_decodeFields (record : Nat) (start : Position) (index : Nat)
    (fields : List Bytes) :
    (decodeFields record start index fields).toOption =
      fields.mapM fun field => (Utf8.decode? field).map Text.trim := by
  induction fields generalizing index with
  | nil => rfl
  | cons field fields ih =>
    rw [decodeFields, List.mapM_cons]
    cases Utf8.decode? field with
    | none => rfl
    | some text =>
      rw [← ih (index + 1)]
      cases decodeFields record start (index + 1) fields <;> rfl

theorem values?_decodeRow (number : Nat) (r : RawRecord) :
    (decodeRow number r).values? = fieldTexts? r.fields := by
  have texts := toOption_decodeFields number r.start 0 (r.fields.map (Text.trimList isAsciiBlank))
  rw [List.mapM_map] at texts
  rw [fieldTexts?, decodeRow]
  refine Eq.trans ?_ texts
  cases decodeFields number r.start 0 (r.fields.map (Text.trimList isAsciiBlank)) <;> rfl

theorem decodeRow_ne_brokenOff (number : Nat) (r : RawRecord) (cause : String) :
    decodeRow number r ≠ .brokenOff cause := by
  rw [decodeRow]
  cases decodeFields number r.start 0 (r.fields.map (Text.trimList isAsciiBlank)) <;> nofun

theorem map_values?_decodeRows (rs : List RawRecord) :
    (decodeRows rs).map Row.values? = (rs.map RawRecord.fields).map fieldTexts? := by
  refine List.ext_getElem (by simp [decodeRows]) fun i _ _ => ?_
  simp [decodeRows, values?_decodeRow]

theorem brokenOff?_decodeRows (rs : List RawRecord) : brokenOff? (decodeRows rs) = none := by
  refine brokenOff?_eq_none_iff.2 fun cause mem => ?_
  obtain ⟨i, _, broken⟩ := List.mem_mapIdx.1 mem
  exact decodeRow_ne_brokenOff (i + 1) _ cause broken

/-- In a text without quoted fields the first line is the header and each other line is a row. -/
theorem Table.ofBytes_of_lines {text first : Bytes} {others : List Bytes}
    (unquoted : ∀ line ∈ lines text, Unquoted line) (whole : lines text = first :: others) :
    ∃ rows, Table.ofBytes text = ⟨decodeHeader ⟨splitFields first, ⟨0, 1⟩⟩, rows⟩ ∧
      rows.map Row.values? = others.map lineFields? ∧ brokenOff? rows = none := by
  obtain ⟨fields, start⟩ := fields_records unquoted
  rw [whole, List.map_cons] at fields
  obtain ⟨header, rs, read, headerFields, rowFields⟩ := List.map_eq_cons_iff.1 fields
  have headerStart : header.start = ⟨0, 1⟩ := start header (by simp [read])
  refine ⟨decodeRows rs, ?_, ?_, brokenOff?_decodeRows rs⟩
  · rw [Table.ofBytes, read, ← headerFields, ← headerStart]
  · rw [map_values?_decodeRows, rowFields, List.map_map]
    rfl

end Csv

namespace Entry

theorem sampleOfRow?_eq (columns : Columns) (row : Csv.Row) :
    sampleOfRow? columns row = row.values?.bind columns.sample? := by
  cases row with
  | fields values => exact sample?_ofFields columns values
  | lost | brokenOff => rfl

/-- Measurements are found in what was decoded of the rows. -/
theorem accepted_iff_values? {header : List String} {columns : Columns}
    (located : Columns.ofHeader header = .ok columns) {rows : List Csv.Row}
    {samples : List (Sample Float)} :
    Accepted header rows samples ↔
      samples = (rows.map Csv.Row.values?).filterMap fun values? => values?.bind columns.sample? := by
  rw [accepted_iff located, List.filterMap_map]
  simp only [Function.comp_def, ← sampleOfRow?_eq]

end Entry

end ContentionChart
