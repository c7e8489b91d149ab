import ContentionChart.Proofs.Reading
import ContentionChart.Proofs.Skipped

/-!
# Garbage between the lines

A line that is no measurement can be taken out of a text without any effect on what the text comes
to, wherever it stands and however the lines around it are ended. It was counted as skipped, unless
it was blank.

## Main definitions

* `Csv.LineDeleted` — a text, and the same text without one of its lines.
* `Csv.OneMore` — two tables that differ in one row.
* `Garbage` — a line is no measurement, and how it counts.

## Main statements

* `Csv.LineDeleted.exists_rows` — without a line, a table lacks the row of that line.
* `Results.ofBytes_garbage` — a garbage line has no effect but on the number of skipped rows.
-/

namespace ContentionChart

namespace Csv

open Utf8 (Bytes)

/-! ## Deleted lines -/

/-- A text, and what is left of it without one of its lines, which is not the first. Any line ends
may be left in the place of the line, as long as the lines before and after it are kept apart. -/
inductive LineDeleted (line : Bytes) : Bytes → Bytes → Prop where
  | mk {before gap ending kept after : Bytes} (notFirst : lines before ≠ []) (content : line ≠ [])
      (unbroken : ∀ b ∈ line, isLineEnd b = false) (ahead : Separates gap line)
      (behind : Separates ending after) (left : Separates kept after) :
      LineDeleted line (before ++ gap ++ line ++ ending ++ after) (before ++ kept ++ after)

theorem quote_notMem_of_allEnd {ends : Bytes} (allEnd : ∀ b ∈ ends, isLineEnd b = true) :
    quote ∉ ends := by
  intro mem
  cases allEnd quote mem

variable {line text rest : Bytes}

/-- The first line stays, and of the others only the one is gone. -/
theorem LineDeleted.exists_lines (h : LineDeleted line text rest) :
    ∃ first above below, lines text = first :: (above ++ line :: below) ∧
      lines rest = first :: (above ++ below) := by
  obtain @⟨before, gap, ending, kept, after, notFirst, content, unbroken, ahead, behind, left⟩ := h
  obtain ⟨first, above, begins⟩ := List.exists_cons_of_ne_nil notFirst
  have ahead' : Separates gap (line ++ (ending ++ after)) :=
    ⟨ahead.allEnd, fun none => absurd (ahead.atEnd none) content⟩
  refine ⟨first, above, runs after, ?_, ?_⟩
  · simp only [List.append_assoc]
    rw [lines_append_of_separates ahead', runs_append_of_separates behind,
      runs_of_unbroken unbroken, if_neg (by simpa using content), begins]
    rfl
  · rw [List.append_assoc, lines_append_of_separates left, begins]
    rfl

theorem LineDeleted.unquoted (h : LineDeleted line text rest) (unquoted : quote ∉ text) :
    quote ∉ rest := by
  obtain @⟨before, gap, ending, kept, after, -, -, -, -, -, left⟩ := h
  have inKept := quote_notMem_of_allEnd left.allEnd
  simp only [List.mem_append, not_or] at unquoted ⊢
  exact ⟨⟨unquoted.1.1.1.1, inKept⟩, unquoted.2⟩

/-- Of two tables that were read to their end, the first has the rows of the second and one more,
in so far as they were decoded. -/
structure OneMore (values? : Option (List String)) (rows rows' : List Row) : Prop where
  values : ∃ above below, rows.map Row.values? = above ++ values? :: below ∧
    rows'.map Row.values? = above ++ below
  complete : brokenOff? rows = none
  complete' : brokenOff? rows' = none

/-- Without the line, the table lacks the row that the line was read as. -/
theorem LineDeleted.exists_rows (h : LineDeleted line text rest) (unquoted : quote ∉ text) :
    ∃ header rows rows', Table.ofBytes text = ⟨header, rows⟩ ∧
      Table.ofBytes rest = ⟨header, rows'⟩ ∧ OneMore (lineFields? line) rows rows' := by
  obtain ⟨first, above, below, whole, left⟩ := h.exists_lines
  obtain ⟨rows, table, values, complete⟩ := Table.ofBytes_of_lines (unquoted_lines unquoted) whole
  obtain ⟨rows', table', values', complete'⟩ :=
    Table.ofBytes_of_lines (unquoted_lines (h.unquoted unquoted)) left
  rw [List.map_append] at values values'
  exact ⟨_, rows, rows', table, table', ⟨⟨_, _, values, values'⟩, complete, complete'⟩⟩

end Csv

/-! ## Garbage -/

/-- What is decoded of a line is no measurement, and how much the line counts among the skipped
rows: a line without any text does not count. -/
inductive Garbage (header : List String) : Option (List String) → Nat → Prop where
  | blank {fields : List String} :
      (∀ field ∈ fields, field = "") → Garbage header (some fields) 0
  | malformed {fields : List String} :
      (∃ field ∈ fields, field ≠ "") → (∀ s, ¬ Measures header fields s) →
      Garbage header (some fields) 1
  | undecodable : Garbage header none 1

namespace Garbage

variable {header : List String} {columns : Columns} {values? : Option (List String)}
  {counted : Nat}

theorem sample?_eq_none (garbage : Garbage header values? counted)
    (located : Columns.ofHeader header = .ok columns) : values?.bind columns.sample? = none := by
  cases garbage with
  | blank empty =>
    exact Columns.sample?_of_blank columns (List.all_eq_true.2 (by simpa using empty))
  | malformed _ none =>
    exact Option.eq_none_iff_forall_ne_some.2 fun s found =>
      none s ((Columns.sample?_eq_some_iff located).1 found)
  | undecodable => rfl

theorem counted_eq (garbage : Garbage header values? counted)
    (located : Columns.ofHeader header = .ok columns) :
    counted = if Entry.isSkip columns values? then 1 else 0 := by
  have none := garbage.sample?_eq_none located
  cases garbage with
  | @blank fields empty =>
    have blank : fields.all String.isEmpty = true := List.all_eq_true.2 (by simpa using empty)
    simp only [Entry.isSkip, Entry.ofFields, Option.all_some, if_pos blank]
    rfl
  | @malformed fields text =>
    have notBlank : ¬ fields.all String.isEmpty = true := by simpa using text
    have noSample : columns.sample? fields = .none := none
    simp only [Entry.isSkip, Entry.ofFields, Option.all_some, if_neg notBlank, noSample]
    rfl
  | undecodable => rfl

end Garbage

namespace Results

section Garbage

variable {header : List String} {rows rows' : List Csv.Row} {values? : Option (List String)}
  {counted : Nat}

theorem value_ofTable_garbage (garbage : Garbage header values? counted)
    (more : Csv.OneMore values? rows rows') :
    (ofTable ⟨.ok header, rows⟩).value = (ofTable ⟨.ok header, rows'⟩).value := by
  obtain ⟨⟨above, below, whole, left⟩, complete, complete'⟩ := more
  refine value_ofTable_congr rfl (complete.trans complete'.symm) fun present samples accepted => ?_
  obtain ⟨columns, located⟩ := Columns.exists_ofHeader present
  rw [Entry.accepted_iff_values? located] at accepted ⊢
  simp only [whole, List.filterMap_append, List.filterMap_cons,
    garbage.sample?_eq_none located] at accepted
  rw [left, List.filterMap_append, accepted]

theorem skippedRows?_garbage (garbage : Garbage header values? counted)
    (more : Csv.OneMore values? rows rows') :
    skippedRows? ⟨.ok header, rows⟩ =
      (skippedRows? ⟨.ok header, rows'⟩).map (· + counted) := by
  obtain ⟨⟨above, below, whole, left⟩, complete, complete'⟩ := more
  by_cases present : Columns.missingNames header = []
  case neg =>
    rw [skippedRows?_of_missing present, skippedRows?_of_missing present]
    rfl
  case pos =>
    obtain ⟨columns, located⟩ := Columns.exists_ofHeader present
    rw [skippedRows?_of_present present located complete,
      skippedRows?_of_present present located complete', whole, left, garbage.counted_eq located]
    simp only [List.countP_append, List.countP_cons, Option.map_some, Nat.add_assoc]

end Garbage

open Utf8 (Bytes)

/-- A line that is all empty, malformed or undecodable may be taken out of a text without quotes,
wherever it stands below the header: the text comes to the same results or to the same failure. The
number of skipped rows, where rows are read at all, goes down by one, or stays if the line was all
empty. -/
theorem ofBytes_garbage {line text rest : Bytes} {counted : Nat} (unquoted : Csv.quote ∉ text)
    (deleted : Csv.LineDeleted line text rest)
    (garbage : ∀ header, (Csv.Table.ofBytes text).header = .ok header →
      Garbage header (Csv.lineFields? line) counted) :
    (ofTable (.ofBytes text)).value = (ofTable (.ofBytes rest)).value ∧
      skippedRows? (.ofBytes text) = (skippedRows? (.ofBytes rest)).map (· + counted) := by
  obtain ⟨header, rows, rows', table, table', more⟩ := deleted.exists_rows unquoted
  rw [table] at garbage
  rw [table, table']
  cases header with
  | error fault => exact ⟨rfl, rfl⟩
  | ok header =>
    have kind := garbage header rfl
    exact ⟨value_ofTable_garbage kind more, skippedRows?_garbage kind more⟩

/-- A malformed line between two rows of one series, in a text with all kinds of line ends. -/
theorem ofBytes_garbage_malformed :
    let before := Utf8.encode "lock,threads,ops_s\r\nA,4,9"
    let line := Utf8.encode "A, four ,5"
    let after := Utf8.encode "A,2,7\r"
    let text := before ++ [Csv.lineFeed] ++ line ++ [Csv.carriageReturn, Csv.lineFeed] ++ after
    let rest := before ++ [Csv.carriageReturn] ++ after
    Csv.quote ∉ text ∧ Csv.LineDeleted line text rest ∧
      (∀ header, (Csv.Table.ofBytes text).header = .ok header →
        Garbage header (Csv.lineFields? line) 1) ∧
      (ofTable (.ofBytes text)).value = (ofTable (.ofBytes rest)).value ∧
      skippedRows? (.ofBytes text) = (skippedRows? (.ofBytes rest)).map (· + 1) := by
  intro before line after text rest
  have unquoted : Csv.quote ∉ text := by decide +kernel
  have deleted : Csv.LineDeleted line text rest :=
    .mk (by decide +kernel) (by decide +kernel) (by decide +kernel) ⟨by decide +kernel, nofun⟩
      ⟨by decide +kernel, nofun⟩ ⟨by decide +kernel, nofun⟩
  have garbage : ∀ header, (Csv.Table.ofBytes text).header = .ok header →
      Garbage header (Csv.lineFields? line) 1 := by
    intro header decoded
    have names : (Csv.Table.ofBytes text).header.toOption = some ["lock", "threads", "ops_s"] := by
      decide +kernel
    obtain rfl : header = ["lock", "threads", "ops_s"] := by
      rw [decoded] at names
      exact Option.some.inj names
    have fields : Csv.lineFields? line = some ["A", "four", "5"] := by decide +kernel
    have located : Columns.ofHeader ["lock", "threads", "ops_s"] = .ok ⟨0, 1, 2, none⟩ :=
      Columns.ofHeader_eq_ok_iff.2 (by decide)
    rw [fields]
    refine .malformed ⟨"A", by decide, by decide⟩ fun s measures => ?_
    have noSample : (⟨0, 1, 2, none⟩ : Columns).sample? ["A", "four", "5"] = none := by
      decide +kernel
    rw [← Columns.sample?_eq_some_iff located, noSample] at measures
    cases measures
  exact ⟨unquoted, deleted, garbage, ofBytes_garbage unquoted deleted garbage⟩

end Results

end ContentionChart
