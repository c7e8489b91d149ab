import ContentionChart.Proofs.Decoding

/-!
# Skipped rows

One warning tells how many rows were skipped. It counts the rows that could not be decoded and those
with some text that are no measurement.

## Main definitions

* `Entry.isSkip` — whether a row is skipped, by what was decoded of it.
* `Results.skippedRows?` — how many rows are said to be skipped.

## Main statements

* `Results.warnedRows_ofEntries` — the warning counts the skipped entries.
* `Results.skippedRows?_of_present` — and so the rows that come to such an entry.
-/

namespace ContentionChart

namespace Entry

/-- Whether a row with the given fields is counted as skipped. -/
def isSkip (columns : Columns) (values? : Option (List String)) : Bool :=
  values?.all fun values => (ofFields columns values).skipReason?.isSome

/-- One event for each skipped entry. -/
theorem length_skipEvents (entries : List Entry) :
    (skipEvents entries).length = entries.countP fun entry => entry.skipReason?.isSome := by
  have numbered : (skipEvents entries).length =
      (entries.zipIdx 1).countP ((fun entry => entry.skipReason?.isSome) ∘ Prod.fst) := by
    rw [skipEvents, List.length_filterMap_eq_countP]
    simp [Function.comp_def]
  rw [numbered, ← List.countP_map, List.zipIdx_map_fst]

theorem countP_skipReason?_ofRows (columns : Columns) {rows : List Csv.Row}
    (complete : Csv.brokenOff? rows = none) :
    ((ofRows columns rows).countP fun entry => entry.skipReason?.isSome) =
      (rows.map Csv.Row.values?).countP (isSkip columns) := by
  have noBreak := Csv.brokenOff?_eq_none_iff.1 complete
  rw [ofRows_eq_filterMap columns noBreak, List.countP_filterMap, List.countP_map]
  refine List.countP_congr fun row mem => ?_
  cases row with
  | fields | lost => rfl
  | brokenOff cause => exact absurd mem (noBreak cause)

end Entry

/-- The number of skipped rows, if this is the warning about them. -/
def Event.rowCount? : Event → Option Nat
  | .skippedRows count => some count
  | _ => none

/-- The number of skipped rows in the warning about them. Without one there are none. -/
def warnedRows (events : List Event) : Nat := (events.findSome? Event.rowCount?).getD 0

namespace Results

theorem warnedRows_ofEntries (entries : List Entry) :
    warnedRows (ofEntries entries).events =
      entries.countP fun entry => entry.skipReason?.isSome := by
  have single : (Entry.skipEvents entries).findSome? Event.rowCount? = none := by
    refine List.findSome?_eq_none_iff.2 fun e mem => ?_
    obtain ⟨number, reason, rfl⟩ := Entry.exists_of_mem_skipEvents mem
    rfl
  rw [← Entry.length_skipEvents, warnedRows, ofEntries]
  cases skips : (Entry.skipEvents entries).isEmpty with
  | true =>
    rw [List.isEmpty_iff.1 skips]
    rfl
  | false => simp [List.findSome?_append, single, Event.rowCount?]

/-- The number of rows of a table that are said to be skipped, if the columns are found and rows are
read at all. -/
def skippedRows? (table : Csv.Table) : Option Nat :=
  match table.header with
  | .error _ => none
  | .ok header =>
    if Columns.missingNames header = [] then some (warnedRows (ofTable table).events) else none

variable {header : List String} {rows : List Csv.Row}

theorem skippedRows?_of_missing (absent : Columns.missingNames header ≠ [])
    (rows : List Csv.Row) : skippedRows? ⟨.ok header, rows⟩ = none := by
  simp only [skippedRows?, if_neg absent]

/-- Skipped rows are counted by what was decoded of them. -/
theorem skippedRows?_of_present (present : Columns.missingNames header = []) {columns : Columns}
    (located : Columns.ofHeader header = .ok columns) (complete : Csv.brokenOff? rows = none) :
    skippedRows? ⟨.ok header, rows⟩ =
      some ((rows.map Csv.Row.values?).countP (Entry.isSkip columns)) := by
  simp only [skippedRows?, if_pos present, ofTable, located, complete, warnedRows_ofEntries,
    Entry.countP_skipReason?_ofRows columns complete]

end Results

end ContentionChart
