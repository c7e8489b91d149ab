import ContentionChart.Event
import ContentionChart.Results.Columns

/-!
# Reading results

The rows of a table become measurements. A row that cannot be decoded, or that holds no
measurement, is passed over and counted; a row without any text is not even counted. It is an error
if the reading breaks off, or if no measurement is left.

## Main definitions

* `Entry` — what a row of the table comes to.
* `Results.ofTable` — the results in a table, and what is reported about its rows.
-/

namespace ContentionChart

/-- What a row comes to. -/
inductive Entry where
  | accepted (sample : Sample Float)
  | blank
  | skipped (reason : SkipReason)
  deriving DecidableEq

namespace Entry

/-- A row whose fields are all empty is blank. -/
def ofFields (columns : Columns) (fields : List String) : Entry :=
  if fields.all String.isEmpty then .blank
  else
    match columns.sample? fields with
    | some sample => .accepted sample
    | none => .skipped (.malformed fields)

/-- What a row comes to, unless it is where the reading broke off. -/
def ofRow? (columns : Columns) : Csv.Row → Option Entry
  | .fields values => some (ofFields columns values)
  | .lost fault => some (.skipped (.undecodable fault))
  | .brokenOff _ => none

def sample? : Entry → Option (Sample Float)
  | .accepted sample => some sample
  | _ => none

def skipReason? : Entry → Option SkipReason
  | .skipped reason => some reason
  | _ => none

/-- The rows up to where the reading broke off, if it did. -/
def ofRows (columns : Columns) (rows : List Csv.Row) : List Entry :=
  ((rows.map (ofRow? columns)).takeWhile Option.isSome).filterMap id

/-- Rows that were read to their end all come to something. -/
theorem ofRows_eq_filterMap (columns : Columns) {rows : List Csv.Row}
    (complete : ∀ cause, .brokenOff cause ∉ rows) :
    ofRows columns rows = rows.filterMap (ofRow? columns) := by
  induction rows with
  | nil => rfl
  | cons row rows ih =>
    have rest := ih fun cause mem => complete cause (List.mem_cons_of_mem _ mem)
    cases row with
    | fields | lost => simpa [ofRows, ofRow?] using rest
    | brokenOff cause => exact absurd List.mem_cons_self (complete cause)

/-- One event for each row that was skipped, with the number of the row among all rows. -/
def skipEvents (entries : List Entry) : List Event :=
  (entries.zipIdx 1).filterMap fun (entry, number) =>
    entry.skipReason?.map (Event.skippedRecord number)

/-- The events of rows are about single rows only. -/
theorem exists_of_mem_skipEvents {entries : List Entry} {e : Event}
    (h : e ∈ skipEvents entries) : ∃ number reason, e = .skippedRecord number reason := by
  obtain ⟨⟨entry, number⟩, -, he⟩ := List.mem_filterMap.1 h
  obtain ⟨reason, -, rfl⟩ := Option.map_eq_some_iff.1 he
  exact ⟨number, reason, rfl⟩

end Entry

/-- Why the reading broke off, if it did. -/
def Csv.brokenOff? (rows : List Csv.Row) : Option String :=
  rows.findSome? fun
    | .brokenOff cause => some cause
    | _ => none

theorem Csv.brokenOff?_eq_none_iff {rows : List Csv.Row} :
    Csv.brokenOff? rows = none ↔ ∀ cause, .brokenOff cause ∉ rows := by
  simp only [Csv.brokenOff?, List.findSome?_eq_none_iff]
  constructor
  · intro h cause mem
    cases h _ mem
  · intro h row mem
    cases row with
    | fields | lost => rfl
    | brokenOff cause => exact absurd mem (h cause)

/-- The cause is that of the first row where the reading broke off. -/
theorem Csv.exists_of_brokenOff?_eq_some {rows : List Csv.Row} {cause : String}
    (h : Csv.brokenOff? rows = some cause) :
    ∃ before after, rows = before ++ .brokenOff cause :: after ∧
      ∀ other, .brokenOff other ∉ before := by
  obtain ⟨before, row, after, rfl, here, none⟩ := List.findSome?_eq_some_iff.1 h
  cases row with
  | fields | lost => cases here
  | brokenOff other =>
    obtain rfl := Option.some.inj here
    exact ⟨before, after, rfl, Csv.brokenOff?_eq_none_iff.1 (List.findSome?_eq_none_iff.2 none)⟩

namespace Results

/-- The results in the entries of a table that was read to its end. -/
def ofEntries (entries : List Entry) : Logged (Except Failure (Results Float)) :=
  let skips := Entry.skipEvents entries
  let samples := entries.filterMap Entry.sample?
  { events := if skips.isEmpty then [] else skips ++ [.skippedRows skips.length]
    value := if samples.isEmpty then .error .noData else .ok (ofSamples samples).sorted }

/-- The results in a table. An error of the header comes before any of the rows, and a row where
reading broke off before all that was read until then. -/
def ofTable (table : Csv.Table) : Logged (Except Failure (Results Float)) :=
  match table.header with
  | .error fault => ⟨[], .error (.csv fault)⟩
  | .ok header =>
    match Columns.ofHeader header with
    | .error missing => ⟨[], .error (.missingColumns missing)⟩
    | .ok columns =>
      let entries := Entry.ofRows columns table.rows
      match Csv.brokenOff? table.rows with
      | some cause => ⟨Entry.skipEvents entries, .error (.csv (.unreadable cause))⟩
      | none => ofEntries entries

end Results

end ContentionChart
