import ContentionChart.Proofs.Accepted
import ContentionChart.Proofs.Grouping

/-!
# Reading tables

A table comes to the measurements in its rows, grouped by lock, or to one failure. Several things
can be wrong with a table at once; which of them is reported does not depend on how many
measurements were read before.

## Main statements

* `Results.ofTable_groups_accepted` — the results hold exactly the accepted measurements.
* `Results.ofTable_precedence` — the outcome, by the first thing that is wrong.
-/

namespace ContentionChart.Results

variable {header : List String} {rows : List Csv.Row}

theorem ofTable_of_missing (absent : Columns.missingNames header ≠ []) (rows : List Csv.Row) :
    ofTable ⟨.ok header, rows⟩ =
      ⟨[], .error (.missingColumns (Columns.missingNames header))⟩ := by
  simp only [ofTable, Columns.ofHeader_of_missing absent]

/-- With all required columns, a table comes to its accepted measurements, unless there are none or
reading breaks off. -/
theorem value_ofTable (present : Columns.missingNames header = []) {samples : List (Sample Float)}
    (accepted : Accepted header rows samples) :
    (ofTable ⟨.ok header, rows⟩).value =
      match Csv.brokenOff? rows with
      | some cause => .error (.csv (.unreadable cause))
      | none => if samples.isEmpty then .error .noData else .ok (ofSamples samples).sorted := by
  obtain ⟨columns, located⟩ := Columns.exists_ofHeader present
  cases broken : Csv.brokenOff? rows with
  | some cause => simp only [ofTable, located, broken]
  | none =>
    have found := (Entry.accepted_iff located).1 accepted
    rw [← Entry.samples_ofRows columns (Csv.brokenOff?_eq_none_iff.1 broken)] at found
    simp only [ofTable, located, broken, ofEntries, found]

/-- Where reading breaks off, single rows are reported but not how many they were. -/
theorem skippedRows_notMem_events_ofTable {cause : String}
    (broken : Csv.brokenOff? rows = some cause) (count : Nat) :
    .skippedRows count ∉ (ofTable ⟨.ok header, rows⟩).events := by
  intro warned
  cases located : Columns.ofHeader header with
  | error missing =>
    simp only [ofTable, located] at warned
    cases warned
  | ok columns =>
    simp only [ofTable, located, broken] at warned
    obtain ⟨_, _, single⟩ := Entry.exists_of_mem_skipEvents warned
    cases single

/-- There is exactly one list of accepted measurements, and it holds what the rows give. -/
theorem exists_accepted (present : Columns.missingNames header = []) (rows : List Csv.Row) :
    ∃ samples, (∀ others, Accepted header rows others ↔ others = samples) ∧
      ∀ s, s ∈ samples ↔ ∃ row ∈ rows, Gives header row s := by
  obtain ⟨columns, located⟩ := Columns.exists_ofHeader present
  exact ⟨_, fun _ => Entry.accepted_iff located,
    fun _ => Entry.mem_accepted_iff located ((Entry.accepted_iff located).2 rfl)⟩

/-- Results that were read are made of the accepted measurements, of which there are some. -/
theorem exists_accepted_of_value_ofTable_eq_ok {table : Csv.Table} {results : Results Float}
    (h : (ofTable table).value = .ok results) :
    ∃ header samples, table.header = .ok header ∧ Accepted header table.rows samples ∧
      samples ≠ [] ∧ results = (ofSamples samples).sorted := by
  obtain ⟨header, rows⟩ := table
  cases header with
  | error => cases h
  | ok header =>
    by_cases present : Columns.missingNames header = []
    case neg =>
      rw [ofTable_of_missing present] at h
      cases h
    case pos =>
      obtain ⟨samples, unique, -⟩ := exists_accepted present rows
      have accepted := (unique samples).2 rfl
      rw [value_ofTable present accepted] at h
      split at h
      · cases h
      · split at h
        case isTrue => cases h
        case isFalse some =>
          exact ⟨header, samples, rfl, accepted, by simpa using some, (Except.ok.inj h).symm⟩

/-- Results that were read are made of samples, each series sorted. -/
theorem exists_of_value_ofTable_eq_ok {table : Csv.Table} {results : Results Float}
    (h : (ofTable table).value = .ok results) :
    ∃ samples, results = (ofSamples samples).sorted := by
  obtain ⟨-, samples, -, -, -, same⟩ := exists_accepted_of_value_ofTable_eq_ok h
  exact ⟨samples, same⟩

/-- From a table with all required columns and at least one measurement come results that hold
exactly the accepted measurements. -/
theorem ofTable_groups_accepted
    (required : ∀ name ∈ ["lock", "threads", "ops_s"], name ∈ header)
    (complete : ∀ cause, .brokenOff cause ∉ rows)
    (measured : ∃ row ∈ rows, ∃ s, Gives header row s) :
    ∃ samples results, (∀ others, Accepted header rows others ↔ others = samples) ∧
      (ofTable ⟨.ok header, rows⟩).value = .ok results ∧ HoldsByThreads samples results := by
  have present : Columns.missingNames header = [] := by
    simpa [Columns.missingNames] using required
  obtain ⟨samples, unique, mem⟩ := exists_accepted present rows
  have value := value_ofTable present ((unique samples).2 rfl)
  rw [Csv.brokenOff?_eq_none_iff.2 complete] at value
  obtain ⟨row, inRows, s, given⟩ := measured
  have notEmpty : samples.isEmpty = false := by
    simpa using List.ne_nil_of_mem ((mem s).2 ⟨row, inRows, given⟩)
  simp only [notEmpty, Bool.false_eq_true, if_false] at value
  exact ⟨samples, _, unique, value, (holds_ofSamples samples).sorted⟩

/-- Two locks with ties, a header that names a column twice, and rows of every kind. -/
theorem ofTable_groups_accepted_mixed :
    let header := ["threads", "lock", "ops_s", "task", "lock"]
    let rows : List Csv.Row :=
      [.fields ["x", "A", "1", "early"], .fields ["4", "A", "9", "", "Z"],
        .lost (.undecodable 3 ⟨0, 1⟩ 0 0), .fields ["", "", "", "", ""],
        .fields ["2", "B", "5", "sum", "Z"], .fields ["2.7", "A", "7"], .fields ["2", "A", "6"]]
    (∀ name ∈ ["lock", "threads", "ops_s"], name ∈ header) ∧
      (∀ cause, .brokenOff cause ∉ rows) ∧ (∃ row ∈ rows, ∃ s, Gives header row s) ∧
      ∃ samples results, (∀ others, Accepted header rows others ↔ others = samples) ∧
        (ofTable ⟨.ok header, rows⟩).value = .ok results ∧ HoldsByThreads samples results := by
  intro header rows
  have required : ∀ name ∈ ["lock", "threads", "ops_s"], name ∈ header := by decide
  have complete : ∀ cause, .brokenOff cause ∉ rows := by simp [rows]
  have measured : ∃ row ∈ rows, ∃ s, Gives header row s := by
    have located : Columns.ofHeader header = .ok ⟨1, 0, 2, some 3⟩ :=
      Columns.ofHeader_eq_ok_iff.2 (by decide)
    have found :
        (Entry.sampleOfRow? ⟨1, 0, 2, some 3⟩ (.fields ["2", "A", "6"])).isSome = true := by
      decide +kernel
    obtain ⟨s, hs⟩ := Option.isSome_iff_exists.1 found
    exact ⟨.fields ["2", "A", "6"], by simp [rows], s, (Entry.gives_iff located).2 hs⟩
  exact ⟨required, complete, measured, ofTable_groups_accepted required complete measured⟩

/-- Tables that lack the same columns, break off alike and have the same measurements come to the
same. -/
theorem value_ofTable_congr {header' : List String} {rows' : List Csv.Row}
    (missing : Columns.missingNames header = Columns.missingNames header')
    (broken : Csv.brokenOff? rows = Csv.brokenOff? rows')
    (accepted : Columns.missingNames header = [] →
      ∀ samples, Accepted header rows samples → Accepted header' rows' samples) :
    (ofTable ⟨.ok header, rows⟩).value = (ofTable ⟨.ok header', rows'⟩).value := by
  by_cases present : Columns.missingNames header = []
  case neg => rw [ofTable_of_missing present, ofTable_of_missing (missing ▸ present), missing]
  case pos =>
    obtain ⟨samples, unique, -⟩ := exists_accepted present rows
    have reads := (unique samples).2 rfl
    rw [value_ofTable present reads, value_ofTable (missing ▸ present) (accepted present _ reads),
      broken]

/-- A row that cannot be decoded changes nothing about what a table comes to. -/
theorem value_ofTable_lost (header : Except Csv.Fault (List String)) (before after : List Csv.Row)
    (fault : Csv.Fault) :
    (ofTable ⟨header, before ++ .lost fault :: after⟩).value =
      (ofTable ⟨header, before ++ after⟩).value := by
  cases header with
  | error => rfl
  | ok header =>
    have broken : Csv.brokenOff? (before ++ .lost fault :: after) =
        Csv.brokenOff? (before ++ after) := by
      simp [Csv.brokenOff?, List.findSome?_append]
    refine value_ofTable_congr rfl broken fun present samples accepted => ?_
    obtain ⟨columns, located⟩ := Columns.exists_ofHeader present
    exact (Entry.accepted_lost_iff located).1 accepted

/-- What a table comes to is decided by the first thing that is wrong: the header cannot be read,
it lacks required columns, reading breaks off, or no row is a measurement. Rows that cannot be
decoded change nothing. -/
theorem ofTable_precedence (rows : List Csv.Row) :
    (∀ fault, (ofTable ⟨.error fault, rows⟩).value = .error (.csv fault)) ∧
    (∀ header,
      let missing := ["lock", "threads", "ops_s"].filter fun name => name ∉ header
      let outcome := ofTable ⟨.ok header, rows⟩
      (missing ≠ [] → outcome.value = .error (.missingColumns missing)) ∧
      (missing = [] → (∃ cause, .brokenOff cause ∈ rows) →
        ∃ before cause after, rows = before ++ .brokenOff cause :: after ∧
          (∀ other, .brokenOff other ∉ before) ∧
          outcome.value = .error (.csv (.unreadable cause)) ∧
          ∀ count, .skippedRows count ∉ outcome.events) ∧
      (missing = [] → (∀ cause, .brokenOff cause ∉ rows) →
        (outcome.value = .error .noData ↔ ∀ row ∈ rows, ∀ s, ¬ Gives header row s) ∧
        ((∃ row ∈ rows, ∃ s, Gives header row s) →
          ∃ results, outcome.value = .ok results))) ∧
    ∀ header before fault after, rows = before ++ .lost fault :: after →
      (ofTable ⟨header, rows⟩).value = (ofTable ⟨header, before ++ after⟩).value := by
  refine ⟨fun _ => rfl, fun header => ⟨?missing, ?brokenOff, ?complete⟩, ?lost⟩
  case missing =>
    intro absent
    exact congrArg Logged.value (ofTable_of_missing absent rows)
  case brokenOff =>
    rintro present ⟨cause, mem⟩
    cases broken : Csv.brokenOff? rows with
    | none => exact absurd mem (Csv.brokenOff?_eq_none_iff.1 broken cause)
    | some first =>
      obtain ⟨before, after, split, none⟩ := Csv.exists_of_brokenOff?_eq_some broken
      obtain ⟨samples, unique, -⟩ := exists_accepted present rows
      have value := value_ofTable present ((unique samples).2 rfl)
      rw [broken] at value
      exact ⟨before, first, after, split, none, value, skippedRows_notMem_events_ofTable broken⟩
  case complete =>
    intro present complete
    obtain ⟨samples, unique, mem⟩ := exists_accepted present rows
    have value := value_ofTable present ((unique samples).2 rfl)
    rw [Csv.brokenOff?_eq_none_iff.2 complete] at value
    cases samples with
    | nil =>
      have nothing : ∀ row ∈ rows, ∀ s, ¬ Gives header row s := by
        intro row inRows s given
        simpa using (mem s).2 ⟨row, inRows, given⟩
      refine ⟨⟨fun _ => nothing, fun _ => value⟩, ?_⟩
      rintro ⟨row, inRows, s, given⟩
      exact absurd given (nothing row inRows s)
    | cons s samples =>
      obtain ⟨row, inRows, given⟩ := (mem s).1 List.mem_cons_self
      refine ⟨⟨fun noData => ?_, fun nothing => absurd given (nothing row inRows s)⟩,
        fun _ => ⟨_, value⟩⟩
      rw [value] at noData
      cases noData
  case lost =>
    rintro header before fault after rfl
    exact value_ofTable_lost header before after fault

end ContentionChart.Results
