import ContentionChart.Results.Entry

/-!
# Accepted rows

Which rows of a table are measurements is said here by the names in the header alone, and the
reading of rows is shown to agree with it.

## Main statements

* `Measures` — a record is a measurement, by the first column of each name.
* `Accepted` — the measurements in some rows, in their order.
* `Columns.sample?_eq_some_iff` — reading a record finds exactly its measurement.
* `Entry.accepted_iff` — reading rows finds exactly the accepted measurements.
-/

namespace ContentionChart

/-- The field of a record under a name, which is the one in the first column of that name. -/
def FieldUnder (header : List String) (name : String) (fields : List String) (value : String) :
    Prop :=
  ∃ column : Nat, header[column]? = some name ∧ (∀ earlier < column, header[earlier]? ≠ some name) ∧
    fields[column]? = some value

/-- The names that a table is read by. -/
def knownNames : List String := ["lock", "threads", "ops_s", "task"]

/-- A record is a measurement: it has a lock, a thread count and a finite throughput. The task is
whatever stands under its name, if the header has one and the record goes that far. -/
structure Measures (header fields : List String) (s : Sample Float) : Prop where
  lock : FieldUnder header "lock" fields s.lock
  threads : ∃ text, FieldUnder header "threads" fields text ∧ threadCount? text = some s.threads
  throughput : ∃ text, FieldUnder header "ops_s" fields text ∧
    parseFloat? text = some s.throughput
  finite : Binary64.isFinite s.throughput = true
  task : ∀ task, s.task = some task ↔ FieldUnder header "task" fields task

/-- Whether a record is a measurement is decided by its fields under the known names. -/
theorem Measures.congr {header header' fields fields' : List String} {s : Sample Float}
    (same : ∀ name ∈ knownNames, ∀ value,
      FieldUnder header name fields value ↔ FieldUnder header' name fields' value)
    (measures : Measures header fields s) : Measures header' fields' s := by
  simp only [knownNames, List.forall_mem_cons] at same
  obtain ⟨lock, threads, throughput, task, -⟩ := same
  obtain ⟨isLock, ⟨text, isThreads, count⟩, ⟨written, isThroughput, parsed⟩, finite, isTask⟩ :=
    measures
  exact ⟨(lock _).1 isLock, ⟨text, (threads _).1 isThreads, count⟩,
    ⟨written, (throughput _).1 isThroughput, parsed⟩, finite,
    fun t => (isTask t).trans (task t)⟩

/-- A row that could be decoded and is a measurement. -/
def Gives (header : List String) (row : Csv.Row) (s : Sample Float) : Prop :=
  ∃ fields, row = .fields fields ∧ Measures header fields s

/-- The measurements in some rows, in the order of the rows. All other rows are passed over. -/
inductive Accepted (header : List String) : List Csv.Row → List (Sample Float) → Prop where
  | nil : Accepted header [] []
  | take {row : Csv.Row} {s : Sample Float} {rows : List Csv.Row} {samples : List (Sample Float)} :
      Gives header row s → Accepted header rows samples →
      Accepted header (row :: rows) (s :: samples)
  | pass {row : Csv.Row} {rows : List Csv.Row} {samples : List (Sample Float)} :
      (∀ s, ¬ Gives header row s) → Accepted header rows samples →
      Accepted header (row :: rows) samples

/-- Rows that give the same measurements one by one give the same together. -/
theorem Accepted.map_congr {ρ : Type} {header header' : List String} {row row' : ρ → Csv.Row}
    (same : ∀ r s, Gives header (row r) s ↔ Gives header' (row' r) s) {rs : List ρ}
    {samples : List (Sample Float)} (accepted : Accepted header (rs.map row) samples) :
    Accepted header' (rs.map row') samples := by
  induction rs generalizing samples with
  | nil =>
    cases accepted
    exact .nil
  | cons r rs ih =>
    cases accepted with
    | take given rest => exact .take ((same r _).1 given) (ih rest)
    | pass none rest => exact .pass (fun s given => none s ((same r s).2 given)) (ih rest)

theorem Accepted.exists_of_mem {header : List String} {rows : List Csv.Row}
    {samples : List (Sample Float)} (accepted : Accepted header rows samples) {s : Sample Float}
    (mem : s ∈ samples) : ∃ row ∈ rows, Gives header row s := by
  induction accepted with
  | nil => cases mem
  | take given _ ih =>
    rcases List.mem_cons.1 mem with rfl | later
    · exact ⟨_, List.mem_cons_self, given⟩
    · obtain ⟨row, inRows, gives⟩ := ih later
      exact ⟨row, List.mem_cons_of_mem _ inRows, gives⟩
  | pass _ _ ih =>
    obtain ⟨row, inRows, gives⟩ := ih mem
    exact ⟨row, List.mem_cons_of_mem _ inRows, gives⟩

theorem fieldUnder_iff {header : List String} {name : String} {fields : List String}
    {value : String} :
    FieldUnder header name fields value ↔
      ∃ column, header.idxOf? name = some column ∧ fields[column]? = some value := by
  simp only [FieldUnder, List.idxOf?_eq_some_iff]
  constructor
  · rintro ⟨column, here, first, found⟩
    obtain ⟨bound, same⟩ := List.getElem?_eq_some_iff.1 here
    refine ⟨column, ⟨bound, same, ?_⟩, found⟩
    intro earlier before other
    exact first earlier before (List.getElem?_eq_some_iff.2 ⟨Nat.lt_trans before bound, other⟩)
  · rintro ⟨column, ⟨bound, same, first⟩, found⟩
    refine ⟨column, List.getElem?_eq_some_iff.2 ⟨bound, same⟩, ?_, found⟩
    intro earlier before other
    exact first earlier before (List.getElem?_eq_some_iff.1 other).2

theorem fieldUnder_iff_getElem? {header fields : List String} {name value : String} {column : Nat}
    (located : header.idxOf? name = some column) :
    FieldUnder header name fields value ↔ fields[column]? = some value := by
  simp [fieldUnder_iff, located]

theorem not_fieldUnder_nil {name : String} {fields : List String} {value : String} :
    ¬ FieldUnder [] name fields value := by
  rintro ⟨column, here, -⟩
  cases here

@[simp] theorem fieldUnder_cons_self {header : List String} {name field : String}
    {fields : List String} {value : String} :
    FieldUnder (name :: header) name (field :: fields) value ↔ field = value := by
  simp [fieldUnder_iff, List.idxOf?_cons]

theorem fieldUnder_cons_of_ne {header : List String} {other name field : String}
    {fields : List String} {value : String} (different : other ≠ name) :
    FieldUnder (other :: header) name (field :: fields) value ↔
      FieldUnder header name fields value := by
  have skipped : (other == name) = false := by simpa using different
  simp only [fieldUnder_iff, List.idxOf?_cons, skipped, Bool.false_eq_true, if_false,
    Option.map_eq_some_iff]
  constructor
  · rintro ⟨_, ⟨column, located, rfl⟩, found⟩
    exact ⟨column, located, found⟩
  · rintro ⟨column, located, found⟩
    exact ⟨column + 1, ⟨column, located, rfl⟩, found⟩

namespace Columns

variable {header : List String} {columns : Columns}

/-- What a header with all required columns comes to. -/
theorem ofHeader_eq_ok_iff :
    ofHeader header = .ok columns ↔
      header.idxOf? "lock" = some columns.lock ∧ header.idxOf? "threads" = some columns.threads ∧
        header.idxOf? "ops_s" = some columns.throughput ∧
        columns.task = header.idxOf? "task" := by
  obtain ⟨lock, threads, throughput, task⟩ := columns
  unfold ofHeader
  simp only [lockName, threadsName, throughputName, taskName]
  cases header.idxOf? "lock" <;> cases header.idxOf? "threads" <;>
    cases header.idxOf? "ops_s" <;> simp [eq_comm]

/-- The required names that a header lacks, in a fixed order. -/
def missingNames (header : List String) : List String :=
  ["lock", "threads", "ops_s"].filter fun name => name ∉ header

theorem ofHeader_of_missing (h : missingNames header ≠ []) :
    ofHeader header = .error (missingNames header) := by
  have lock := List.isSome_idxOf? (l := header) (a := "lock")
  have threads := List.isSome_idxOf? (l := header) (a := "threads")
  have throughput := List.isSome_idxOf? (l := header) (a := "ops_s")
  unfold missingNames at h ⊢
  simp only [ofHeader, requiredNames, lockName, threadsName, throughputName]
  cases hl : header.idxOf? "lock" <;> cases ht : header.idxOf? "threads" <;>
    cases hy : header.idxOf? "ops_s" <;> simp_all

theorem exists_ofHeader (h : missingNames header = []) :
    ∃ columns, ofHeader header = .ok columns := by
  simp only [missingNames, List.filter_eq_nil_iff, List.forall_mem_cons, decide_eq_true_eq,
    Decidable.not_not] at h
  obtain ⟨lock, threads, throughput, -⟩ := h
  obtain ⟨l, hl⟩ := Option.isSome_iff_exists.1 (List.isSome_idxOf?.2 lock)
  obtain ⟨t, ht⟩ := Option.isSome_iff_exists.1 (List.isSome_idxOf?.2 threads)
  obtain ⟨y, hy⟩ := Option.isSome_iff_exists.1 (List.isSome_idxOf?.2 throughput)
  exact ⟨⟨l, t, y, header.idxOf? "task"⟩, ofHeader_eq_ok_iff.2 ⟨hl, ht, hy, rfl⟩⟩

/-- Reading a record finds exactly its measurement. -/
theorem sample?_eq_some_iff (located : ofHeader header = .ok columns) {fields : List String}
    {s : Sample Float} : columns.sample? fields = some s ↔ Measures header fields s := by
  obtain ⟨lock, threads, throughput, task⟩ := ofHeader_eq_ok_iff.1 located
  unfold sample?
  simp only [Option.bind_eq_bind, Option.bind_eq_some_iff]
  constructor
  · rintro ⟨label, isLock, text, isThreads, count, hc, written, isThroughput, y, hy, built⟩
    split at built
    case isTrue finite =>
      obtain rfl := Option.some.inj built
      refine ⟨(fieldUnder_iff_getElem? lock).2 isLock,
        ⟨text, (fieldUnder_iff_getElem? threads).2 isThreads, hc⟩,
        ⟨written, (fieldUnder_iff_getElem? throughput).2 isThroughput, hy⟩, finite, fun t => ?_⟩
      rw [fieldUnder_iff, ← task, Option.bind_eq_some_iff]
    case isFalse => cases built
  · rintro ⟨isLock, ⟨text, isThreads, hc⟩, ⟨written, isThroughput, hy⟩, finite, isTask⟩
    have sameTask : (columns.task.bind fun task => fields[task]?) = s.task := by
      refine Option.ext fun t => ?_
      rw [isTask, fieldUnder_iff, ← task, Option.bind_eq_some_iff]
    refine ⟨s.lock, (fieldUnder_iff_getElem? lock).1 isLock, text,
      (fieldUnder_iff_getElem? threads).1 isThreads, s.threads, hc, written,
      (fieldUnder_iff_getElem? throughput).1 isThroughput, s.throughput, hy, ?_⟩
    rw [if_pos finite, sameTask]

/-- A record without any text is no measurement, since no text is no number. -/
theorem sample?_of_blank (columns : Columns) {fields : List String}
    (blank : fields.all String.isEmpty = true) : columns.sample? fields = none := by
  refine Option.eq_none_iff_forall_ne_some.2 ?_
  intro s h
  simp only [sample?, Option.bind_eq_bind, Option.bind_eq_some_iff] at h
  obtain ⟨-, -, text, found, count, hc, -⟩ := h
  have empty : text = "" := by
    simpa using List.all_eq_true.1 blank text (List.mem_of_getElem? found)
  have none : threadCount? "" = none := by decide
  rw [empty, none] at hc
  cases hc

end Columns

namespace Entry

/-- The measurement in a row. -/
def sampleOfRow? (columns : Columns) (row : Csv.Row) : Option (Sample Float) :=
  (ofRow? columns row).bind sample?

theorem sample?_ofFields (columns : Columns) (fields : List String) :
    (ofFields columns fields).sample? = columns.sample? fields := by
  unfold ofFields
  split
  case isTrue blank => rw [Columns.sample?_of_blank columns blank]; rfl
  case isFalse => cases columns.sample? fields <;> rfl

theorem samples_ofRows (columns : Columns) {rows : List Csv.Row}
    (complete : ∀ cause, .brokenOff cause ∉ rows) :
    (ofRows columns rows).filterMap sample? = rows.filterMap (sampleOfRow? columns) := by
  rw [ofRows_eq_filterMap columns complete, List.filterMap_filterMap]
  rfl

variable {header : List String} {columns : Columns}

theorem gives_iff (located : Columns.ofHeader header = .ok columns) {row : Csv.Row}
    {s : Sample Float} : Gives header row s ↔ sampleOfRow? columns row = some s := by
  cases row with
  | fields fields =>
    simp [Gives, sampleOfRow?, ofRow?, sample?_ofFields, Columns.sample?_eq_some_iff located]
  | lost | brokenOff => simp [Gives, sampleOfRow?, ofRow?, sample?]

/-- The accepted measurements are one list, the one that is found row by row. -/
theorem accepted_iff (located : Columns.ofHeader header = .ok columns) {rows : List Csv.Row}
    {samples : List (Sample Float)} :
    Accepted header rows samples ↔ samples = rows.filterMap (sampleOfRow? columns) := by
  induction rows generalizing samples with
  | nil =>
    constructor
    · rintro ⟨⟩
      rfl
    · rintro rfl
      exact .nil
  | cons row rows ih =>
    cases found : sampleOfRow? columns row with
    | none =>
      have passed : ∀ s, ¬ Gives header row s := by simp [gives_iff located, found]
      rw [List.filterMap_cons_none found, ← ih]
      constructor
      · intro h
        cases h with
        | take given => exact absurd given (passed _)
        | pass _ h => exact h
      · exact .pass passed
    | some s =>
      have given : Gives header row s := (gives_iff located).2 found
      rw [List.filterMap_cons_some found]
      constructor
      · intro h
        cases h with
        | take other h =>
          rw [gives_iff located, found] at other
          rw [Option.some.inj other, ← ih.1 h]
        | pass none => exact absurd given (none s)
      · rintro rfl
        exact .take given (ih.2 rfl)

/-- A row that cannot be decoded changes nothing about the others. -/
theorem accepted_lost_iff (located : Columns.ofHeader header = .ok columns)
    {before after : List Csv.Row} {fault : Csv.Fault} {samples : List (Sample Float)} :
    Accepted header (before ++ .lost fault :: after) samples ↔
      Accepted header (before ++ after) samples := by
  have none : sampleOfRow? columns (.lost fault) = none := rfl
  rw [accepted_iff located, accepted_iff located, List.filterMap_append, List.filterMap_append,
    List.filterMap_cons_none none]

theorem mem_accepted_iff (located : Columns.ofHeader header = .ok columns) {rows : List Csv.Row}
    {samples : List (Sample Float)} (accepted : Accepted header rows samples) {s : Sample Float} :
    s ∈ samples ↔ ∃ row ∈ rows, Gives header row s := by
  rw [(accepted_iff located).1 accepted]
  simp only [List.mem_filterMap, gives_iff located]

end Entry

end ContentionChart
