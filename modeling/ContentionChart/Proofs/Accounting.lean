import ContentionChart.Proofs.Reading
import ContentionChart.Proofs.Skipped

/-!
# Every record is accounted for

A record of a table is a measurement, or has no text, or is skipped. Each skipped record is reported
under its number among all records, and at the end one warning tells how many they were.

## Main definitions

* `Results.Skips` — the skipped records of a table, by their numbers.

## Main statements

* `Entry.length_eq_samples_add_blanks_add_skips` — every entry is a sample, or blank, or reported.
* `Results.skips_ofRows` — what is reported are the skipped records.
* `Results.ofTable_records_accounted` — the account of a whole table.
-/

namespace ContentionChart

/-! ## Rows and reports -/

namespace Csv.Row

/-- A row that was decoded and has no text in any field. -/
def isBlank : Row → Bool
  | .fields values => values.all String.isEmpty
  | _ => false

/-- What there is to say about a row if it is skipped. -/
def reason? : Row → Option SkipReason
  | .fields values => some (.malformed values)
  | .lost fault => some (.undecodable fault)
  | .brokenOff _ => none

end Csv.Row

namespace Event

/-- A report that helps in debugging and begins with this word. -/
def saysSkipping (e : Event) : Bool :=
  e.level == .debug && "skipping".toList.isPrefixOf e.text.toList

/-- The report on a skipped record, given its number and the reason. -/
def ofSkip (skip : Nat × SkipReason) : Event := .skippedRecord skip.1 skip.2

theorem saysSkipping_ofSkip (skip : Nat × SkipReason) : (ofSkip skip).saysSkipping = true := by
  obtain ⟨number, reason⟩ := skip
  have words : "skipping".toList <+: (ofSkip (number, reason)).text.toList := by
    show "skipping".toList <+: ("skipping " ++ skipText number reason).toList
    rw [String.toList_append]
    exact List.IsPrefix.trans ⟨[' '], by decide⟩ (List.prefix_append _ _)
  rw [saysSkipping, List.isPrefixOf_iff_prefix.2 words]
  rfl

/-- The warning about all skipped records, in the past tense, if there are any. -/
def skipWarning (count : Nat) : List Event := if count = 0 then [] else [.skippedRows count]

/-- Of the reports on skipped records and the warning about them, the debugging ones are the former
and the loud one is the latter. -/
theorem filter_skips_append_skipWarning (skips : List (Nat × SkipReason)) (count : Nat) :
    ((skips.map ofSkip ++ skipWarning count).filter saysSkipping = skips.map ofSkip) ∧
      (skips.map ofSkip ++ skipWarning count).filter (fun e => e.level = .warn) =
        skipWarning count := by
  have quiet : ∀ e ∈ skips.map ofSkip, e.saysSkipping = true ∧ ¬ e.level = .warn := by
    intro e mem
    obtain ⟨skip, -, rfl⟩ := List.mem_map.1 mem
    exact ⟨saysSkipping_ofSkip skip, nofun⟩
  have skipping : (skips.map ofSkip).filter saysSkipping = skips.map ofSkip :=
    List.filter_eq_self.2 fun e mem => (quiet e mem).1
  have loud : (skips.map ofSkip).filter (fun e => e.level = .warn) = [] :=
    List.filter_eq_nil_iff.2 fun e mem => by simpa using (quiet e mem).2
  rw [List.filter_append, List.filter_append, skipping, loud]
  unfold skipWarning
  split
  · exact ⟨List.append_nil _, rfl⟩
  · exact ⟨List.append_nil _, rfl⟩

end Event

namespace Entry

/-! ## Entries -/

/-- The skipped entries with their numbers, which count from one. -/
def skips (entries : List Entry) : List (Nat × SkipReason) :=
  (entries.zipIdx 1).filterMap fun (entry, number) => entry.skipReason?.map (number, ·)

theorem skipEvents_eq (entries : List Entry) :
    skipEvents entries = (skips entries).map .ofSkip := by
  rw [skipEvents, skips, List.map_filterMap]
  congr 1
  funext numbered
  obtain ⟨entry, number⟩ := numbered
  show entry.skipReason?.map (Event.skippedRecord number) = (entry.skipReason?.map _).map _
  rw [Option.map_map]
  rfl

theorem mem_skips_iff {entries : List Entry} {number : Nat} {reason : SkipReason} :
    (number, reason) ∈ skips entries ↔
      ∃ index entry, number = index + 1 ∧ entries[index]? = some entry ∧
        entry.skipReason? = some reason := by
  simp only [skips, List.mem_filterMap, Option.map_eq_some_iff, Prod.mk.injEq]
  constructor
  · rintro ⟨⟨entry, place⟩, mem, _, skipped, rfl, rfl⟩
    obtain ⟨le, found⟩ := List.mk_mem_zipIdx_iff_le_and_getElem?_sub.1 mem
    exact ⟨place - 1, entry, by omega, found, skipped⟩
  · rintro ⟨index, entry, rfl, found, skipped⟩
    refine ⟨(entry, index + 1), ?_, reason, skipped, rfl, rfl⟩
    exact List.mk_mem_zipIdx_iff_le_and_getElem?_sub.2 ⟨by omega, by simpa using found⟩

/-- The numbers go up from each entry to the next, and so they do over those that are skipped. -/
theorem ascending_skips (entries : List Entry) :
    (skips entries).Pairwise fun a b => a.1 < b.1 := by
  have numbered : (entries.zipIdx 1).Pairwise fun a b => a.2 < b.2 := by
    have range : ((entries.zipIdx 1).map Prod.snd).Pairwise (· < ·) := by
      rw [List.zipIdx_map_snd]
      exact List.pairwise_lt_range'
    exact List.pairwise_map.1 range
  refine List.pairwise_filterMap.2 (numbered.imp fun before a ha b hb => ?_)
  obtain ⟨_, -, rfl⟩ := Option.map_eq_some_iff.1 ha
  obtain ⟨_, -, rfl⟩ := Option.map_eq_some_iff.1 hb
  exact before

def isBlank : Entry → Bool
  | .blank => true
  | _ => false

theorem length_skips (entries : List Entry) :
    (skips entries).length = entries.countP fun entry => entry.skipReason?.isSome := by
  rw [← length_skipEvents, skipEvents_eq, List.length_map]

/-- Every entry is a sample, or blank, or skipped. -/
theorem length_eq_samples_add_blanks_add_skips (entries : List Entry) :
    entries.length =
      (entries.filterMap sample?).length + entries.countP isBlank + (skips entries).length := by
  rw [length_skips]
  induction entries with
  | nil => rfl
  | cons entry entries ih =>
    cases entry <;>
      simp only [List.length_cons, List.filterMap_cons, List.countP_cons, sample?, isBlank,
        skipReason?, Option.isSome_none, Option.isSome_some, Bool.false_eq_true, if_true,
        if_false, ih] <;>
      omega

/-! ## Entries of rows -/

/-- Rows that were read to their end come to one entry each. -/
theorem ofRows_eq_map (columns : Columns) {rows : List Csv.Row}
    (complete : ∀ cause, .brokenOff cause ∉ rows) :
    (ofRows columns rows).map some = rows.map (ofRow? columns) := by
  rw [ofRows_eq_filterMap columns complete]
  induction rows with
  | nil => rfl
  | cons row rows ih =>
    have rest := ih fun cause mem => complete cause (List.mem_cons_of_mem _ mem)
    cases row with
    | fields | lost => simpa [ofRow?] using rest
    | brokenOff cause => exact absurd List.mem_cons_self (complete cause)

theorem getElem?_ofRows (columns : Columns) {rows : List Csv.Row}
    (complete : ∀ cause, .brokenOff cause ∉ rows) {index : Nat} {entry : Entry} :
    (ofRows columns rows)[index]? = some entry ↔
      ∃ row, rows[index]? = some row ∧ ofRow? columns row = some entry := by
  have same := congrArg (·[index]?) (ofRows_eq_map columns complete)
  simp only [List.getElem?_map] at same
  cases here : (ofRows columns rows)[index]? <;> cases there : rows[index]? <;> simp_all

theorem length_ofRows (columns : Columns) {rows : List Csv.Row}
    (complete : ∀ cause, .brokenOff cause ∉ rows) : (ofRows columns rows).length = rows.length := by
  simpa using congrArg List.length (ofRows_eq_map columns complete)

theorem countP_isBlank_ofRows (columns : Columns) {rows : List Csv.Row}
    (complete : ∀ cause, .brokenOff cause ∉ rows) :
    (ofRows columns rows).countP isBlank = rows.countP Csv.Row.isBlank := by
  rw [ofRows_eq_filterMap columns complete, List.countP_filterMap]
  refine List.countP_congr fun row mem => ?_
  cases row with
  | fields values =>
    by_cases blank : values.all String.isEmpty = true
    · simp [ofRow?, ofFields, blank, isBlank, Csv.Row.isBlank]
    · cases found : columns.sample? values <;>
        simp [ofRow?, ofFields, blank, isBlank, Csv.Row.isBlank, found]
  | lost => rfl
  | brokenOff cause => exact absurd mem (complete cause)

/-- A row is skipped if it has some text, or could not be decoded, and is no measurement. -/
theorem skipReason?_ofRow?_eq_some_iff {header : List String} {columns : Columns}
    (located : Columns.ofHeader header = .ok columns) {row : Csv.Row} {reason : SkipReason} :
    (ofRow? columns row).bind skipReason? = some reason ↔
      row.isBlank = false ∧ (∀ s, ¬ Gives header row s) ∧ row.reason? = some reason := by
  cases row with
  | lost | brokenOff => simp [ofRow?, skipReason?, Csv.Row.isBlank, Csv.Row.reason?, Gives]
  | fields values =>
    have none_iff : (∀ s, ¬ Gives header (.fields values) s) ↔ columns.sample? values = none := by
      rw [Option.eq_none_iff_forall_ne_some]
      refine forall_congr' fun s => not_congr ?_
      simp [Gives, Columns.sample?_eq_some_iff located]
    rw [none_iff]
    by_cases blank : values.all String.isEmpty = true
    · simp [ofRow?, ofFields, blank, skipReason?, Csv.Row.isBlank]
    · cases found : columns.sample? values <;>
        simp [ofRow?, ofFields, blank, found, skipReason?, Csv.Row.isBlank, Csv.Row.reason?]

end Entry

namespace Results

/-! ## The account of a table -/

/-- The skipped records are those that have some text, or could not be decoded, and are no
measurement. Each is listed once, by its number among all records, from one. -/
structure Skips (header : List String) (rows : List Csv.Row) (skips : List (Nat × SkipReason)) :
    Prop where
  ascending : skips.Pairwise fun a b => a.1 < b.1
  mem : ∀ number reason, (number, reason) ∈ skips ↔
    ∃ index row, number = index + 1 ∧ rows[index]? = some row ∧ row.isBlank = false ∧
      (∀ s, ¬ Gives header row s) ∧ row.reason? = some reason

theorem skips_ofRows {header : List String} {columns : Columns}
    (located : Columns.ofHeader header = .ok columns) {rows : List Csv.Row}
    (complete : ∀ cause, .brokenOff cause ∉ rows) :
    Skips header rows (Entry.skips (Entry.ofRows columns rows)) where
  ascending := Entry.ascending_skips _
  mem number reason := by
    simp only [Entry.mem_skips_iff, Entry.getElem?_ofRows columns complete,
      ← Entry.skipReason?_ofRow?_eq_some_iff located, Option.bind_eq_some_iff]
    constructor
    · rintro ⟨index, entry, rfl, ⟨row, found, entered⟩, skipped⟩
      exact ⟨index, row, rfl, found, entry, entered, skipped⟩
    · rintro ⟨index, row, rfl, found, entry, entered, skipped⟩
      exact ⟨index, entry, rfl, ⟨row, found, entered⟩, skipped⟩

theorem events_ofEntries (entries : List Entry) :
    (ofEntries entries).events =
      (Entry.skips entries).map .ofSkip ++ Event.skipWarning (Entry.skips entries).length := by
  simp only [ofEntries, Entry.skipEvents_eq, List.length_map, Event.skipWarning]
  cases Entry.skips entries <;> simp

variable {header : List String} {rows : List Csv.Row}

/-- Every record of a table with the required columns is a measurement, or blank, or reported as
skipped under its number. The warning comes after all these reports and tells how many they are, and
the results, if there are any, hold one sample for each measurement. -/
theorem ofTable_records_accounted
    (required : ∀ name ∈ ["lock", "threads", "ops_s"], name ∈ header)
    (complete : ∀ cause, .brokenOff cause ∉ rows) :
    let outcome := ofTable ⟨.ok header, rows⟩
    ∃ samples skips,
      (∀ others, Accepted header rows others ↔ others = samples) ∧ Skips header rows skips ∧
      rows.length = samples.length + rows.countP Csv.Row.isBlank + skips.length ∧
      outcome.events = skips.map .ofSkip ++ Event.skipWarning skips.length ∧
      outcome.events.filter Event.saysSkipping = skips.map .ofSkip ∧
      (outcome.events.filter fun e => e.level = .warn).map Event.text =
        (if skips.length = 0 then []
          else ["skipped " ++ toString skips.length ++ " malformed row(s)"]) ∧
      (samples = [] → outcome.value = .error .noData) ∧
      (samples ≠ [] →
        ∃ results, outcome.value = .ok results ∧ results.totalSamples = samples.length) := by
  intro outcome
  have present : Columns.missingNames header = [] := by
    simpa [Columns.missingNames] using required
  obtain ⟨columns, located⟩ := Columns.exists_ofHeader present
  let entries := Entry.ofRows columns rows
  have whole : outcome = ofEntries entries := by
    simp only [outcome, ofTable, located, Csv.brokenOff?_eq_none_iff.2 complete, entries]
  have found : entries.filterMap Entry.sample? = rows.filterMap (Entry.sampleOfRow? columns) :=
    Entry.samples_ofRows columns complete
  have events : outcome.events = (Entry.skips entries).map .ofSkip ++
      Event.skipWarning (Entry.skips entries).length := by
    rw [whole, events_ofEntries]
  obtain ⟨debug, loud⟩ :=
    Event.filter_skips_append_skipWarning (Entry.skips entries) (Entry.skips entries).length
  refine ⟨entries.filterMap Entry.sample?, Entry.skips entries, ?accepted,
    skips_ofRows located complete, ?total, events, ?debug, ?loud, ?noData, ?ok⟩
  case accepted =>
    intro others
    rw [found]
    exact Entry.accepted_iff located
  case total =>
    rw [← Entry.length_ofRows columns complete, ← Entry.countP_isBlank_ofRows columns complete]
    exact Entry.length_eq_samples_add_blanks_add_skips entries
  case debug => rw [events, debug]
  case loud =>
    rw [events, loud, Event.skipWarning]
    split <;> rfl
  case noData =>
    intro none
    rw [whole, ofEntries, none]
    rfl
  case ok =>
    intro some
    have notEmpty : (entries.filterMap Entry.sample?).isEmpty = false := by simpa using some
    refine ⟨(ofSamples (entries.filterMap Entry.sample?)).sorted, ?_, by simp⟩
    simp only [whole, ofEntries, notEmpty, Bool.false_eq_true, if_false]

/-- A table with records of every kind: two skipped ones among a blank one and a measurement. -/
theorem ofTable_records_accounted_mixed :
    let header := ["lock", "ops_s", "threads"]
    let rows : List Csv.Row :=
      [.fields ["", "", ""], .lost (.undecodable 2 ⟨0, 1⟩ 0 0), .fields ["A", "5", "2"],
        .fields ["A", "fast", "2"]]
    (∀ name ∈ ["lock", "threads", "ops_s"], name ∈ header) ∧
      (∀ cause, .brokenOff cause ∉ rows) ∧
      let outcome := ofTable ⟨.ok header, rows⟩
      ∃ samples skips,
        (∀ others, Accepted header rows others ↔ others = samples) ∧ Skips header rows skips ∧
        rows.length = samples.length + rows.countP Csv.Row.isBlank + skips.length ∧
        outcome.events = skips.map .ofSkip ++ Event.skipWarning skips.length ∧
        outcome.events.filter Event.saysSkipping = skips.map .ofSkip ∧
        (outcome.events.filter fun e => e.level = .warn).map Event.text =
          (if skips.length = 0 then []
            else ["skipped " ++ toString skips.length ++ " malformed row(s)"]) ∧
        (samples = [] → outcome.value = .error .noData) ∧
        (samples ≠ [] →
          ∃ results, outcome.value = .ok results ∧ results.totalSamples = samples.length) := by
  intro header rows
  have required : ∀ name ∈ ["lock", "threads", "ops_s"], name ∈ header := by decide
  have complete : ∀ cause, .brokenOff cause ∉ rows := by simp [rows]
  exact ⟨required, complete, ofTable_records_accounted required complete⟩

end Results

end ContentionChart
