import ContentionChart.Proofs.Reading

/-!
# The order of rows

Which series a file comes to depends on the order of its rows only as far as rows of one lock and
one thread count are concerned. The throughputs of such rows can be read back from the series in
their order, so that nothing else of the order is left in them.

## Main definitions

* `Results.throughputsOf` — what was measured of a lock with a thread count, in order.
* `Results.Reads` — a table is complete and comes to the given samples.

## Main statements

* `Results.series_ofSamples_eq_iff` — when samples come to the same series.
* `Results.ofTable_series_eq_iff` — when tables do.
-/

namespace ContentionChart.Results

variable {α : Type}

/-- The samples of a lock with a thread count, in their order. -/
def samplesOf (lock : String) (threads : Nat) (samples : List (Sample α)) : List (Sample α) :=
  samples.filter fun s => s.lock = lock ∧ s.threads = threads

/-- The throughputs of a lock with a thread count, in the order in which they were measured. -/
def throughputsOf (lock : String) (threads : Nat) (samples : List (Sample α)) : List α :=
  (samplesOf lock threads samples).map Sample.throughput

/-- A sample adds its throughput to those before and after it. -/
theorem throughputsOf_append_cons {lock : String} {threads : Nat} {s : Sample α}
    (sameLock : s.lock = lock) (sameThreads : s.threads = threads)
    (before after : List (Sample α)) :
    throughputsOf lock threads (before ++ s :: after) =
      throughputsOf lock threads before ++ s.throughput :: throughputsOf lock threads after := by
  simp [throughputsOf, samplesOf, sameLock, sameThreads]

theorem throughputsOf_ne_nil {s : Sample α} {samples : List (Sample α)} (mem : s ∈ samples) :
    throughputsOf s.lock s.threads samples ≠ [] := by
  rw [throughputsOf, ne_eq, List.map_eq_nil_iff]
  exact List.ne_nil_of_mem (List.mem_filter.2 ⟨mem, by simp⟩)

/-- The points of a lock with a thread count are its throughputs, each with that thread count. -/
theorem filter_pointsOf (lock : String) (threads : Nat) (samples : List (Sample α)) :
    ((pointsOf lock samples).filter fun p => p.1 = threads) =
      (throughputsOf lock threads samples).map fun y => (threads, y) := by
  induction samples with
  | nil => rfl
  | cons s samples ih =>
    simp only [pointsOf, throughputsOf, samplesOf, List.filter_cons] at ih ⊢
    by_cases sameLock : s.lock = lock <;> by_cases sameThreads : s.threads = threads <;>
      simp [sameLock, sameThreads, ih]

theorem map_pair_inj (threads : Nat) {ys zs : List α} :
    (ys.map fun y => (threads, y)) = (zs.map fun y => (threads, y)) ↔ ys = zs :=
  List.map_inj_right fun _ _ same => congrArg Prod.snd same

/-- A lock has a series exactly if something was measured of it. -/
theorem exists_throughputsOf_iff {lock : String} {samples : List (Sample α)} :
    (∃ threads, throughputsOf lock threads samples ≠ []) ↔ ∃ s ∈ samples, s.lock = lock := by
  constructor
  · rintro ⟨threads, some⟩
    obtain ⟨y, measured⟩ := List.exists_mem_of_ne_nil _ some
    obtain ⟨s, mem, -⟩ := List.mem_map.1 measured
    obtain ⟨inSamples, passes⟩ := List.mem_filter.1 mem
    exact ⟨s, inSamples, (of_decide_eq_true passes).1⟩
  · rintro ⟨s, mem, rfl⟩
    exact ⟨s.threads, throughputsOf_ne_nil mem⟩

/-- Whether or not a lock has a series, its points are in stable order. -/
theorem Holds.stableOrder {samples : List (Sample α)} {r : Results α} (h : Holds samples r)
    (lock : String) :
    StableOrder Prod.fst (pointsOf lock samples) ((r.sorted.find? lock).getD .empty).points := by
  rw [find?_sorted, ← h.points lock]
  cases r.find? lock with
  | none => simpa using stableOrder_byThreads (.empty : Series α)
  | some s => exact stableOrder_byThreads s

theorem Holds.find?_sorted_eq_none_iff {samples : List (Sample α)} {r : Results α}
    (h : Holds samples r) {lock : String} :
    r.sorted.find? lock = none ↔ ∀ threads, throughputsOf lock threads samples = [] := by
  have labels := h.labels lock
  rw [LabelMap.mem_labels_iff, ← exists_throughputsOf_iff] at labels
  rw [find?_sorted, Option.map_eq_none_iff, Option.eq_none_iff_forall_ne_some]
  simpa [find?] using not_congr labels

/-- Samples come to the same series exactly if of each lock with each thread count the same was
measured in the same order. -/
theorem series_ofSamples_eq_iff {xs ys : List (Sample α)} :
    (ofSamples xs).sorted.series = (ofSamples ys).sorted.series ↔
      ∀ lock threads, throughputsOf lock threads xs = throughputsOf lock threads ys := by
  have holds := holds_ofSamples xs
  have holds' := holds_ofSamples ys
  constructor
  · intro same lock threads
    have found : (ofSamples xs).sorted.find? lock = (ofSamples ys).sorted.find? lock := by
      rw [find?, find?, same]
    have order := holds.stableOrder lock
    rw [found] at order
    rw [← map_pair_inj threads, ← filter_pointsOf, ← filter_pointsOf, ← order.ties,
      ← (holds'.stableOrder lock).ties]
  · intro measured
    refine LabelMap.eq_of_find?_eq fun lock => ?_
    have points := (holds.stableOrder lock).eq_of_ties (holds'.stableOrder lock) fun threads => by
      rw [filter_pointsOf, filter_pointsOf, measured]
    have none : (ofSamples xs).sorted.find? lock = none ↔
        (ofSamples ys).sorted.find? lock = none := by
      rw [holds.find?_sorted_eq_none_iff, holds'.find?_sorted_eq_none_iff]
      simp only [measured]
    change (ofSamples xs).sorted.find? lock = (ofSamples ys).sorted.find? lock
    cases found : (ofSamples xs).sorted.find? lock with
    | none => rw [none.1 found]
    | some s =>
      cases found' : (ofSamples ys).sorted.find? lock with
      | none =>
        rw [none.2 found'] at found
        cases found
      | some t =>
        rw [found, found'] at points
        exact congrArg some (Series.eq_of_points_eq points)

/-- Two different throughputs that were measured of one lock with one thread count cannot be
exchanged unnoticed. -/
theorem throughputsOf_swap_ne {a b : Sample α} (sameLock : a.lock = b.lock)
    (sameThreads : a.threads = b.threads) (different : a.throughput ≠ b.throughput)
    (before between after : List (Sample α)) :
    throughputsOf b.lock b.threads (before ++ a :: between ++ b :: after) ≠
      throughputsOf b.lock b.threads (before ++ { a with throughput := b.throughput } :: between ++
        { b with throughput := a.throughput } :: after) := by
  intro same
  simp only [List.append_assoc, List.cons_append] at same
  rw [throughputsOf_append_cons sameLock sameThreads,
    throughputsOf_append_cons (s := { a with throughput := b.throughput }) sameLock sameThreads]
    at same
  exact different (List.cons.inj (List.append_cancel_left same)).1

/-! ## Tables -/

/-- A table has the required columns, was read to its end, and comes to the given samples. -/
structure Reads (header : List String) (rows : List Csv.Row) (samples : List (Sample Float)) :
    Prop where
  required : ∀ name ∈ ["lock", "threads", "ops_s"], name ∈ header
  complete : ∀ cause, .brokenOff cause ∉ rows
  accepted : Accepted header rows samples

variable {header header' : List String} {rows rows' : List Csv.Row}
  {xs ys : List (Sample Float)}

theorem Reads.value_ofTable (h : Reads header rows xs) :
    (ofTable ⟨.ok header, rows⟩).value =
      if xs.isEmpty then .error .noData else .ok (ofSamples xs).sorted := by
  have present : Columns.missingNames header = [] := by
    simpa [Columns.missingNames] using h.required
  rw [Results.value_ofTable present h.accepted, Csv.brokenOff?_eq_none_iff.2 h.complete]

theorem Reads.map_series_eq_iff (h : Reads header rows xs) (h' : Reads header' rows' ys) :
    (ofTable ⟨.ok header, rows⟩).value.map series =
        (ofTable ⟨.ok header', rows'⟩).value.map series ↔
      ∀ lock threads, throughputsOf lock threads xs = throughputsOf lock threads ys := by
  rw [h.value_ofTable, h'.value_ofTable]
  cases xs with
  | nil =>
    cases ys with
    | nil => simp
    | cons y ys =>
      have measured := throughputsOf_ne_nil (List.mem_cons_self : y ∈ y :: ys)
      refine iff_of_false (by rintro ⟨⟩) fun same => measured ?_
      rw [← same]
      rfl
  | cons x xs =>
    cases ys with
    | nil =>
      have measured := throughputsOf_ne_nil (List.mem_cons_self : x ∈ x :: xs)
      refine iff_of_false (by rintro ⟨⟩) fun same => measured ?_
      rw [same]
      rfl
    | cons y ys =>
      simp only [List.isEmpty_cons, Bool.false_eq_true, if_false, Except.map, Except.ok.injEq]
      exact series_ofSamples_eq_iff

/-- Two tables come to the same series exactly if of each lock with each thread count the same was
measured in the same order. So rows may be moved about freely as long as those of one lock and one
thread count keep their order, but no two different throughputs among these may be exchanged. -/
theorem ofTable_series_eq_iff (reads : Reads header rows xs) (reads' : Reads header' rows' ys) :
    let outcome := (ofTable ⟨.ok header, rows⟩).value
    let outcome' := (ofTable ⟨.ok header', rows'⟩).value
    (xs ≠ [] → ∃ results, outcome = .ok results) ∧
    (outcome.map series = outcome'.map series ↔
      ∀ lock threads, throughputsOf lock threads xs = throughputsOf lock threads ys) ∧
    ((∀ lock threads, samplesOf lock threads xs = samplesOf lock threads ys) →
      outcome.map series = outcome'.map series) ∧
    ∀ before a between b after, xs = before ++ a :: between ++ b :: after →
      ys = before ++ { a with throughput := b.throughput } :: between ++
        { b with throughput := a.throughput } :: after →
      a.lock = b.lock → a.threads = b.threads → a.throughput ≠ b.throughput →
      outcome.map series ≠ outcome'.map series := by
  intro outcome outcome'
  have same := reads.map_series_eq_iff reads'
  refine ⟨?returns, same, ?reordered, ?swapped⟩
  case returns =>
    intro some
    have notEmpty : xs.isEmpty = false := by simpa using some
    have value := reads.value_ofTable
    rw [notEmpty] at value
    exact ⟨_, value⟩
  case reordered =>
    intro kept
    refine same.2 fun lock threads => ?_
    rw [throughputsOf, kept, throughputsOf]
  case swapped =>
    rintro before a between b after rfl rfl sameLock sameThreads different equal
    exact throughputsOf_swap_ne sameLock sameThreads different before between after
      (same.1 equal b.lock b.threads)

/-- Two measurements of one lock with two threads, exchanged across a row that is none and a row of
another lock. -/
theorem ofTable_series_eq_iff_exchanged :
    let header := ["lock", "threads", "ops_s"]
    let rows : List Csv.Row := [.fields ["A", "2", "5"], .fields ["A", "two", "1"],
      .fields ["B", "2", "7"], .fields ["A", "2.5", "6"]]
    let rows' : List Csv.Row := [.fields ["A", "2", "6"], .fields ["B", "2", "7"],
      .fields ["A", "2", "5"]]
    let xs : List (Sample Float) :=
      [⟨"A", 2, 5.0, none⟩, ⟨"B", 2, 7.0, none⟩, ⟨"A", 2, 6.0, none⟩]
    let ys : List (Sample Float) :=
      [⟨"A", 2, 6.0, none⟩, ⟨"B", 2, 7.0, none⟩, ⟨"A", 2, 5.0, none⟩]
    let outcome := (ofTable ⟨.ok header, rows⟩).value
    let outcome' := (ofTable ⟨.ok header, rows'⟩).value
    Reads header rows xs ∧ Reads header rows' ys ∧ (∃ results, outcome = .ok results) ∧
      (outcome.map series = outcome'.map series ↔
        ∀ lock threads, throughputsOf lock threads xs = throughputsOf lock threads ys) ∧
      outcome.map series ≠ outcome'.map series := by
  intro header rows rows' xs ys outcome outcome'
  have located : Columns.ofHeader header = .ok ⟨0, 1, 2, none⟩ :=
    Columns.ofHeader_eq_ok_iff.2 (by decide)
  have reads : Reads header rows xs :=
    ⟨by decide, by simp [rows], (Entry.accepted_iff located).2 (by decide +kernel)⟩
  have reads' : Reads header rows' ys :=
    ⟨by decide, by simp [rows'], (Entry.accepted_iff located).2 (by decide +kernel)⟩
  obtain ⟨returns, same, -, swapped⟩ := ofTable_series_eq_iff reads reads'
  have different : (5.0 : Float) ≠ 6.0 := by decide +kernel
  exact ⟨reads, reads', returns (by simp [xs]), same,
    swapped [] ⟨"A", 2, 5.0, none⟩ [⟨"B", 2, 7.0, none⟩] ⟨"A", 2, 6.0, none⟩ [] rfl rfl rfl rfl
      different⟩

end ContentionChart.Results
