import ContentionChart.Proofs.Encoding
import ContentionChart.Proofs.Grouping

/-!
# Inserted samples

Results into which samples were inserted one after another show these samples in several ways: by
lock, by thread count, as a number, and through the task that they name first. All of these agree
with the samples, in whatever order these came.

## Main definitions

* `Results.NamedFirst` — some samples name a task, and none before it.

## Main statements

* `Results.find?_ofSamples_eq_some_iff` — a lock has exactly its own samples.
* `Results.mem_threadCounts_ofSamples_iff` — the thread counts are those of the samples.
* `Results.firstTask?_eq_some_iff` — the task is the one that is named first.
* `Results.ofSamples_shows` — all views of the inserted samples.
-/

namespace ContentionChart.Results

variable {α : Type} {samples : List (Sample α)} {r : Results α}

/-! ## Locks -/

theorem pointsOf_ne_nil_iff {lock : String} :
    pointsOf lock samples ≠ [] ↔ ∃ s ∈ samples, s.lock = lock := by
  simp [pointsOf]

/-- A lock has a series exactly if it has samples, and then the series is made of these. -/
theorem Holds.find?_eq_some_iff (h : Holds samples r) {lock : String} {series : Series α} :
    r.find? lock = some series ↔
      pointsOf lock samples ≠ [] ∧ series = .ofPoints (pointsOf lock samples) := by
  constructor
  · intro found
    have points := h.points lock
    rw [found, Option.getD_some] at points
    rw [← points, Series.ofPoints_points]
    refine ⟨?_, rfl⟩
    rw [points, pointsOf_ne_nil_iff, ← h.labels]
    exact LabelMap.mem_labels_iff.2 ⟨series, found⟩
  · rintro ⟨some, rfl⟩
    have mem : lock ∈ r.series.labels := (h.labels lock).2 (pointsOf_ne_nil_iff.1 some)
    obtain ⟨series, found, points⟩ := h.exists_find? mem
    rw [found, ← points, Series.ofPoints_points]

theorem find?_ofSamples_eq_some_iff {lock : String} {series : Series α} :
    (ofSamples samples).find? lock = some series ↔
      pointsOf lock samples ≠ [] ∧ series = .ofPoints (pointsOf lock samples) :=
  (holds_ofSamples samples).find?_eq_some_iff

theorem Holds.isEmpty_iff (h : Holds samples r) : r.isEmpty = true ↔ samples = [] := by
  have labels : r.isEmpty = true ↔ r.series.labels = [] := by
    simp [isEmpty, LabelMap.isEmpty, LabelMap.labels]
  rw [labels, List.eq_nil_iff_forall_not_mem, List.eq_nil_iff_forall_not_mem]
  constructor
  · intro none s mem
    exact none s.lock ((h.labels s.lock).2 ⟨s, mem, rfl⟩)
  · intro none lock mem
    obtain ⟨s, inSamples, -⟩ := (h.labels lock).1 mem
    exact none s inSamples

/-! ## Thread counts -/

theorem mem_threadCounts_iff {threads : Nat} :
    threads ∈ r.threadCounts ↔ ∃ lock series, r.find? lock = some series ∧
      threads ∈ series.threads := by
  simp only [threadCounts, ThreadCounts.mem_ascending, List.mem_flatMap, LabelMap.values,
    List.mem_map, find?, LabelMap.find?_eq_some_iff]
  constructor
  · rintro ⟨series, ⟨⟨lock, _⟩, mem, rfl⟩, inSeries⟩
    exact ⟨lock, _, mem, inSeries⟩
  · rintro ⟨lock, series, mem, inSeries⟩
    exact ⟨series, ⟨(lock, series), mem, rfl⟩, inSeries⟩

theorem mem_threadCounts_ofSamples_iff {threads : Nat} :
    threads ∈ (ofSamples samples).threadCounts ↔ ∃ s ∈ samples, s.threads = threads := by
  simp only [mem_threadCounts_iff, find?_ofSamples_eq_some_iff]
  constructor
  · rintro ⟨lock, _, ⟨-, rfl⟩, mem⟩
    obtain ⟨p, inPoints, rfl⟩ := List.mem_map.1 mem
    obtain ⟨s, inSamples, -, rfl⟩ := mem_pointsOf_iff.1 inPoints
    exact ⟨s, inSamples, rfl⟩
  · rintro ⟨s, mem, rfl⟩
    have point : (s.threads, s.throughput) ∈ pointsOf s.lock samples :=
      mem_pointsOf_iff.2 ⟨s, mem, rfl, rfl⟩
    exact ⟨s.lock, _, ⟨List.ne_nil_of_mem point, rfl⟩, List.mem_map_of_mem point⟩

/-! ## Tasks -/

/-- The task that some samples name first. A task without any text is not named. -/
def NamedFirst (samples : List (Sample α)) (task : String) : Prop :=
  task ≠ "" ∧ ∃ before s after, samples = before ++ s :: after ∧ s.task = some task ∧
    ∀ earlier ∈ before, earlier.task = none ∨ earlier.task = some ""

theorem namedTask?_eq_some_iff {s : Sample α} {task : String} :
    namedTask? s = some task ↔ s.task = some task ∧ task ≠ "" := by
  simp [namedTask?, Option.filter_eq_some_iff]

theorem namedTask?_eq_none_iff {s : Sample α} :
    namedTask? s = none ↔ s.task = none ∨ s.task = some "" := by
  unfold namedTask?
  cases s.task <;> simp

theorem firstTask?_cons (s : Sample α) (samples : List (Sample α)) :
    firstTask? (s :: samples) = (namedTask? s <|> firstTask? samples) := by
  rw [← firstTask?_singleton, ← firstTask?_append, List.singleton_append]

theorem namedFirst_cons_iff {s : Sample α} {task : String} :
    NamedFirst (s :: samples) task ↔
      namedTask? s = some task ∨ namedTask? s = none ∧ NamedFirst samples task := by
  constructor
  · rintro ⟨words, before, first, after, split, named, unnamed⟩
    cases before with
    | nil =>
      obtain ⟨rfl, rfl⟩ := List.cons.inj split
      exact .inl (namedTask?_eq_some_iff.2 ⟨named, words⟩)
    | cons b before =>
      obtain ⟨rfl, rfl⟩ := List.cons.inj split
      obtain ⟨here, rest⟩ := List.forall_mem_cons.1 unnamed
      exact .inr ⟨namedTask?_eq_none_iff.2 here, words, before, first, after, rfl, named, rest⟩
  · rintro (named | ⟨here, words, before, first, after, rfl, named, rest⟩)
    · obtain ⟨named, words⟩ := namedTask?_eq_some_iff.1 named
      exact ⟨words, [], s, samples, rfl, named, by simp⟩
    · refine ⟨words, s :: before, first, after, rfl, named, ?_⟩
      exact List.forall_mem_cons.2 ⟨namedTask?_eq_none_iff.1 here, rest⟩

theorem firstTask?_eq_some_iff {task : String} :
    firstTask? samples = some task ↔ NamedFirst samples task := by
  induction samples with
  | nil => simp [firstTask?, NamedFirst]
  | cons s samples ih =>
    rw [firstTask?_cons, namedFirst_cons_iff, ← ih]
    cases namedTask? s <;> simp

/-- Once there is a task, no further samples replace it. -/
theorem task_ofSamples_append {task : String} (named : (ofSamples samples).task = some task)
    (later : List (Sample α)) : (ofSamples (samples ++ later)).task = some task := by
  rw [(holds_ofSamples _).task] at named ⊢
  rw [firstTask?_append, named]
  rfl

/-! ## All views -/

/-- Results hold exactly the samples that were inserted. They count all of them, list their locks
once each in the order of the bytes of the labels, have the samples of a lock in the order in which
they came, in two columns of one length, and list their thread counts once each in ascending order.
The task is the one that is named first, and it stays. -/
theorem ofSamples_shows (samples : List (Sample α)) :
    let r := ofSamples samples
    r.totalSamples = samples.length ∧ (r.isEmpty = true ↔ samples = []) ∧
    r.series.labels.Pairwise (fun a b => Utf8.encode a < Utf8.encode b) ∧
    (∀ lock, lock ∈ r.series.labels ↔ ∃ s ∈ samples, s.lock = lock) ∧
    (∀ lock series, (lock, series) ∈ r.series.entries ↔ r.find? lock = some series) ∧
    (∀ lock series, r.find? lock = some series →
      series.isEmpty = false ∧ series.threads.length = series.throughputs.length) ∧
    (∀ lock, (r.find? lock).map Series.points =
      if ∃ s ∈ samples, s.lock = lock then
        some ((samples.filter fun s => s.lock = lock).map fun s => (s.threads, s.throughput))
      else none) ∧
    r.threadCounts.Pairwise (· < ·) ∧
    (∀ threads, threads ∈ r.threadCounts ↔ ∃ s ∈ samples, s.threads = threads) ∧
    (∀ task, r.task = some task ↔ NamedFirst samples task) ∧
    ∀ task later, r.task = some task → (ofSamples (samples ++ later)).task = some task := by
  intro r
  have holds := holds_ofSamples samples
  refine ⟨totalSamples_ofSamples samples, holds.isEmpty_iff, ?order, holds.labels,
    fun _ _ => LabelMap.find?_eq_some_iff.symm, ?columns, ?points,
    ThreadCounts.pairwise_ascending _, fun _ => mem_threadCounts_ofSamples_iff, ?task,
    fun _ later named => task_ofSamples_append named later⟩
  case order =>
    have ascending : r.series.labels.Pairwise (· < ·) := List.pairwise_map.2 r.series.ascending
    exact ascending.imp fun before => Utf8.encode_lt_encode before
  case columns =>
    intro lock series found
    obtain ⟨some, rfl⟩ := holds.find?_eq_some_iff.1 found
    refine ⟨?_, Series.inStep _⟩
    simpa [Series.isEmpty, Series.ofPoints] using some
  case points =>
    intro lock
    split
    case isTrue measured =>
      rw [find?_ofSamples_eq_some_iff.2 ⟨pointsOf_ne_nil_iff.2 measured, rfl⟩, Option.map_some,
        Series.points_ofPoints]
      rfl
    case isFalse unmeasured =>
      rw [Option.map_eq_none_iff, Option.eq_none_iff_forall_ne_some]
      intro series found
      exact unmeasured (pointsOf_ne_nil_iff.1 (holds.find?_eq_some_iff.1 found).1)
  case task =>
    intro task
    rw [holds.task, firstTask?_eq_some_iff]

end ContentionChart.Results
