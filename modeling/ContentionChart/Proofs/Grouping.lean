import ContentionChart.Proofs.StableOrder
import ContentionChart.Results.Basic
import Mathlib.Algebra.GroupWithZero.Nat

/-!
# Grouping samples

Results are grown by one sample at a time. Whatever the order in which samples of several locks
come, each lock ends up with its own samples in the order in which they came, and no others.

## Main statements

* `Results.Holds` — the results hold exactly the given samples.
* `Results.holds_insert` — one more sample keeps them exact.
* `Results.holds_ofSamples` — results made of samples hold exactly these.
* `Results.totalSamples_ofSamples` — as many as there were samples.
* `Results.Holds.sorted` — sorting every series keeps them, in stable order.
-/

namespace ContentionChart

/-! ## Sums over labels -/

namespace LabelMap

/-- What a weight of the values adds up to grows by as much as the changed value outweighs the one
that was there. -/
theorem sum_alterEntries {β : Type} {weight : β → Nat} {change : Option β → β} {more : Nat}
    (grows : ∀ old, weight (change old) = (old.map weight).getD 0 + more) (label : String)
    (entries : List (String × β)) :
    ((alterEntries label change entries).map fun e => weight e.2).sum =
      (entries.map fun e => weight e.2).sum + more := by
  induction entries with
  | nil => simp [alterEntries, grows]
  | cons first rest ih =>
    obtain ⟨l, b⟩ := first
    rw [alterEntries]
    split
    · have made := grows none
      simp only [Option.map_none, Option.getD_none] at made
      simp only [List.map_cons, List.sum_cons, made]
      omega
    · split
      · have changed := grows (some b)
        simp only [Option.map_some, Option.getD_some] at changed
        simp only [List.map_cons, List.sum_cons, changed]
        omega
      · simp only [List.map_cons, List.sum_cons, ih]
        omega

end LabelMap

namespace Results

variable {α : Type}

/-- The points of the samples of one lock, in the order of the samples. -/
def pointsOf (lock : String) (samples : List (Sample α)) : List (Nat × α) :=
  (samples.filter fun s => s.lock = lock).map fun s => (s.threads, s.throughput)

@[simp] theorem pointsOf_append (lock : String) (before after : List (Sample α)) :
    pointsOf lock (before ++ after) = pointsOf lock before ++ pointsOf lock after := by
  simp [pointsOf]

/-- The first task of some samples that is not empty. -/
def firstTask? (samples : List (Sample α)) : Option String :=
  (samples.filterMap Sample.task).find? fun task => !task.isEmpty

theorem firstTask?_append (before after : List (Sample α)) :
    firstTask? (before ++ after) = (firstTask? before <|> firstTask? after) := by
  simp [firstTask?, List.find?_append]

theorem firstTask?_singleton (s : Sample α) : firstTask? [s] = namedTask? s := by
  cases h : s.task <;> simp [firstTask?, namedTask?, h, Option.filter, List.find?_cons]
  split <;> simp_all

/-- The results hold exactly the samples: the locks are theirs, each lock has its own points in
their order, and the task is the first that says something. -/
structure Holds (samples : List (Sample α)) (r : Results α) : Prop where
  labels : ∀ lock, lock ∈ r.series.labels ↔ ∃ s ∈ samples, s.lock = lock
  points : ∀ lock, ((r.find? lock).getD .empty).points = pointsOf lock samples
  task : r.task = firstTask? samples

theorem holds_empty : Holds [] (empty : Results α) where
  labels _ := by simp [empty, LabelMap.labels, LabelMap.empty]
  points _ := by simp [empty, find?, LabelMap.find?, LabelMap.empty, pointsOf]
  task := rfl

/-- One step: the sample goes to the end of its own lock and nowhere else. -/
theorem holds_insert {samples : List (Sample α)} {r : Results α} (h : Holds samples r)
    (s : Sample α) : Holds (samples ++ [s]) (r.insert s) where
  labels lock := by
    simp only [insert, LabelMap.mem_labels_alter, h.labels, List.mem_append, List.mem_singleton]
    grind
  points lock := by
    rw [pointsOf_append, ← h.points lock]
    by_cases same : lock = s.lock
    · subst same
      rw [find?_insert_self]
      simp [pointsOf]
    · rw [find?_insert_of_ne r same]
      simp [pointsOf, Ne.symm same]
  task := by
    rw [firstTask?_append, firstTask?_singleton, ← h.task]
    rfl

theorem holds_foldl {before : List (Sample α)} {r : Results α} (h : Holds before r)
    (samples : List (Sample α)) : Holds (before ++ samples) (samples.foldl insert r) := by
  induction samples generalizing before r with
  | nil => simpa using h
  | cons s samples ih =>
    have step := ih (holds_insert h s)
    simpa using step

theorem holds_ofSamples (samples : List (Sample α)) : Holds samples (ofSamples samples) := by
  exact holds_foldl holds_empty samples

namespace Holds

variable {samples : List (Sample α)} {r : Results α}

theorem exists_find? (h : Holds samples r) {lock : String} (mem : lock ∈ r.series.labels) :
    ∃ series, r.find? lock = some series ∧ series.points = pointsOf lock samples := by
  obtain ⟨series, found⟩ := LabelMap.mem_labels_iff.1 mem
  have points := h.points lock
  rw [find?, found] at points
  exact ⟨series, found, points⟩

end Holds

/-! ## How many samples there are -/

theorem totalSamples_eq_sum (r : Results α) :
    r.totalSamples = (r.series.entries.map fun e => e.2.size).sum := by
  rw [totalSamples, LabelMap.values, List.foldr_map]
  induction r.series.entries with
  | nil => rfl
  | cons e entries ih => simp [ih]

/-- One step: whichever series the sample goes to, there is one sample more. -/
theorem totalSamples_insert (r : Results α) (s : Sample α) :
    (r.insert s).totalSamples = r.totalSamples + 1 := by
  rw [totalSamples_eq_sum, totalSamples_eq_sum]
  refine LabelMap.sum_alterEntries (fun old => ?_) s.lock r.series.entries
  cases old with
  | none => simp [Series.size, Series.push, Series.empty]
  | some series => simp

theorem totalSamples_foldl_insert (r : Results α) (samples : List (Sample α)) :
    (samples.foldl insert r).totalSamples = r.totalSamples + samples.length := by
  induction samples generalizing r with
  | nil => rfl
  | cons s samples ih =>
    rw [List.foldl_cons, ih, totalSamples_insert, List.length_cons]
    omega

@[simp] theorem totalSamples_ofSamples (samples : List (Sample α)) :
    (ofSamples samples).totalSamples = samples.length := by
  rw [ofSamples, totalSamples_foldl_insert]
  exact Nat.zero_add _

@[simp] theorem totalSamples_sorted (r : Results α) :
    r.sorted.totalSamples = r.totalSamples := by
  rw [totalSamples_eq_sum, totalSamples_eq_sum, sorted, LabelMap.map, List.map_map]
  simp only [Function.comp_def, Series.size_byThreads]

/-- The results hold exactly the samples, and the points of each lock are in stable order by their
thread counts. -/
structure HoldsByThreads (samples : List (Sample α)) (r : Results α) : Prop where
  labels : ∀ lock, lock ∈ r.series.labels ↔ ∃ s ∈ samples, s.lock = lock
  points : ∀ lock ∈ r.series.labels, ∃ series, r.find? lock = some series ∧
    StableOrder Prod.fst (pointsOf lock samples) series.points
  task : r.task = firstTask? samples

/-- Sorting moves no point to another lock. -/
theorem Holds.sorted {samples : List (Sample α)} {r : Results α} (h : Holds samples r) :
    HoldsByThreads samples r.sorted where
  labels := by simpa [Results.sorted] using h.labels
  points lock mem := by
    have mem : lock ∈ r.series.labels := by simpa [Results.sorted] using mem
    obtain ⟨series, found, points⟩ := h.exists_find? mem
    refine ⟨series.byThreads, by rw [find?_sorted, found]; rfl, ?_⟩
    rw [← points]
    exact stableOrder_byThreads series
  task := h.task

theorem mem_pointsOf_iff {lock : String} {samples : List (Sample α)} {p : Nat × α} :
    p ∈ pointsOf lock samples ↔
      ∃ s ∈ samples, s.lock = lock ∧ (s.threads, s.throughput) = p := by
  simp only [pointsOf, List.mem_map, List.mem_filter, decide_eq_true_eq, and_assoc]

/-- What goes for all points goes for all samples. -/
theorem HoldsByThreads.forall_points_iff {samples : List (Sample α)} {r : Results α}
    (h : HoldsByThreads samples r) {property : Nat × α → Prop} :
    (∀ lock series, r.find? lock = some series → ∀ p ∈ series.points, property p) ↔
      ∀ s ∈ samples, property (s.threads, s.throughput) := by
  constructor
  · intro all s mem
    obtain ⟨series, found, stable⟩ := h.points s.lock ((h.labels s.lock).2 ⟨s, mem, rfl⟩)
    have point := mem_pointsOf_iff.2 ⟨s, mem, rfl, rfl⟩
    exact all s.lock series found _ (stable.perm.mem_iff.2 point)
  · intro all lock series found p mem
    obtain ⟨other, found', stable⟩ := h.points lock (LabelMap.mem_labels_iff.2 ⟨series, found⟩)
    obtain rfl := Option.some.inj (found.symm.trans found')
    obtain ⟨s, inSamples, -, rfl⟩ := mem_pointsOf_iff.1 (stable.perm.mem_iff.1 mem)
    exact all s inSamples

end Results

end ContentionChart
