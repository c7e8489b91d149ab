import ContentionChart.Decimal.Notation
import ContentionChart.Results.LabelMap
import ContentionChart.Results.Series
import ContentionChart.Results.ThreadCounts

/-!
# Results of a benchmark

All series of a benchmark by the label of their lock, and the task that the locks were put to.

## Main definitions

* `Sample` — one measurement.
* `Results` — the measurements grouped by lock.
* `Results.insert` — add a measurement to the series of its lock.
* `Results.render` — the series as comma-separated text.
-/

namespace ContentionChart

/-- One measurement: the throughput of a lock under a number of threads. -/
structure Sample (α : Type) where
  lock : String
  threads : Nat
  throughput : α
  task : Option String
  deriving DecidableEq, Repr

/-- The series of all locks by label, and the task if one is known. -/
structure Results (α : Type) where
  series : LabelMap (Series α)
  task : Option String
  deriving DecidableEq

namespace Results

variable {α : Type}

def empty : Results α := ⟨.empty, none⟩

/-- A task that says something. -/
def namedTask? (s : Sample α) : Option String := s.task.filter fun t => !t.isEmpty

/-- Add a measurement at the end of the series of its lock. The first task that is not empty
stays. -/
def insert (r : Results α) (s : Sample α) : Results α where
  series := r.series.alter s.lock fun old => (old.getD .empty).push s.threads s.throughput
  task := r.task <|> namedTask? s

def ofSamples (samples : List (Sample α)) : Results α := samples.foldl insert empty

/-- Every series by ascending thread count. -/
def sorted (r : Results α) : Results α := { r with series := r.series.map Series.byThreads }

/-- The number of locks. -/
def size (r : Results α) : Nat := r.series.size

def isEmpty (r : Results α) : Bool := r.series.isEmpty

def totalSamples (r : Results α) : Nat :=
  r.series.values.foldr (fun series count => series.size + count) 0

def find? (r : Results α) (lock : String) : Option (Series α) := r.series.find? lock

theorem find?_insert_self (r : Results α) (s : Sample α) :
    (r.insert s).find? s.lock =
      some (((r.find? s.lock).getD .empty).push s.threads s.throughput) := by
  simp [insert, find?]

theorem find?_insert_of_ne (r : Results α) {s : Sample α} {lock : String} (h : lock ≠ s.lock) :
    (r.insert s).find? lock = r.find? lock :=
  r.series.find?_alter_of_ne _ h

@[simp] theorem find?_sorted (r : Results α) (lock : String) :
    r.sorted.find? lock = (r.find? lock).map Series.byThreads :=
  r.series.find?_map _ lock

def title (r : Results α) : String :=
  match r.task with
  | some task => task ++ " threads vs ops/s"
  | none => "threads vs ops/s"

/-- The thread counts of all series, distinct and ascending. -/
def threadCounts (r : Results α) : List Nat :=
  ThreadCounts.ascending (r.series.values.flatMap Series.threads)

/-- The line of one point. -/
def renderPoint (lock : String) (point : Nat × Float) : String :=
  lock ++ "," ++ toString point.1 ++ "," ++ Notation.plain point.2 ++ "\n"

/-- A header and one line per point, lock by lock. -/
def render (r : Results Float) : String :=
  "lock,threads,ops_s\n" ++
    String.join (r.series.entries.flatMap fun e => e.2.points.map (renderPoint e.1))

end Results

end ContentionChart
