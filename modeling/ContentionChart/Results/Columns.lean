import ContentionChart.Results.Basic

/-!
# Columns

The columns of a table are found by their names. Which others it has, and in which order they
stand, does not matter.

## Main definitions

* `Columns.ofHeader` — where the known columns stand.
* `Columns.sample?` — the measurement in a row.
-/

namespace ContentionChart

/-- Where the known columns stand. -/
structure Columns where
  lock : Nat
  threads : Nat
  throughput : Nat
  task : Option Nat
  deriving DecidableEq, Repr

namespace Columns

def lockName : String := "lock"

def threadsName : String := "threads"

def throughputName : String := "ops_s"

def taskName : String := "task"

def requiredNames : List String := [lockName, threadsName, throughputName]

/-- The first column of each name. Without all of the required ones it is an error, which lists
those that are missing. -/
def ofHeader (header : List String) : Except (List String) Columns :=
  match header.idxOf? lockName, header.idxOf? threadsName, header.idxOf? throughputName with
  | some lock, some threads, some throughput =>
    .ok ⟨lock, threads, throughput, header.idxOf? taskName⟩
  | _, _, _ => .error (requiredNames.filter fun name => !header.contains name)

/-- The measurement in a row: its thread count and its throughput have to be numbers, and the
throughput a finite one. A row may end before its task. -/
def sample? (columns : Columns) (fields : List String) : Option (Sample Float) := do
  let lock ← fields[columns.lock]?
  let threads ← threadCount? (← fields[columns.threads]?)
  let throughput ← parseFloat? (← fields[columns.throughput]?)
  if Binary64.isFinite throughput then
    some ⟨lock, threads, throughput, columns.task.bind fun task => fields[task]?⟩
  else none

end Columns

end ContentionChart
