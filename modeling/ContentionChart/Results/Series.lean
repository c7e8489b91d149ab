/-!
# Series of measurements

The measurements of one lock: how many operations per second were done with how many threads.

## Main definitions

* `Series` — the measurements in the order in which they came, as two columns in step.
* `Series.points` — the measured points, from both columns.
* `Series.byThreads` — the series by ascending thread count.
-/

namespace ContentionChart

/-- The measurements of one lock: a column of thread counts and a column of throughputs. -/
structure Series (α : Type) where
  threads : List Nat
  throughputs : List α
  inStep : threads.length = throughputs.length
  deriving DecidableEq, Repr

namespace Series

variable {α : Type}

def empty : Series α := ⟨[], [], rfl⟩

/-- A series without points and with room for some. The room is not part of what the series is. -/
def withCapacity (capacity : Nat) : Series α :=
  ⟨(Array.emptyWithCapacity capacity).toList, (Array.emptyWithCapacity capacity).toList, rfl⟩

def push (s : Series α) (threads : Nat) (throughput : α) : Series α where
  threads := s.threads ++ [threads]
  throughputs := s.throughputs ++ [throughput]
  inStep := by simp [s.inStep]

def size (s : Series α) : Nat := s.threads.length

def isEmpty (s : Series α) : Bool := s.threads.isEmpty

/-- A thread count and a throughput for each measurement. -/
def points (s : Series α) : List (Nat × α) := s.threads.zip s.throughputs

/-- The columns of some points. -/
def ofPoints (points : List (Nat × α)) : Series α :=
  ⟨points.map Prod.fst, points.map Prod.snd, by simp⟩

@[simp] theorem points_ofPoints (points : List (Nat × α)) : (ofPoints points).points = points :=
  (List.zip_of_prod rfl rfl).symm

@[simp] theorem ofPoints_points (s : Series α) : ofPoints s.points = s := by
  obtain ⟨threads, throughputs, inStep⟩ := s
  simp [ofPoints, points, List.map_fst_zip, List.map_snd_zip, inStep]

/-- Columns in step hold no more than their points. -/
theorem eq_of_points_eq {s t : Series α} (h : s.points = t.points) : s = t := by
  rw [← ofPoints_points s, h, ofPoints_points]

@[simp] theorem points_empty : (empty : Series α).points = [] := rfl

@[simp] theorem points_withCapacity (capacity : Nat) :
    (withCapacity capacity : Series α).points = [] := rfl

@[simp] theorem points_push (s : Series α) (threads : Nat) (throughput : α) :
    (s.push threads throughput).points = s.points ++ [(threads, throughput)] :=
  List.zip_append s.inStep

@[simp] theorem length_points (s : Series α) : s.points.length = s.size := by
  simp [points, size, s.inStep]

@[simp] theorem size_push (s : Series α) (threads : Nat) (throughput : α) :
    (s.push threads throughput).size = s.size + 1 := by simp [size, push]

/-- Points with the same thread count keep their order. -/
def byThreads (s : Series α) : Series α :=
  ofPoints (s.points.mergeSort fun a b => a.1 ≤ b.1)

@[simp] theorem points_byThreads (s : Series α) :
    s.byThreads.points = s.points.mergeSort fun a b => a.1 ≤ b.1 := points_ofPoints _

@[simp] theorem size_byThreads (s : Series α) : s.byThreads.size = s.size := by
  rw [← length_points, ← length_points, points_byThreads, List.length_mergeSort]

end Series

end ContentionChart
