import ContentionChart.Proofs.StableOrder

/-!
# Growing a series

A series grows by the points that are pushed, and it may be sorted at any time in between. Sorting
on the way never shows in the end.

## Main definitions

* `Series.Step`, `Series.run` — pushing and sorting, and a run of both.
* `Series.pushed` — the points that a run pushes.
* `Series.Collects` — the series holds exactly the given points.

## Main statements

* `Series.Collects.apply` — one step collects what it pushes.
* `Series.Collects.run` — a run collects all that it pushes.
* `Series.run_collects` — what a series is after a run, and what it is when it is sorted then.
-/

namespace ContentionChart.Series

variable {α : Type}

/-- What is done to a series while it grows. -/
inductive Step (α : Type) where
  | push (threads : Nat) (throughput : α)
  | sort
  deriving DecidableEq, Repr

def Step.apply (s : Series α) : Step α → Series α
  | push threads throughput => s.push threads throughput
  | sort => s.byThreads

def Step.point? : Step α → Option (Nat × α)
  | push threads throughput => some (threads, throughput)
  | sort => none

def run (s : Series α) (steps : List (Step α)) : Series α := steps.foldl Step.apply s

theorem run_append (s : Series α) (before after : List (Step α)) :
    s.run (before ++ after) = (s.run before).run after := List.foldl_append

/-- The points that are pushed, in the order in which they are. -/
def pushed (steps : List (Step α)) : List (Nat × α) := steps.filterMap Step.point?

theorem pushed_append (before after : List (Step α)) :
    pushed (before ++ after) = pushed before ++ pushed after := List.filterMap_append

/-- The steps that push some points and do nothing else. -/
def pushes (points : List (Nat × α)) : List (Step α) := points.map fun p => .push p.1 p.2

@[simp] theorem pushed_pushes (points : List (Nat × α)) : pushed (pushes points) = points := by
  simp [pushed, pushes, List.filterMap_map, Function.comp_def, Step.point?]

/-- The series holds the points: none is lost or made up, and those of one thread count stand in
their order. -/
structure Collects (points : List (Nat × α)) (s : Series α) : Prop where
  perm : s.points.Perm points
  ties : ∀ k, s.points.filter (fun p => p.1 = k) = points.filter fun p => p.1 = k

theorem collects_withCapacity (capacity : Nat) :
    Collects [] (withCapacity capacity : Series α) where
  perm := by rw [points_withCapacity]
  ties _ := by rw [points_withCapacity]

namespace Collects

variable {points : List (Nat × α)} {s t : Series α}

theorem push (h : Collects points s) (threads : Nat) (throughput : α) :
    Collects (points ++ [(threads, throughput)]) (s.push threads throughput) where
  perm := by
    rw [points_push]
    exact h.perm.append_right _
  ties k := by rw [points_push, List.filter_append, List.filter_append, h.ties]

/-- Sorting puts the points in stable order, however they stood before. -/
theorem stableOrder (h : Collects points s) : StableOrder Prod.fst points s.byThreads.points := by
  obtain ⟨perm, ascending, ties⟩ := stableOrder_byThreads s
  exact ⟨perm.trans h.perm, ascending, fun k => (ties k).trans (h.ties k)⟩

theorem byThreads (h : Collects points s) : Collects points s.byThreads :=
  ⟨h.stableOrder.perm, h.stableOrder.ties⟩

/-- Once they are sorted, series with the same points are the same. -/
theorem byThreads_eq (h : Collects points s) (h' : Collects points t) :
    s.byThreads = t.byThreads :=
  eq_of_points_eq (h.stableOrder.eq_of_ties h'.stableOrder fun _ => rfl)

/-- One step collects what it pushes. -/
theorem apply (h : Collects points s) (step : Step α) :
    Collects (points ++ pushed [step]) (step.apply s) := by
  cases step with
  | push threads throughput => exact h.push threads throughput
  | sort =>
    have none : pushed [Step.sort (α := α)] = [] := rfl
    rw [none, List.append_nil]
    exact h.byThreads

/-- A run collects all that it pushes. -/
theorem run (h : Collects points s) (steps : List (Step α)) :
    Collects (points ++ pushed steps) (s.run steps) := by
  induction steps generalizing points s with
  | nil =>
    rw [pushed, List.filterMap_nil, List.append_nil]
    exact h
  | cons step steps ih =>
    have rest := ih (h.apply step)
    rwa [List.append_assoc, ← pushed_append] at rest

end Collects

/-- After any run of pushing and sorting, both columns are as long as the list of what was pushed.
The points are those that were pushed, and those of one thread count stand in the order in which
they were. Sorted once more, they are in the stable order of all that was pushed, as if nothing had
been sorted before, and sorting them again changes nothing. -/
theorem run_collects (capacity : Nat) (steps : List (Step α)) :
    let s := (withCapacity capacity).run steps
    s.threads.length = (pushed steps).length ∧ s.throughputs.length = (pushed steps).length ∧
      s.points.Perm (pushed steps) ∧
      (∀ k, s.points.filter (fun p => p.1 = k) = (pushed steps).filter fun p => p.1 = k) ∧
      StableOrder Prod.fst (pushed steps) (s.run [.sort]).points ∧
      (∀ other, s.run [.sort] = (withCapacity other).run (pushes (pushed steps) ++ [.sort])) ∧
      s.run [.sort, .sort] = s.run [.sort] := by
  intro s
  have collected : Collects (pushed steps) s := (collects_withCapacity capacity).run steps
  have count : s.threads.length = (pushed steps).length := by
    rw [← collected.perm.length_eq, length_points, size]
  refine ⟨count, s.inStep ▸ count, collected.perm, collected.ties, collected.stableOrder,
    fun other => ?_, collected.byThreads.byThreads_eq collected⟩
  have once := (collects_withCapacity other).run (pushes (pushed steps))
  rw [List.nil_append, pushed_pushes] at once
  rw [run_append]
  exact collected.byThreads_eq once

end ContentionChart.Series
