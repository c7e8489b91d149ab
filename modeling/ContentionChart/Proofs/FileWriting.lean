import ContentionChart.Files.Tree
import Mathlib.Data.List.TakeWhile

/-!
# Writing files

Where a path is written depends on the directories alone that it leads through, and these stay as
they are when a file is written. So a file is found again under the path that it was written under,
and can be written there once more.

## Main definitions

* `FileTree.target` — the place where a path would be written.

## Main statements

* `FileTree.write_eq` — writing puts a file at the target, whatever is written.
* `FileTree.target_put` — what was written can be replaced.
* `FileTree.resolve_put` — the path leads to the file that was written under it.
-/

namespace ContentionChart

open Utf8 (Bytes)

namespace FileTree

variable {t : FileTree} {workingDirectory place : Location} {p : Path}

@[simp] theorem put_put (t : FileTree) (place : Location) (before after : Node) :
    (t.put place before).put place after = t.put place after := by
  simp [put, List.filter_filter]

/-- The place where a path would be written, unless it can only name a directory or leads to one. -/
def target (t : FileTree) (workingDirectory : Location) (p : Path) : Except FileFault Location := do
  match ← t.placeForNew workingDirectory p with
  | none => .error .isADirectory
  | some (place, slashes) =>
    if slashes ∨ t.node? place = some .directory then .error .isADirectory else .ok place

/-- The content of a file plays no part in where it is written and whether it can be. -/
theorem write_eq (t : FileTree) (workingDirectory : Location) (p : Path) (content : Bytes) :
    t.write workingDirectory p content =
      (t.target workingDirectory p).map fun place => t.put place (.file content) := by
  unfold write target
  cases t.placeForNew workingDirectory p with
  | error fault => rfl
  | ok found =>
    cases found with
    | none => rfl
    | some last =>
      obtain ⟨place, slashes⟩ := last
      simp only [bind, Except.bind]
      split <;> rfl

/-! ## Paths that lead around a file -/

/-- A step stands in a directory, so that it is the same after a file was put somewhere else. -/
theorem step_put {stand next : Location} {segment : Bytes} (file : t.node? place ≠ some .directory)
    (node : Node) (h : t.step stand segment = .ok next) :
    (t.put place node).step stand segment = .ok next := by
  have directory : t.node? stand = some .directory := by
    unfold step at h
    cases here : t.node? stand with
    | none => simp [here] at h
    | some there =>
      cases there with
      | file content => simp [here] at h
      | directory => rfl
  have elsewhere : stand ≠ place := by
    rintro rfl
    exact file directory
  unfold step at h ⊢
  rw [node?_put_of_ne t node elsewhere]
  exact h

/-- Whole paths keep leading where they led, one step after the other. -/
theorem follow_put {start stop : Location} {segments : List Bytes}
    (file : t.node? place ≠ some .directory) (node : Node)
    (h : t.follow start segments = .ok stop) :
    (t.put place node).follow start segments = .ok stop := by
  induction segments generalizing start with
  | nil => exact h
  | cons segment segments ih =>
    cases first : t.step start segment with
    | error fault =>
      rw [follow_cons_of_error first] at h
      cases h
    | ok next =>
      rw [follow_cons_of_ok first] at h
      rw [follow_cons_of_ok (step_put file node first)]
      exact ih h

/-! ## Targets -/

/-- A target is no directory. It is what the last name of its path stands for in the directory that
the rest of the path leads to. -/
structure IsTarget (t : FileTree) (workingDirectory : Location) (p : Path) (place : Location) :
    Prop where
  wellFormed : pathFault? p = none
  file : t.node? place ≠ some .directory
  named : ∃ above name directory, p.segments = above ++ [name] ∧ Path.isIdle name = false ∧
    Path.isUp name = false ∧ t.follow (startOf workingDirectory p) above = .ok directory ∧
    t.step directory name = .ok place

/-- The root is a directory. -/
theorem IsTarget.ne_nil (h : IsTarget t workingDirectory p place) : place ≠ [] := by
  rintro rfl
  exact h.file (node?_nil t)

/-- Leaving out empty segments at the end leaves all of them if the last is a name. -/
theorem trimmed_eq_self {above : List Bytes} {name : Bytes} (named : Path.isIdle name = false) :
    ((above ++ [name]).reverse.dropWhile List.isEmpty).reverse = above ++ [name] := by
  have some : name.isEmpty = false := by
    cases name with
    | nil => simp [Path.isIdle] at named
    | cons => rfl
  simp [some]

/-- The names that a new place is found by. Where slashes follow the last of them, they are nothing
but empty segments. -/
theorem exists_of_placeForNew {slashes : Bool}
    (h : t.placeForNew workingDirectory p = .ok (some (place, slashes))) :
    pathFault? p = none ∧
      ∃ above name empties directory, p.segments = above ++ name :: empties ∧
        (∀ segment ∈ empties, segment = []) ∧ (slashes = false → empties = []) ∧
        Path.isIdle name = false ∧ Path.isUp name = false ∧
        t.follow (startOf workingDirectory p) above = .ok directory ∧
        t.step directory name = .ok place := by
  unfold placeForNew at h
  cases wellFormed : pathFault? p with
  | some fault =>
    rw [wellFormed] at h
    cases h
  | none =>
    rw [wellFormed] at h
    have whole : p.segments = (p.segments.reverse.dropWhile List.isEmpty).reverse ++
        (p.segments.reverse.takeWhile List.isEmpty).reverse := by
      rw [← List.reverse_append, List.takeWhile_append_dropWhile, List.reverse_reverse]
    have empty : ∀ segment ∈ (p.segments.reverse.takeWhile List.isEmpty).reverse,
        segment = [] := fun segment mem =>
      List.isEmpty_iff.1 (List.mem_takeWhile_imp (List.mem_reverse.1 mem))
    generalize (p.segments.reverse.takeWhile List.isEmpty).reverse = empties at whole empty
    generalize (p.segments.reverse.dropWhile List.isEmpty).reverse = segments at h whole
    cases last : segments.getLast? with
    | none => simp [last] at h
    | some name =>
      obtain ⟨above, rfl⟩ := List.getLast?_eq_some_iff.1 last
      simp only [last, List.dropLast_concat] at h
      cases leads : t.follow (startOf workingDirectory p) above with
      | error fault => simp [leads, bind, Except.bind] at h
      | ok directory =>
        cases steps : t.step directory name with
        | error fault => simp [leads, steps, bind, Except.bind] at h
        | ok next =>
          by_cases idle : Path.isIdle name = true ∨ Path.isUp name = true
          case pos => simp [leads, steps, idle, bind, Except.bind] at h
          case neg =>
            simp only [leads, steps, idle, bind, Except.bind, if_false, Except.ok.injEq,
              Option.some.injEq, Prod.mk.injEq] at h
            obtain ⟨rfl, rfl⟩ := h
            simp only [not_or, Bool.not_eq_true] at idle
            refine ⟨rfl, above, name, empties, directory, by simp [whole], empty, ?_, idle.1,
              idle.2, leads, steps⟩
            intro none
            rw [whole, List.length_append] at none
            simpa using none

theorem isTarget_of_target (h : t.target workingDirectory p = .ok place) :
    IsTarget t workingDirectory p place := by
  unfold target at h
  cases found : t.placeForNew workingDirectory p with
  | error fault => simp [found, bind, Except.bind] at h
  | ok new =>
    cases new with
    | none => simp [found, bind, Except.bind] at h
    | some last =>
      obtain ⟨next, slashes⟩ := last
      simp only [found, bind, Except.bind] at h
      split at h
      case isTrue => cases h
      case isFalse free =>
        obtain rfl := Except.ok.inj h
        simp only [not_or, Bool.not_eq_true] at free
        obtain ⟨noSlashes, file⟩ := free
        obtain ⟨wellFormed, above, name, empties, directory, segments, -, last, named⟩ :=
          exists_of_placeForNew found
        obtain rfl := last noSlashes
        exact ⟨wellFormed, file, above, name, directory, segments, named⟩

/-- A name at the end of a path is a new one if the rest of the path can be followed. -/
theorem placeForNew_of_step {above : List Bytes} {name : Bytes} {directory : Location}
    (wellFormed : pathFault? p = none) (whole : p.segments = above ++ [name])
    (notIdle : Path.isIdle name = false) (notUp : Path.isUp name = false)
    (leads : t.follow (startOf workingDirectory p) above = .ok directory)
    (steps : t.step directory name = .ok place) :
    t.placeForNew workingDirectory p = .ok (some (place, false)) := by
  unfold placeForNew
  simp only [wellFormed, whole, trimmed_eq_self notIdle, List.getLast?_concat,
    List.dropLast_concat, leads, steps, bind, Except.bind]
  simp [notIdle, notUp]

theorem target_of_isTarget (h : IsTarget t workingDirectory p place) :
    t.target workingDirectory p = .ok place := by
  obtain ⟨wellFormed, file, above, name, directory, whole, notIdle, notUp, leads, steps⟩ := h
  have found := placeForNew_of_step wellFormed whole notIdle notUp leads steps
  simp [target, found, file, bind, Except.bind]

theorem target_put {content : Bytes} (h : t.target workingDirectory p = .ok place) :
    (t.put place (.file content)).target workingDirectory p = .ok place := by
  have isTarget := isTarget_of_target h
  have below := isTarget.ne_nil
  obtain ⟨wellFormed, file, above, name, directory, segments, notIdle, notUp, leads, steps⟩ :=
    isTarget
  refine target_of_isTarget ⟨wellFormed, ?_, above, name, directory, segments, notIdle, notUp,
    follow_put file _ leads, step_put file _ steps⟩
  simp [node?_put_self t _ below]

/-- A file that was written is what its path leads to. -/
theorem resolve_put {content : Bytes} (h : t.target workingDirectory p = .ok place) :
    (t.put place (.file content)).resolve workingDirectory p = .ok (place, .file content) := by
  have isTarget := isTarget_of_target h
  have below := isTarget.ne_nil
  obtain ⟨wellFormed, file, above, name, directory, segments, notIdle, notUp, leads, steps⟩ :=
    isTarget
  have first := follow_put file (.file content) leads
  have last := step_put file (.file content) steps
  have whole : (t.put place (.file content)).follow (startOf workingDirectory p) p.segments =
      .ok place := by
    rw [segments, follow_append_of_ok first, follow_cons_of_ok last, follow_nil]
  simp [resolve, wellFormed, whole, node?_put_self t _ below, bind, Except.bind]

end FileTree

end ContentionChart
