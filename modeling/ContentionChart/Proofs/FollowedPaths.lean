import ContentionChart.Proofs.FileWriting
import ContentionChart.Proofs.PathComponents

/-!
# Followed paths

A path that does not lead up passes the places of its components one below the other. It can be
followed through directories, and through nothing else, so that all about it can be said by the
nodes at these places.

## Main definitions

* `Path.place` — the place that a path leads to without leading up.
* `Path.placeAt`, `Path.Passes` — the places on the way to it, and itself.

## Main statements

* `FileTree.step_eq_ok_iff` — what one step can do.
* `FileTree.follow_eq_ok`, `FileTree.follow_of_directories`, `FileTree.follow_missing` — paths that
  can be followed, and paths that cannot.
* `FileTree.nodes_of_pathExists`, `FileTree.directories_of_isDirectory` — where paths exist.
-/

namespace ContentionChart

open Utf8 (Bytes)

namespace Path

/-- The place that a path leads to, if it does not lead up. -/
def place (workingDirectory : Location) (p : Path) : Location :=
  FileTree.startOf workingDirectory p ++ p.components

/-- The place that its first components lead to. -/
def placeAt (workingDirectory : Location) (p : Path) (k : ℕ) : Location :=
  FileTree.startOf workingDirectory p ++ p.components.take k

/-- The places of the components of a path. -/
def Passes (workingDirectory : Location) (p : Path) (place : Location) : Prop :=
  ∃ k, 0 < k ∧ k ≤ p.components.length ∧ place = p.placeAt workingDirectory k

variable {workingDirectory : Location} {p q : Path}

@[simp] theorem placeAt_zero :
    p.placeAt workingDirectory 0 = FileTree.startOf workingDirectory p := by
  simp [placeAt]

@[simp] theorem placeAt_length :
    p.placeAt workingDirectory p.components.length = p.place workingDirectory := by
  rw [placeAt, place, List.take_length]

/-- A path leads where those begin that start like it and go on. -/
theorem placeAt_eq_of_isPrefix (absolute : q.isAbsolute = p.isAbsolute)
    (fewer : q.components <+: p.components) {k : ℕ} (inside : k ≤ q.components.length) :
    q.placeAt workingDirectory k = p.placeAt workingDirectory k := by
  rw [placeAt, placeAt, FileTree.startOf, FileTree.startOf, absolute,
    List.prefix_iff_eq_take.1 fewer, List.take_take, min_eq_left inside]

theorem IsParent.placeAt_eq (parent : IsParent q p) {k : ℕ} (inside : k ≤ q.components.length) :
    q.placeAt workingDirectory k = p.placeAt workingDirectory k :=
  placeAt_eq_of_isPrefix parent.absolute parent.components_isPrefix inside

end Path

open ContentionChart.Path (namesOf isIdle isUp)

namespace FileTree

variable {t made : FileTree} {workingDirectory start stop next place : Location} {p q : Path}
  {segment : Bytes} {segments : List Bytes}

/-! ## Following -/

/-- A step starts in a directory. It stays there, goes up, or goes down to a name. -/
theorem step_eq_ok_iff : t.step place segment = .ok next ↔
    t.node? place = some .directory ∧
      (isIdle segment = true ∧ next = place ∨
        isIdle segment = false ∧ isUp segment = true ∧ next = place.dropLast ∨
        isIdle segment = false ∧ isUp segment = false ∧ segment.length ≤ maxNameLength ∧
          next = place ++ [segment]) := by
  unfold step
  cases here : t.node? place with
  | none => simp
  | some node =>
    cases node with
    | file => simp
    | directory => cases isIdle segment <;> cases isUp segment <;> grind

theorem step_idle (here : t.node? place = some .directory) (idle : isIdle segment = true) :
    t.step place segment = .ok place :=
  step_eq_ok_iff.2 ⟨here, .inl ⟨idle, rfl⟩⟩

theorem step_name (here : t.node? place = some .directory) (notIdle : isIdle segment = false)
    (notUp : isUp segment = false) (short : segment.length ≤ maxNameLength) :
    t.step place segment = .ok (place ++ [segment]) :=
  step_eq_ok_iff.2 ⟨here, .inr (.inr ⟨notIdle, notUp, short, rfl⟩)⟩

/-- A path that was followed and did not lead up has passed through directories. -/
theorem follow_eq_ok (plain : ∀ name ∈ namesOf segments, isUp name = false)
    (h : t.follow start segments = .ok stop) :
    stop = start ++ namesOf segments ∧
      ∀ k < (namesOf segments).length,
        t.node? (start ++ (namesOf segments).take k) = some .directory := by
  induction segments generalizing start with
  | nil =>
    obtain rfl := Except.ok.inj h
    simp
  | cons segment segments ih =>
    cases first : t.step start segment with
    | error fault =>
      rw [follow_cons_of_error first] at h
      cases h
    | ok next =>
      rw [follow_cons_of_ok first] at h
      obtain ⟨here, ⟨idle, rfl⟩ | ⟨notIdle, up, -⟩ | ⟨notIdle, -, -, rfl⟩⟩ :=
        step_eq_ok_iff.1 first
      · rw [Path.namesOf_cons_idle idle] at plain ⊢
        exact ih plain h
      · rw [Path.namesOf_cons_name notIdle] at plain
        rw [plain segment List.mem_cons_self] at up
        cases up
      · rw [Path.namesOf_cons_name notIdle] at plain ⊢
        obtain ⟨rfl, below⟩ := ih (fun name mem => plain name (List.mem_cons_of_mem _ mem)) h
        refine ⟨by simp, ?_⟩
        rintro (_ | k) inside
        · simpa using here
        · simpa using below k (Nat.lt_of_succ_lt_succ inside)

/-- Through directories a path can be followed, but for a name that is too long. -/
theorem follow_of_directories (plain : ∀ name ∈ namesOf segments, isUp name = false)
    (short : ∀ name ∈ namesOf segments, name.length ≤ maxNameLength)
    (directories : ∀ k ≤ (namesOf segments).length,
      t.node? (start ++ (namesOf segments).take k) = some .directory) :
    t.follow start segments = .ok (start ++ namesOf segments) := by
  induction segments generalizing start with
  | nil => simp
  | cons segment segments ih =>
    have here : t.node? start = some .directory := by simpa using directories 0 (Nat.zero_le _)
    cases idle : isIdle segment with
    | true =>
      rw [Path.namesOf_cons_idle idle] at plain short directories ⊢
      rw [follow_cons_of_ok (step_idle here idle)]
      exact ih plain short directories
    | false =>
      rw [Path.namesOf_cons_name idle] at plain short directories ⊢
      rw [follow_cons_of_ok (step_name here idle (plain segment List.mem_cons_self)
        (short segment List.mem_cons_self))]
      have below : ∀ k ≤ (namesOf segments).length,
          t.node? (start ++ [segment] ++ (namesOf segments).take k) = some .directory :=
        fun k inside => by simpa using directories (k + 1) (Nat.succ_le_succ inside)
      have rest := ih (fun name mem => plain name (List.mem_cons_of_mem _ mem))
        (fun name mem => short name (List.mem_cons_of_mem _ mem)) below
      simpa using rest

theorem follow_idle (here : t.node? place = some .directory) (idle : namesOf segments = []) :
    t.follow place segments = .ok place := by
  have stays : t.follow place segments = .ok (place ++ namesOf segments) := by
    apply follow_of_directories <;> simp [idle, here]
  simpa [idle] using stays

/-- With no file on its way, a path that cannot be followed fails at a place that is missing. -/
theorem follow_missing (plain : ∀ name ∈ namesOf segments, isUp name = false)
    (short : ∀ name ∈ namesOf segments, name.length ≤ maxNameLength)
    (free : ∀ k < (namesOf segments).length, ∀ content,
      t.node? (start ++ (namesOf segments).take k) ≠ some (.file content))
    (missing : ∃ k < (namesOf segments).length,
      t.node? (start ++ (namesOf segments).take k) = none) :
    t.follow start segments = .error .notFound := by
  induction segments generalizing start with
  | nil =>
    obtain ⟨k, inside, -⟩ := missing
    cases inside
  | cons segment segments ih =>
    cases here : t.node? start with
    | none => exact follow_cons_of_error (by simp [step, here]) segments
    | some node =>
      have directory : node = .directory := by
        obtain ⟨k, inside, -⟩ := missing
        cases node with
        | directory => rfl
        | file content => exact absurd (by simpa using here) (free 0 (by omega) content)
      subst directory
      cases idle : isIdle segment with
      | true =>
        rw [Path.namesOf_cons_idle idle] at plain short free missing
        rw [follow_cons_of_ok (step_idle here idle)]
        exact ih plain short free missing
      | false =>
        rw [Path.namesOf_cons_name idle] at plain short free missing
        rw [follow_cons_of_ok (step_name here idle (plain segment List.mem_cons_self)
          (short segment List.mem_cons_self))]
        apply ih (fun name mem => plain name (List.mem_cons_of_mem _ mem))
          (fun name mem => short name (List.mem_cons_of_mem _ mem))
        · intro k inside content
          simpa using free (k + 1) (Nat.succ_lt_succ inside) content
        · obtain ⟨_ | k, inside, absent⟩ := missing
          · simp [here] at absent
          · exact ⟨k, Nat.lt_of_succ_lt_succ inside, by simpa using absent⟩

/-! ## Directories that are there -/

theorem resolve_eq_ok_iff {node : Node} : t.resolve workingDirectory p = .ok (place, node) ↔
    pathFault? p = none ∧ t.follow (startOf workingDirectory p) p.segments = .ok place ∧
      t.node? place = some node := by
  unfold resolve
  cases pathFault? p with
  | some fault => simp
  | none =>
    cases leads : t.follow (startOf workingDirectory p) p.segments with
    | error fault => simp [bind, Except.bind]
    | ok stop =>
      simp only [bind, Except.bind]
      cases here : t.node? stop <;> grind

/-- What a path leads to depends on the nodes of a tree alone. -/
theorem resolve_congr (same : ∀ place, made.node? place = t.node? place)
    (workingDirectory : Location) (p : Path) :
    made.resolve workingDirectory p = t.resolve workingDirectory p := by
  have steps : made.step = t.step := by
    funext place segment
    simp only [step, same]
  simp only [resolve, follow, steps, same]

theorem pathExists_iff : t.pathExists workingDirectory p = true ↔
    ∃ place node, t.resolve workingDirectory p = .ok (place, node) := by
  unfold pathExists
  cases t.resolve workingDirectory p with
  | error fault => simp [Except.toOption]
  | ok found =>
    obtain ⟨place, node⟩ := found
    simp [Except.toOption]

theorem isDirectory_iff : t.isDirectory workingDirectory p = true ↔
    ∃ place, t.resolve workingDirectory p = .ok (place, .directory) := by
  unfold isDirectory
  cases t.resolve workingDirectory p with
  | error fault => simp [Except.toOption]
  | ok found =>
    obtain ⟨place, node⟩ := found
    simp [Except.toOption]

/-- Where a path leads, there is something, and each place on the way is a directory. -/
theorem nodes_of_pathExists (plain : p.IsPlain) (h : t.pathExists workingDirectory p = true) :
    (∀ k < p.components.length, t.node? (p.placeAt workingDirectory k) = some .directory) ∧
    ∃ node, t.node? (p.place workingDirectory) = some node := by
  obtain ⟨place, node, found⟩ := pathExists_iff.1 h
  obtain ⟨-, leads, here⟩ := resolve_eq_ok_iff.1 found
  obtain ⟨rfl, directories⟩ := follow_eq_ok plain leads
  exact ⟨directories, node, here⟩

theorem directories_of_isDirectory (plain : p.IsPlain)
    (h : t.isDirectory workingDirectory p = true) :
    ∀ k ≤ p.components.length, t.node? (p.placeAt workingDirectory k) = some .directory := by
  obtain ⟨place, found⟩ := isDirectory_iff.1 h
  obtain ⟨-, leads, here⟩ := resolve_eq_ok_iff.1 found
  obtain ⟨rfl, directories⟩ := follow_eq_ok plain leads
  intro k inside
  obtain below | rfl := inside.lt_or_eq
  · exact directories k below
  · rw [Path.placeAt_length]
    exact here

end FileTree

end ContentionChart
