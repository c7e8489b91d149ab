import ContentionChart.Proofs.FollowedPaths

/-!
# Made directories

To make a directory takes a directory at each place on the way to it, and what is missing is made
before. Nothing else becomes of a tree, whether the directory can be made or not.

## Main definitions

* `FileTree.Grows` — directories were made where there was nothing.
* `FileTree.Clear` — nothing stands in the way of a directory.

## Main statements

* `FileTree.makeDirectory_eq_ok` — one directory is made.
* `FileTree.makeDirectories_grows`, `FileTree.isDirectory_makeDirectories` — what is made.
* `FileTree.makeDirectories_of_clear` — a directory is made unless something is in the way.
-/

namespace ContentionChart

open Utf8 (Bytes)
open ContentionChart.Path (namesOf isIdle isUp)

namespace FileTree

variable {t made : FileTree} {workingDirectory place : Location} {p q : Path}
  {segments : List Bytes}

/-! ## One directory -/

section NewPlace

variable {slashes : Bool}

theorem namesOf_empties (empty : ∀ segment ∈ segments, segment = []) : namesOf segments = [] := by
  refine Path.namesOf_eq_nil_iff.2 fun segment mem => ?_
  rw [empty segment mem]
  rfl

/-- A new place is the one that the components of its path name. -/
theorem eq_place_of_placeForNew (plain : p.IsPlain)
    (h : t.placeForNew workingDirectory p = .ok (some (place, slashes))) :
    place = p.place workingDirectory ∧ p.components ≠ [] := by
  obtain ⟨-, above, name, empties, directory, whole, empty, -, notIdle, notUp, leads, steps⟩ :=
    exists_of_placeForNew h
  have components : p.components = namesOf above ++ [name] := by
    rw [Path.components, whole, Path.namesOf_append, Path.namesOf_cons_name notIdle,
      namesOf_empties empty]
  have abovePlain : ∀ name ∈ namesOf above, isUp name = false := fun name mem =>
    plain name (components ▸ List.mem_append_left _ mem)
  obtain ⟨rfl, -⟩ := follow_eq_ok abovePlain leads
  obtain ⟨-, ⟨idle, -⟩ | ⟨-, up, -⟩ | ⟨-, -, -, rfl⟩⟩ := step_eq_ok_iff.1 steps
  · rw [notIdle] at idle
    cases idle
  · rw [notUp] at up
    cases up
  · simp [Path.place, components]

/-- A directory that was put at a new place is found there. -/
theorem resolve_put_directory (h : t.placeForNew workingDirectory p = .ok (some (place, slashes)))
    (free : t.node? place = none) :
    (t.put place .directory).resolve workingDirectory p = .ok (place, .directory) := by
  obtain ⟨wellFormed, above, name, empties, directory, whole, empty, -, -, -, leads, steps⟩ :=
    exists_of_placeForNew h
  have below : place ≠ [] := by
    rintro rfl
    simp at free
  have file : t.node? place ≠ some .directory := by simp [free]
  have there := node?_put_self t .directory below
  refine resolve_eq_ok_iff.2 ⟨wellFormed, ?_, there⟩
  rw [whole, follow_append_of_ok (follow_put file .directory leads),
    follow_cons_of_ok (step_put file .directory steps)]
  exact follow_idle there (namesOf_empties empty)

end NewPlace

/-- A directory that could be made stands alone at a place that was free, and is found there. -/
theorem makeDirectory_eq_ok (plain : p.IsPlain)
    (h : t.makeDirectory workingDirectory p = .ok made) :
    made = t.put (p.place workingDirectory) .directory ∧
      t.node? (p.place workingDirectory) = none ∧ p.components ≠ [] ∧
      made.isDirectory workingDirectory p = true := by
  unfold makeDirectory at h
  cases found : t.placeForNew workingDirectory p with
  | error fault => simp [found, bind, Except.bind] at h
  | ok new =>
    cases new with
    | none => simp [found, bind, Except.bind] at h
    | some last =>
      obtain ⟨place, slashes⟩ := last
      obtain ⟨rfl, named⟩ := eq_place_of_placeForNew plain found
      simp only [found, bind, Except.bind] at h
      split at h
      case isTrue => cases h
      case isFalse free =>
        obtain rfl := Except.ok.inj h
        have free : t.node? (p.place workingDirectory) = none := by simpa using free
        exact ⟨rfl, free, named, isDirectory_iff.2 ⟨_, resolve_put_directory found free⟩⟩

/-! ## Directories one above the other -/

/-- What there was is as it was, and what is new is a directory at one of the given places. -/
def Grows (t made : FileTree) (new : Location → Prop) : Prop :=
  ∀ place, made.node? place = t.node? place ∨
    t.node? place = none ∧ made.node? place = some .directory ∧ new place

namespace Grows

variable {new others : Location → Prop} {further : FileTree}

theorem refl (t : FileTree) (new : Location → Prop) : Grows t t new := fun _ => .inl rfl

theorem trans (first : Grows t made new) (second : Grows made further new) :
    Grows t further new := by
  intro place
  grind [Grows]

theorem mono (h : Grows t made new) (weaker : ∀ place, new place → others place) :
    Grows t made others := by
  intro place
  grind [Grows]

end Grows

/-- The places of some paths, but for those where they start. -/
def PlaceOf (workingDirectory : Location) (chain : List Path) (place : Location) : Prop :=
  ∃ p ∈ chain, p.components ≠ [] ∧ place = p.place workingDirectory

theorem PlaceOf.cons {chain : List Path} (h : PlaceOf workingDirectory chain place) (p : Path) :
    PlaceOf workingDirectory (p :: chain) place := by
  obtain ⟨q, mem, named⟩ := h
  exact ⟨q, List.mem_cons_of_mem p mem, named⟩

theorem makeDirectory_grows {chain : List Path} (plain : p.IsPlain)
    (h : t.makeDirectory workingDirectory p = .ok made) (mem : p ∈ chain) :
    Grows t made (PlaceOf workingDirectory chain) := by
  intro place
  obtain ⟨rfl, free, named, -⟩ := makeDirectory_eq_ok plain h
  by_cases same : place = p.place workingDirectory
  · subst same
    have below : p.place workingDirectory ≠ [] := by
      intro root
      simp [root] at free
    exact .inr ⟨free, node?_put_self t .directory below, p, mem, named, rfl⟩
  · exact .inl (node?_put_of_ne t .directory same)

/-- Directories are made at the places of the list alone, also where one cannot be made. -/
theorem makeChain_grows {chain : List Path} (plain : ∀ p ∈ chain, p.IsPlain) (t : FileTree) :
    Grows t (makeChain workingDirectory chain t).1 (PlaceOf workingDirectory chain) := by
  fun_induction makeChain workingDirectory chain t with
  | case1 t => exact .refl t _
  | case2 p above t empty => exact .refl t _
  | case3 p above t some made makes =>
    exact makeDirectory_grows (plain p List.mem_cons_self) makes List.mem_cons_self
  | case4 p above t some missing made fault chain ih
  | case6 p above t some missing made chain fault fails there ih
  | case7 p above t some missing made chain fault fails absent ih =>
    rw [chain] at ih
    exact (ih fun q mem => plain q (List.mem_cons_of_mem p mem)).mono fun _ new => new.cons p
  | case5 p above t some missing made chain both makes ih =>
    rw [chain] at ih
    have first := ih fun q mem => plain q (List.mem_cons_of_mem p mem)
    exact (first.mono fun _ new => new.cons p).trans
      (makeDirectory_grows (plain p List.mem_cons_self) makes List.mem_cons_self)
  | case8 p above t some fault other fails there => exact .refl t _
  | case9 p above t some fault other fails absent => exact .refl t _

/-- If nothing is wrong, the first directory of a list is there. -/
theorem isDirectory_makeChain {chain : List Path} (first : chain.head? = some p)
    (plain : p.IsPlain) (named : p.isEmpty = false)
    (h : (makeChain workingDirectory chain t).2 = none) :
    (makeChain workingDirectory chain t).1.isDirectory workingDirectory p = true := by
  obtain ⟨above, rfl⟩ := List.head?_eq_some_iff.1 first
  have found {t made : FileTree} (makes : t.makeDirectory workingDirectory p = .ok made) :=
    (makeDirectory_eq_ok plain makes).2.2.2
  rw [makeChain, if_neg (by simp [named])] at h ⊢
  grind

/-! ## A directory and all above it -/

theorem passes_of_placeOf {fuel : ℕ}
    (h : PlaceOf workingDirectory (p.ancestorsWithin fuel) place) :
    p.Passes workingDirectory place := by
  obtain ⟨q, mem, named, rfl⟩ := h
  obtain ⟨absolute, fewer⟩ := Path.of_mem_ancestorsWithin mem
  refine ⟨q.components.length, List.length_pos_iff.2 named, fewer.length_le, ?_⟩
  rw [← Path.placeAt_length, Path.placeAt_eq_of_isPrefix absolute fewer le_rfl]

theorem makeAncestors_grows (plain : p.IsPlain) (fuel : ℕ) (t : FileTree)
    (workingDirectory : Location) :
    Grows t (makeChain workingDirectory (p.ancestorsWithin fuel) t).1
      (p.Passes workingDirectory) := by
  have chain : ∀ q ∈ p.ancestorsWithin fuel, q.IsPlain := fun q mem =>
    plain.of_isPrefix (Path.of_mem_ancestorsWithin mem).2
  exact (makeChain_grows chain t).mono fun _ => passes_of_placeOf

/-- Directories are made at the places that the path passes, whether or not it can be done. -/
theorem makeDirectories_grows (plain : p.IsPlain) (t : FileTree) (workingDirectory : Location) :
    Grows t (t.makeDirectories workingDirectory p).1 (p.Passes workingDirectory) :=
  makeAncestors_grows plain _ t workingDirectory

/-- A directory that could be made with all above it is there. -/
theorem isDirectory_makeDirectories (plain : p.IsPlain) (named : p.isEmpty = false)
    (h : (t.makeDirectories workingDirectory p).2 = none) :
    (t.makeDirectories workingDirectory p).1.isDirectory workingDirectory p = true :=
  isDirectory_makeChain rfl plain named h

/-- Nothing is in the way of a directory: its path can be followed from a directory, and no file is
at a place that it passes. -/
structure Clear (t : FileTree) (workingDirectory : Location) (p : Path) : Prop where
  wellFormed : pathFault? p = none
  short : ∀ name ∈ p.components, name.length ≤ maxNameLength
  start : t.node? (startOf workingDirectory p) = some .directory
  free : ∀ k ≤ p.components.length, ∀ content,
    t.node? (p.placeAt workingDirectory k) ≠ some (.file content)

theorem Clear.isEmpty_eq_false (clear : Clear t workingDirectory p) : p.isEmpty = false := by
  have wellFormed := clear.wellFormed
  grind [pathFault?]

/-- If nothing is in the way of a directory, nothing is in the way of its parent. -/
theorem Clear.of_isParent (clear : Clear t workingDirectory p) (parent : Path.IsParent q p)
    (named : q.isEmpty = false) : Clear t workingDirectory q := by
  have fewer := parent.components_isPrefix
  refine ⟨?_, fun name mem => clear.short name (fewer.subset mem), ?_, ?_⟩
  · have wellFormed := clear.wellFormed
    have shorter := parent.bytes.length_le
    have noNul : (0 : UInt8) ∈ q.bytes → 0 ∈ p.bytes := fun mem => parent.bytes.subset mem
    unfold pathFault? at wellFormed ⊢
    grind
  · rw [startOf, parent.absolute]
    exact clear.start
  · intro k inside content
    rw [parent.placeAt_eq inside]
    exact clear.free k (inside.trans fewer.length_le) content

/-- The places on the way are directories unless one is missing. -/
theorem Clear.directories (clear : Clear t workingDirectory p)
    (complete : ¬∃ k < p.components.length, t.node? (p.placeAt workingDirectory k) = none) :
    ∀ k < p.components.length, t.node? (p.placeAt workingDirectory k) = some .directory := by
  intro k inside
  cases here : t.node? (p.placeAt workingDirectory k) with
  | none => exact absurd ⟨k, inside, here⟩ complete
  | some node =>
    cases node with
    | directory => rfl
    | file content => exact absurd here (clear.free k inside.le content)

theorem Clear.of_grows {new : Location → Prop} (clear : Clear t workingDirectory p)
    (grows : Grows t made new) : Clear made workingDirectory p := by
  refine ⟨clear.wellFormed, clear.short, ?_, ?_⟩
  · obtain same | ⟨free, -⟩ := grows (startOf workingDirectory p)
    · rw [same, clear.start]
    · rw [clear.start] at free
      cases free
  · intro k inside content
    obtain same | ⟨-, directory, -⟩ := grows (p.placeAt workingDirectory k)
    · rw [same]
      exact clear.free k inside content
    · simp [directory]

/-- Only above a single component is the empty path, and that is made where the path starts. -/
theorem Clear.isEmpty_parent (clear : Clear t workingDirectory p) (parent : Path.IsParent q p)
    (missing : ∃ k < p.components.length, t.node? (p.placeAt workingDirectory k) = none) :
    q.isEmpty = false := by
  by_contra empty
  obtain ⟨k, inside, absent⟩ := missing
  have length := parent.length_components
  rw [Path.components_of_isEmpty (by simpa using empty), List.length_nil] at length
  obtain rfl : k = 0 := by omega
  rw [Path.placeAt_zero, clear.start] at absent
  cases absent

theorem isDirectory_of_directories (plain : p.IsPlain) (clear : Clear t workingDirectory p)
    (directories : ∀ k ≤ p.components.length,
      t.node? (p.placeAt workingDirectory k) = some .directory) :
    t.isDirectory workingDirectory p = true := by
  have here := directories _ le_rfl
  rw [Path.placeAt_length] at here
  have leads := follow_of_directories plain clear.short directories
  exact isDirectory_iff.2 ⟨_, resolve_eq_ok_iff.2 ⟨clear.wellFormed, leads, here⟩⟩

/-- Below directories the last component of a path names a new place. -/
theorem placeForNew_of_directories (plain : p.IsPlain) (clear : Clear t workingDirectory p)
    {above : List Bytes} {name : Bytes} (whole : p.segments = above ++ [name])
    (notIdle : isIdle name = false)
    (directories : ∀ k < p.components.length,
      t.node? (p.placeAt workingDirectory k) = some .directory) :
    t.placeForNew workingDirectory p = .ok (some (p.place workingDirectory, false)) := by
  have components : p.components = namesOf above ++ [name] := by
    rw [Path.components, whole, Path.namesOf_concat_name notIdle]
  have notUp : isUp name = false := plain name (by simp [components])
  have reached : ∀ k ≤ (namesOf above).length,
      t.node? (startOf workingDirectory p ++ (namesOf above).take k) = some .directory := by
    intro k inside
    have directory := directories k (by simp [components]; omega)
    rwa [Path.placeAt, components, List.take_append_of_le_length inside] at directory
  have leads : t.follow (startOf workingDirectory p) above =
      .ok (startOf workingDirectory p ++ namesOf above) := by
    apply follow_of_directories
    · exact fun name mem => plain name (components ▸ List.mem_append_left _ mem)
    · exact fun name mem => clear.short name (components ▸ List.mem_append_left _ mem)
    · exact reached
  have steps : t.step (startOf workingDirectory p ++ namesOf above) name =
      .ok (p.place workingDirectory) := by
    rw [Path.place, components, ← List.append_assoc]
    apply step_name _ notIdle notUp
    · exact clear.short name (by simp [components])
    · simpa using reached _ le_rfl
  exact placeForNew_of_step clear.wellFormed whole notIdle notUp leads steps

/-- A directory that is not missing is as good as one that was made. -/
theorem makeDirectory_of_directories (plain : p.IsPlain) (clear : Clear t workingDirectory p)
    {above : List Bytes} {name : Bytes} (whole : p.segments = above ++ [name])
    (notIdle : isIdle name = false)
    (directories : ∀ k < p.components.length,
      t.node? (p.placeAt workingDirectory k) = some .directory) :
    (∃ made, t.makeDirectory workingDirectory p = .ok made) ∨
      t.makeDirectory workingDirectory p = .error .alreadyThere ∧
        t.isDirectory workingDirectory p = true := by
  have found := placeForNew_of_directories plain clear whole notIdle directories
  cases here : t.node? (p.place workingDirectory) with
  | none =>
    refine .inl ⟨t.put (p.place workingDirectory) .directory, ?_⟩
    simp [makeDirectory, found, here, bind, Except.bind]
  | some node =>
    cases node with
    | file content =>
      have file := clear.free _ le_rfl content
      rw [Path.placeAt_length] at file
      exact absurd here file
    | directory =>
      refine .inr ⟨by simp [makeDirectory, found, here, bind, Except.bind], ?_⟩
      apply isDirectory_of_directories plain clear
      intro k inside
      obtain below | rfl := inside.lt_or_eq
      · exact directories k below
      · rw [Path.placeAt_length, here]

/-- Below a directory that is missing none can be made. -/
theorem makeDirectory_missing (plain : p.IsPlain) (clear : Clear t workingDirectory p)
    {above : List Bytes} {name : Bytes} (whole : p.segments = above ++ [name])
    (notIdle : isIdle name = false)
    (missing : ∃ k < p.components.length, t.node? (p.placeAt workingDirectory k) = none) :
    t.makeDirectory workingDirectory p = .error .notFound := by
  have leads : t.follow (startOf workingDirectory p) (above ++ [name]) = .error .notFound := by
    rw [← whole]
    exact follow_missing plain clear.short (fun k inside => clear.free k inside.le) missing
  unfold makeDirectory placeForNew
  rw [follow_concat] at leads
  simp only [clear.wellFormed, whole, trimmed_eq_self notIdle, List.getLast?_concat,
    List.dropLast_concat]
  cases front : t.follow (startOf workingDirectory p) above with
  | error fault =>
    rw [front] at leads
    obtain rfl := Except.error.inj leads
    rfl
  | ok directory =>
    rw [front] at leads
    have last : t.step directory name = .error .notFound := leads
    simp [last, bind, Except.bind]

/-- A path without components leads to where it starts, and that is there. -/
theorem makeDirectory_idle (clear : Clear t workingDirectory p) (idle : p.components = []) :
    t.makeDirectory workingDirectory p = .error .alreadyThere ∧
      t.isDirectory workingDirectory p = true := by
  constructor
  · have found : t.placeForNew workingDirectory p = .ok none := by
      have allIdle : ∀ segment ∈ (p.segments.reverse.dropWhile List.isEmpty).reverse,
          isIdle segment = true := fun segment mem =>
        Path.namesOf_eq_nil_iff.1 idle segment
          (List.mem_reverse.1 ((List.dropWhile_sublist _).mem (List.mem_reverse.1 mem)))
      unfold placeForNew
      rw [clear.wellFormed]
      generalize (p.segments.reverse.dropWhile List.isEmpty).reverse = segments at allIdle
      cases last : segments.getLast? with
      | none => simp [last]
      | some name =>
        obtain ⟨above, rfl⟩ := List.getLast?_eq_some_iff.1 last
        have stays := follow_idle clear.start (Path.namesOf_eq_nil_iff.2 fun segment mem =>
          allIdle segment (List.mem_append_left _ mem))
        have here := allIdle name (by simp)
        have steps := step_idle clear.start here
        simp [stays, steps, here, bind, Except.bind]
    simp [makeDirectory, found, bind, Except.bind]
  · exact isDirectory_iff.2 ⟨_, resolve_eq_ok_iff.2
      ⟨clear.wellFormed, follow_idle clear.start idle, clear.start⟩⟩

/-- A directory that is the parent of a path has directories on the whole way to the path. -/
theorem directories_of_isParent (parent : Path.IsParent q p) (plain : q.IsPlain)
    (there : t.isDirectory workingDirectory q = true) :
    ∀ k < p.components.length, t.node? (p.placeAt workingDirectory k) = some .directory := by
  intro k inside
  have length := parent.length_components
  have fewer : k ≤ q.components.length := by omega
  rw [← parent.placeAt_eq fewer]
  exact directories_of_isDirectory plain there k fewer

/-- With nothing in the way, each directory is made once the one above it has been. -/
theorem makeChain_of_clear {fuel : ℕ} (plain : p.IsPlain) (clear : Clear t workingDirectory p)
    (trimmed : p.IsTrimmed) (enough : p.bytes.length < fuel) :
    (makeChain workingDirectory (p.ancestorsWithin fuel) t).2 = none := by
  induction fuel generalizing p with
  | zero => cases enough
  | succ fuel ih =>
    rw [Path.ancestorsWithin, makeChain, if_neg (by simp [clear.isEmpty_eq_false])]
    by_cases idle : p.components = []
    · obtain ⟨fails, there⟩ := makeDirectory_idle clear idle
      simp [fails, there]
    obtain ⟨above, name, whole, notIdle⟩ := trimmed.resolve_left idle
    by_cases missing : ∃ k < p.components.length, t.node? (p.placeAt workingDirectory k) = none
    case neg =>
      obtain ⟨made, makes⟩ | ⟨fails, there⟩ :=
        makeDirectory_of_directories plain clear whole notIdle (clear.directories missing)
      · simp [makes]
      · simp [fails, there]
    case pos =>
      have fails := makeDirectory_missing plain clear whole notIdle missing
      obtain ⟨q, parent⟩ : ∃ q, p.parent? = some q :=
        Option.ne_none_iff_exists'.1 fun none =>
          idle (Path.components_eq_nil_of_parent?_eq_none none)
      simp only [fails, parent]
      have isParent := Path.isParent_of_parent? parent
      have qPlain := plain.of_isPrefix isParent.components_isPrefix
      have named := clear.isEmpty_parent isParent missing
      have shorter := isParent.length_lt idle
      have made := ih qPlain (clear.of_isParent isParent named) isParent.trimmed (by omega)
      have grows := makeAncestors_grows qPlain fuel t workingDirectory
      have there : (makeChain workingDirectory (q.ancestorsWithin fuel) t).1.isDirectory
          workingDirectory q = true := by
        obtain ⟨fuel, rfl⟩ := Nat.exists_eq_add_one_of_ne_zero (show fuel ≠ 0 by omega)
        exact isDirectory_makeChain rfl qPlain named made
      generalize makeChain workingDirectory (q.ancestorsWithin fuel) t = outcome at made grows there
      obtain ⟨further, fault?⟩ := outcome
      subst made
      obtain ⟨both, makes⟩ | ⟨again, there⟩ :=
        makeDirectory_of_directories plain (clear.of_grows grows) whole notIdle
          (directories_of_isParent isParent qPlain there)
      · simp [makes]
      · simp [again, there]

theorem makeDirectories_of_clear (plain : p.IsPlain) (trimmed : p.IsTrimmed)
    (clear : Clear t workingDirectory p) : (t.makeDirectories workingDirectory p).2 = none :=
  makeChain_of_clear plain clear trimmed (Nat.lt_succ_self _)

end FileTree

end ContentionChart
