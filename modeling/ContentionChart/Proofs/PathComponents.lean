import ContentionChart.Files.Path
import Mathlib.Data.List.Infix
import Mathlib.Data.List.TakeWhile

/-!
# Components of paths

The components of a path are the names that are left when idle segments are not counted. The parent
of a path is found on its bytes, with one case for each way to begin, and yet it can be said for all
of them at once: it has the same components but for the last, and starts where the path starts.

## Main definitions

* `Path.components` — the components of a path.
* `Path.IsPlain` — none of them leads up.

## Main statements

* `Path.segments_joinSegments` — segments without slashes can be joined and cut again.
* `Path.isParent_of_parent?` — what a path and its parent have in common.
-/

namespace ContentionChart

open Utf8 (Bytes)

namespace Path

variable {p q : Path} {segment : Bytes} {segments : List Bytes}

/-! ## Segments -/

theorem splitSlashes_eq_splitOn (bytes : Bytes) : splitSlashes bytes = bytes.splitOn slash := by
  induction bytes with
  | nil => rfl
  | cons b bs ih =>
    rw [splitSlashes, List.splitOn_cons_eq_if_modifyHead, ← ih]
    by_cases atSlash : b = slash
    · simp [atSlash]
    · cases parts : splitSlashes bs with
      | nil => exact absurd parts (splitSlashes_ne_nil bs)
      | cons first rest => simp [atSlash]

theorem slash_notMem_of_mem_splitSlashes {bytes : Bytes} (mem : segment ∈ splitSlashes bytes) :
    slash ∉ segment := by
  induction bytes generalizing segment with
  | nil => simp_all [splitSlashes]
  | cons b bs ih =>
    rw [splitSlashes] at mem
    split at mem
    case isTrue =>
      obtain rfl | mem := List.mem_cons.1 mem
      · exact List.not_mem_nil
      · exact ih mem
    case isFalse atByte =>
      cases parts : splitSlashes bs with
      | nil => exact absurd parts (splitSlashes_ne_nil bs)
      | cons first rest =>
        rw [parts] at mem ih
        obtain rfl | mem := List.mem_cons.1 mem
        · rw [List.mem_cons, not_or]
          exact ⟨Ne.symm atByte, ih List.mem_cons_self⟩
        · exact ih (List.mem_cons_of_mem _ mem)

theorem segments_joinSegments (free : ∀ segment ∈ segments, slash ∉ segment)
    (nonempty : segments ≠ []) : (Path.mk (joinSegments segments)).segments = segments := by
  rw [Path.segments, splitSlashes_eq_splitOn]
  exact List.splitOn_intercalate slash free nonempty

theorem segments_slash (bytes : Bytes) :
    (Path.mk (slash :: bytes)).segments = [] :: splitSlashes bytes := by
  simp [Path.segments, splitSlashes]

/-- To join fewer segments is to break off earlier. -/
theorem isPrefix_joinSegments {kept : List Bytes} (h : kept <+: segments) :
    joinSegments kept <+: joinSegments segments := by
  induction kept generalizing segments with
  | nil => exact List.nil_prefix
  | cons first kept ih =>
    obtain ⟨dropped, rfl⟩ := h
    cases kept with
    | nil =>
      cases dropped with
      | nil => exact List.prefix_rfl
      | cons second dropped =>
        refine ⟨slash :: joinSegments (second :: dropped), ?_⟩
        simp [joinSegments]
    | cons second kept =>
      have later := ih (List.prefix_append (second :: kept) dropped)
      simpa [joinSegments, List.prefix_cons_inj] using later

/-! ## Components -/

/-- The segments that are not idle. -/
def namesOf (segments : List Bytes) : List Bytes := segments.filter fun segment => !isIdle segment

@[simp] theorem namesOf_nil : namesOf [] = [] := rfl

theorem namesOf_cons_idle (idle : isIdle segment = true) (segments : List Bytes) :
    namesOf (segment :: segments) = namesOf segments := by
  simp [namesOf, idle]

theorem namesOf_cons_name (name : isIdle segment = false) (segments : List Bytes) :
    namesOf (segment :: segments) = segment :: namesOf segments := by
  simp [namesOf, name]

@[simp] theorem namesOf_append (before after : List Bytes) :
    namesOf (before ++ after) = namesOf before ++ namesOf after :=
  List.filter_append before after

theorem namesOf_concat_name (name : isIdle segment = false) (segments : List Bytes) :
    namesOf (segments ++ [segment]) = namesOf segments ++ [segment] := by
  rw [namesOf_append, namesOf_cons_name name, namesOf_nil]

theorem namesOf_eq_nil_iff :
    namesOf segments = [] ↔ ∀ segment ∈ segments, isIdle segment = true := by
  simp [namesOf]

/-- The components of a path. -/
def components (p : Path) : List Bytes := namesOf p.segments

/-- A path that does not lead up anywhere. -/
def IsPlain (p : Path) : Prop := ∀ component ∈ p.components, isUp component = false

/-- A path that ends with its last component, if it has any. -/
def IsTrimmed (p : Path) : Prop :=
  p.components = [] ∨ ∃ above name, p.segments = above ++ [name] ∧ isIdle name = false

theorem IsPlain.of_isPrefix (plain : p.IsPlain) (h : q.components <+: p.components) : q.IsPlain :=
  fun component mem => plain component (h.subset mem)

/-! ## Idle segments at the end -/

theorem exists_dropIdle (segments : List Bytes) :
    ∃ idle, segments = dropIdle segments ++ idle ∧ ∀ segment ∈ idle, isIdle segment = true := by
  refine ⟨(segments.reverse.takeWhile isIdle).reverse, ?_, ?_⟩
  · rw [dropIdle, ← List.reverse_append, List.takeWhile_append_dropWhile, List.reverse_reverse]
  · intro segment mem
    exact List.mem_takeWhile_imp (List.mem_reverse.1 mem)

theorem namesOf_dropIdle (segments : List Bytes) :
    namesOf (dropIdle segments) = namesOf segments := by
  obtain ⟨idle, whole, allIdle⟩ := exists_dropIdle segments
  calc namesOf (dropIdle segments) = namesOf (dropIdle segments) ++ namesOf idle := by
        rw [namesOf_eq_nil_iff.2 allIdle, List.append_nil]
    _ = namesOf segments := by rw [← namesOf_append, ← whole]

theorem isPrefix_dropIdle (segments : List Bytes) : dropIdle segments <+: segments := by
  obtain ⟨idle, whole, -⟩ := exists_dropIdle segments
  exact ⟨idle, whole.symm⟩

/-- What is left ends with a name, if anything is left. -/
theorem exists_of_dropIdle_ne_nil (nonempty : dropIdle segments ≠ []) :
    ∃ above name, dropIdle segments = above ++ [name] ∧ isIdle name = false := by
  have cut : segments.reverse.dropWhile isIdle ≠ [] := by simpa [dropIdle] using nonempty
  have notIdle := List.head_dropWhile_not isIdle cut
  refine ⟨(segments.reverse.dropWhile isIdle).tail.reverse, _, ?_, notIdle⟩
  rw [dropIdle, ← List.reverse_cons, List.cons_head_tail]

theorem dropIdle_eq_nil_iff : dropIdle segments = [] ↔ namesOf segments = [] := by
  rw [← namesOf_dropIdle]
  constructor
  · intro none
    rw [none, namesOf_nil]
  · intro none
    by_contra some
    obtain ⟨above, name, whole, notIdle⟩ := exists_of_dropIdle_ne_nil some
    simp [whole, namesOf_concat_name notIdle] at none

/-! ## Parents -/

/-- The three ways for a path to begin: with a slash, with a dot alone, and with neither. -/
theorem splitLead_cases (p : Path) :
    (∃ bytes, p = ⟨slash :: bytes⟩ ∧ p.splitLead = (some [], splitSlashes bytes)) ∨
      (∃ rest, p.segments = [dot] :: rest ∧ p.isAbsolute = false ∧
        p.splitLead = (some [dot], rest)) ∨
      p.isAbsolute = false ∧ p.splitLead = (none, p.segments) := by
  obtain ⟨bytes⟩ := p
  by_cases atSlash : bytes.head? = some slash
  · obtain ⟨bytes, rfl⟩ := List.head?_eq_some_iff.1 atSlash
    refine .inl ⟨bytes, rfl, ?_⟩
    simp [splitLead, segments_slash, isAbsolute]
  · have relative : (Path.mk bytes).isAbsolute = false := by simpa [isAbsolute] using atSlash
    cases parts : (Path.mk bytes).segments with
    | nil => exact absurd parts (splitSlashes_ne_nil bytes)
    | cons first rest =>
      by_cases here : first = [dot]
      · refine .inr (.inl ⟨rest, by rw [here], relative, ?_⟩)
        simp [splitLead, parts, here]
      · refine .inr (.inr ⟨relative, ?_⟩)
        simp [splitLead, parts, here, relative]

/-- What is kept of some segments when the last name is dropped. -/
theorem namesOf_dropLast (rest : List Bytes) :
    namesOf (dropIdle (dropIdle rest).dropLast) = (namesOf rest).dropLast := by
  rw [namesOf_dropIdle, ← namesOf_dropIdle rest]
  by_cases none : dropIdle rest = []
  · simp [none]
  · obtain ⟨above, name, whole, notIdle⟩ := exists_of_dropIdle_ne_nil none
    simp [whole, namesOf_concat_name notIdle]

theorem isPrefix_dropLast (rest : List Bytes) : dropIdle (dropIdle rest).dropLast <+: rest :=
  (isPrefix_dropIdle _).trans ((List.dropLast_prefix _).trans (isPrefix_dropIdle rest))

/-- A path and its parent begin the same, and the parent lacks the last component. Nothing follows
the one before it. -/
structure IsParent (q p : Path) : Prop where
  bytes : q.bytes <+: p.bytes
  absolute : q.isAbsolute = p.isAbsolute
  components : q.components = p.components.dropLast
  trimmed : q.IsTrimmed

theorem slash_notMem_of_isPrefix (h : segments <+: p.segments) :
    ∀ segment ∈ segments, slash ∉ segment :=
  fun _ mem => slash_notMem_of_mem_splitSlashes (h.subset mem)

theorem components_joinSegments (free : ∀ segment ∈ segments, slash ∉ segment) :
    (Path.mk (joinSegments segments)).components = namesOf segments := by
  by_cases none : segments = []
  · rw [none]
    rfl
  · rw [components, segments_joinSegments free none]

theorem isAbsolute_of_isPrefix (h : q.bytes <+: p.bytes) (relative : p.isAbsolute = false) :
    q.isAbsolute = false := by
  unfold isAbsolute at relative ⊢
  obtain ⟨rest, whole⟩ := h
  cases bytes : q.bytes with
  | nil => rfl
  | cons b bs =>
    rw [bytes] at whole
    rw [← whole] at relative
    exact relative

/-- The parent of a relative path has the segments in front of the last name. -/
theorem isParent_joinSegments (relative : p.isAbsolute = false) (kept : segments <+: p.segments)
    (names : namesOf segments = p.components.dropLast)
    (ends : namesOf segments = [] ∨
      ∃ above name, segments = above ++ [name] ∧ isIdle name = false) :
    IsParent ⟨joinSegments segments⟩ p := by
  have free := slash_notMem_of_isPrefix kept
  have bytes : joinSegments segments <+: p.bytes := by
    have joined := isPrefix_joinSegments kept
    rwa [Path.segments, joinSegments_splitSlashes] at joined
  refine ⟨bytes, ?_, ?_, ?_⟩
  · rw [relative]
    exact isAbsolute_of_isPrefix bytes relative
  · rw [components_joinSegments free, names]
  · rw [IsTrimmed, components_joinSegments free]
    refine ends.imp_right ?_
    rintro ⟨above, name, whole, notIdle⟩
    refine ⟨above, name, ?_, notIdle⟩
    rw [segments_joinSegments free (by simp [whole]), whole]

/-- The parent of a path that begins with a slash does so too, if only the slash is left. -/
theorem isParent_slash {bytes : Bytes} (kept : segments <+: splitSlashes bytes)
    (names : namesOf segments = (namesOf (splitSlashes bytes)).dropLast)
    (ends : segments = [] ∨ ∃ above name, segments = above ++ [name] ∧ isIdle name = false) :
    IsParent ⟨slash :: joinSegments segments⟩ ⟨slash :: bytes⟩ := by
  have whole : (Path.mk (slash :: bytes)).components = namesOf (splitSlashes bytes) := by
    rw [components, segments_slash, namesOf_cons_idle rfl]
  have free : ∀ segment ∈ segments, slash ∉ segment := fun _ mem =>
    slash_notMem_of_mem_splitSlashes (kept.subset mem)
  refine ⟨?_, rfl, ?_, ?_⟩
  · have joined := isPrefix_joinSegments kept
    rw [joinSegments_splitSlashes] at joined
    exact (List.prefix_cons_inj slash).2 joined
  · rw [whole, ← names, components, segments_slash, namesOf_cons_idle rfl]
    exact components_joinSegments free
  · obtain rfl | ⟨above, name, rfl, notIdle⟩ := ends
    · exact .inl rfl
    · refine .inr ⟨[] :: above, name, ?_, notIdle⟩
      rw [segments_slash, List.cons_append]
      exact congrArg _ (segments_joinSegments free (by simp))

theorem dropIdle_dropLast_ends (rest : List Bytes) :
    dropIdle (dropIdle rest).dropLast = [] ∨
      ∃ above name, dropIdle (dropIdle rest).dropLast = above ++ [name] ∧ isIdle name = false :=
  (em _).imp_right exists_of_dropIdle_ne_nil

theorem isParent_of_parent? (h : p.parent? = some q) : IsParent q p := by
  obtain ⟨bytes, rfl, lead⟩ | ⟨rest, parts, relative, lead⟩ | ⟨relative, lead⟩ := p.splitLead_cases
  · rw [parent?, lead] at h
    have kept := isPrefix_dropLast (splitSlashes bytes)
    have names := namesOf_dropLast (splitSlashes bytes)
    have ends := dropIdle_dropLast_ends (splitSlashes bytes)
    cases left : dropIdle (splitSlashes bytes) with
    | nil => simp [left] at h
    | cons first others =>
      simp only [left, Option.some.injEq] at h kept names ends
      subst h
      exact isParent_slash kept names ends
  · rw [parent?, lead] at h
    have kept := isPrefix_dropLast rest
    have names := namesOf_dropLast rest
    have ends := dropIdle_dropLast_ends rest
    have whole : p.components = namesOf rest := by
      rw [components, parts, namesOf_cons_idle rfl]
    cases left : dropIdle rest with
    | nil =>
      simp only [left, Option.some.injEq] at h
      subst h
      have names : namesOf [] = p.components.dropLast := by
        rw [whole, dropIdle_eq_nil_iff.1 left]
        rfl
      exact isParent_joinSegments relative List.nil_prefix names (.inl rfl)
    | cons first others =>
      simp only [left, Option.some.injEq] at h kept names ends
      subst h
      apply isParent_joinSegments relative
      · rw [parts]
        exact (List.prefix_cons_inj _).2 kept
      · rw [namesOf_cons_idle rfl, names, whole]
      · rw [namesOf_cons_idle rfl]
        refine ends.imp (fun none => by rw [none, namesOf_nil]) ?_
        rintro ⟨above, name, eq, notIdle⟩
        exact ⟨[dot] :: above, name, by rw [eq, List.cons_append], notIdle⟩
  · rw [parent?, lead] at h
    have kept := isPrefix_dropLast p.segments
    have names := namesOf_dropLast p.segments
    have ends := dropIdle_dropLast_ends p.segments
    cases left : dropIdle p.segments with
    | nil => simp [left] at h
    | cons first others =>
      simp only [left, Option.some.injEq] at h kept names ends
      subst h
      exact isParent_joinSegments relative kept names
        (ends.imp_left fun none => by rw [none, namesOf_nil])

theorem IsParent.components_isPrefix (h : IsParent q p) : q.components <+: p.components := by
  rw [h.components]
  exact List.dropLast_prefix p.components

theorem IsParent.length_components (h : IsParent q p) :
    q.components.length = p.components.length - 1 := by
  rw [h.components, List.length_dropLast]

theorem components_of_isEmpty (h : p.isEmpty = true) : p.components = [] := by
  obtain ⟨bytes⟩ := p
  obtain rfl : bytes = [] := by simpa [isEmpty] using h
  rfl

theorem IsParent.length_lt (h : IsParent q p) (nonempty : p.components ≠ []) :
    q.bytes.length < p.bytes.length := by
  refine lt_of_le_of_ne h.bytes.length_le fun same => ?_
  have bytes : q.bytes = p.bytes := h.bytes.eq_of_length same
  have components : q.components = p.components := by
    rw [Path.components, Path.components, segments, segments, bytes]
  have fewer := h.length_components
  have positive := List.length_pos_iff.2 nonempty
  rw [components] at fewer
  omega

/-- A path and those above it begin the same and lack more and more components. -/
theorem of_mem_ancestorsWithin {fuel : ℕ} (mem : q ∈ p.ancestorsWithin fuel) :
    q.isAbsolute = p.isAbsolute ∧ q.components <+: p.components := by
  induction fuel generalizing p with
  | zero => cases mem
  | succ fuel ih =>
    rw [ancestorsWithin] at mem
    obtain rfl | mem := List.mem_cons.1 mem
    · exact ⟨rfl, List.prefix_rfl⟩
    · cases above : p.parent? with
      | none =>
        rw [above] at mem
        cases mem
      | some parent =>
        rw [above] at mem
        have isParent := isParent_of_parent? above
        obtain ⟨absolute, fewer⟩ := ih mem
        exact ⟨absolute.trans isParent.absolute, fewer.trans isParent.components_isPrefix⟩

/-- Only the root, the empty path and others without a component have no parent. -/
theorem components_eq_nil_of_parent?_eq_none (h : p.parent? = none) : p.components = [] := by
  obtain ⟨bytes, rfl, lead⟩ | ⟨rest, parts, -, lead⟩ | ⟨-, lead⟩ := p.splitLead_cases <;>
    rw [parent?, lead] at h
  · rw [components, segments_slash, namesOf_cons_idle rfl, ← dropIdle_eq_nil_iff]
    grind
  · rw [components, parts, namesOf_cons_idle rfl, ← dropIdle_eq_nil_iff]
    grind
  · rw [components, ← dropIdle_eq_nil_iff]
    grind

end Path

end ContentionChart
