import ContentionChart.Proofs.Masking
import Mathlib.Data.List.Basic

/-!
# The same data on every scale

A scale moves points up or down and masks those that have no place on it. Which samples are drawn
otherwise, in which line and above which thread count, does not depend on the scale, and neither
does the thread axis.

## Main definitions

* `Layout.Shows` — a layout shows exactly the samples of some results, on a scale.
* `Layout.SameData` — two layouts agree in all but the throughput axis.
* `Layout.SameOutcome` — two scales show the same samples, or both find none.

## Main statements

* `Layout.sameOutcome_ofResults` — results that keep the same samples come to the same data.
* `Layout.ofResults_sameData` — the three scales show the same data, up to what is masked.
-/

namespace ContentionChart

variable {α : Type}

/-! ## Samples that pass two tests -/

namespace Series

variable {first second : α → Bool} {s : Series α}

theorem keeping_keeping :
    (s.keeping first).keeping second = s.keeping fun y => first y && second y := by
  refine eq_of_points_eq ?_
  simp only [points_keeping, List.filter_filter, Bool.and_comm]

theorem bind_kept? :
    (s.kept? first).bind (kept? second) = s.kept? fun y => first y && second y := by
  by_cases none : (s.keeping first).isEmpty = true
  case neg =>
    simp only [kept?, none, Bool.false_eq_true, if_false, Option.bind_some, keeping_keeping]
  case pos =>
    have noneOfBoth : (s.keeping fun y => first y && second y).isEmpty = true := by
      refine isEmpty_keeping.2 fun p mem => ?_
      rw [isEmpty_keeping.1 none p mem, Bool.false_and]
    simp only [kept?, none, noneOfBoth, if_true, Option.bind_none]

theorem kept?_congr (h : ∀ p ∈ s.points, first p.2 = second p.2) :
    s.kept? first = s.kept? second := by
  have same : s.keeping first = s.keeping second := by
    refine eq_of_points_eq ?_
    simp only [points_keeping]
    exact List.filter_congr h
  simp only [kept?, same]

end Series

namespace Results

variable {first second : α → Bool} {r : Results α}

theorem keeping_keeping :
    (r.keeping first).keeping second = r.keeping fun y => first y && second y := by
  simp only [keeping, LabelMap.filterMap, List.filterMap_filterMap, mk.injEq, LabelMap.mk.injEq,
    and_true]
  congr 1
  funext e
  obtain ⟨lock, s⟩ := e
  rw [← Series.bind_kept? (s := s)]
  cases s.kept? first <;> rfl

theorem keeping_congr
    (h : ∀ lock s, r.find? lock = some s → ∀ p ∈ s.points, first p.2 = second p.2) :
    r.keeping first = r.keeping second := by
  simp only [keeping, LabelMap.filterMap, mk.injEq, LabelMap.mk.injEq, and_true]
  refine List.filterMap_congr fun e mem => ?_
  rw [Series.kept?_congr (h e.1 e.2 (LabelMap.find?_eq_some_iff.2 mem))]

end Results

namespace Layout

/-! ## Thread counts of lines -/

/-- The thread counts of all points of some lines. -/
def allThreads (lines : List (Line α)) : List Nat := (allPoints lines).map Prod.fst

theorem allThreads_eq_flatten (lines : List (Line α)) :
    allThreads lines = (lines.map fun line => line.points.map Prod.fst).flatten := by
  rw [allThreads, allPoints, List.map_flatMap, List.flatMap_def]

theorem allThreads_eq_nil_iff {lines : List (Line α)} :
    allThreads lines = [] ↔ allPoints lines = [] := by
  rw [allThreads, List.map_eq_nil_iff]

variable [ChartNumber α] {options : ChartSettings} {title : String} {lines : List (Line α)}
  {layout : Layout α}

/-! ## What a layout shows -/

/-- The line of all samples of a lock. -/
def fullLine (scale : Scale) (e : String × Series α) : Line α :=
  ⟨e.1, e.2.points.map fun p => (p.1, scale.position p.2)⟩

/-- A layout shows exactly the samples of some results: one line for each lock, in the order of the
labels, and on it each sample of the lock at its thread count and its position on the scale. -/
structure Shows (scale : Scale) (r : Results α) (layout : Layout α) : Prop where
  onScale : layout.scale = scale
  lines : layout.lines = r.series.entries.map (fullLine scale)

/-- Two layouts agree in everything but the throughput axis: the scale, the positions on it, its
range and its ticks. -/
structure SameData (a b : Layout α) : Prop where
  title : a.title = b.title
  labels : a.lines.map Line.label = b.lines.map Line.label
  threads : (a.lines.map fun line => line.points.map Prod.fst) =
    b.lines.map fun line => line.points.map Prod.fst
  xRange : a.xRange = b.xRange
  xTicks : a.xTicks = b.xTicks

/-- On both scales there is no data, or on both there is a layout, with the same data: those of the
given results. -/
def SameOutcome (first second : Scale) (drawn : Results α) :
    Except Failure (Layout α) → Except Failure (Layout α) → Prop
  | .ok a, .ok b => SameData a b ∧ Shows first drawn a ∧ Shows second drawn b
  | .error cause, .error other => cause = .noData ∧ other = .noData
  | _, _ => False

/-! ## The thread axis -/

/-- The range of a thread axis, from the thread counts alone. -/
def threadRange? (threads : List Nat) : Option (Interval α) :=
  (extent? (threads.map threadPosition)).map fun x => Interval.around x.1 x.2 0.05

/-- What a layout is made of. Its thread axis comes from the thread counts of the points. -/
theorem parts_of_ofLines? (h : ofLines? options title lines = some layout) :
    layout.title = title ∧ layout.scale = options.scale ∧ layout.lines = lines ∧
      threadRange? (allThreads lines) = some layout.xRange ∧
      layout.xTicks = Ticks.ofThreads (ThreadCounts.ascending (allThreads lines))
        options.threadTicks := by
  simp only [ofLines?, Option.bind_eq_bind, Option.bind_eq_some_iff, Option.some.injEq] at h
  obtain ⟨x, hx, y, -, rfl⟩ := h
  refine ⟨rfl, rfl, rfl, ?_, rfl⟩
  have extent : extent? ((allThreads lines).map (threadPosition (α := α))) = some x := by
    rw [allThreads, List.map_map]
    exact hx
  rw [threadRange?, extent]
  rfl

/-! ## Two scales -/

/-- The lines are those of the samples that the scale admits. -/
theorem linesOf_eq_map (scale : Scale) (r : Results α) :
    linesOf scale r = (r.keeping scale.admits).series.entries.map (fullLine scale) := by
  rw [linesOf_eq_filterMap, Results.keeping, LabelMap.filterMap, List.map_filterMap]
  congr 1
  funext e
  obtain ⟨lock, s⟩ := e
  cases kept : s.kept? scale.admits with
  | none =>
    have nowhere : placed scale s = [] := by
      rw [placed_eq_nil_iff, ← Series.isEmpty_keeping]
      simpa [Series.kept?] using kept
    simp [nowhere]
  | some t =>
    obtain ⟨rfl, p, mem, admitted⟩ := Series.kept?_eq_some_iff.1 kept
    have somewhere : placed scale s ≠ [] := by
      intro nowhere
      rw [placed_eq_nil_iff.1 nowhere p mem] at admitted
      cases admitted
    simp only [somewhere, if_false, Option.map_some, lineOf, fullLine, Series.points_keeping]
    rfl

theorem labels_map_fullLine (scale : Scale) (entries : List (String × Series α)) :
    (entries.map (fullLine scale)).map Line.label = entries.map Prod.fst := by
  rw [List.map_map]
  rfl

theorem threads_map_fullLine (scale : Scale) (entries : List (String × Series α)) :
    ((entries.map (fullLine scale)).map fun line => line.points.map Prod.fst) =
      entries.map fun e => e.2.points.map Prod.fst := by
  rw [List.map_map]
  refine List.map_congr_left fun e _ => ?_
  simp only [Function.comp_apply, fullLine, List.map_map]
  rfl

theorem ofLines?_eq_none_iff_allThreads :
    ofLines? options title lines = none ↔ allThreads lines = [] := by
  rw [ofLines?_eq_none_iff, allThreads_eq_nil_iff]

/-- Results of which two scales keep the same samples come to the same data on them. -/
theorem sameOutcome_ofResults {first second : Scale} {q r : Results α} (task : q.task = r.task)
    (same : q.keeping first.admits = r.keeping second.admits) :
    SameOutcome first second (q.keeping first.admits)
      (ofResults { options with scale := first } q).value
      (ofResults { options with scale := second } r).value := by
  have title : q.title = r.title := by simp only [Results.title, task]
  have linesQ := linesOf_eq_map first q
  have linesR := linesOf_eq_map second r
  rw [← same] at linesR
  generalize q.keeping first.admits = drawn at linesQ linesR ⊢
  have threads : allThreads (linesOf first q) = allThreads (linesOf second r) := by
    simp only [allThreads_eq_flatten, linesQ, linesR, threads_map_fullLine]
  simp only [ofResults]
  cases madeQ : ofLines? { options with scale := first } q.title (linesOf first q) with
  | none =>
    have madeR : ofLines? { options with scale := second } r.title (linesOf second r) = none := by
      rw [ofLines?_eq_none_iff_allThreads, ← threads]
      exact ofLines?_eq_none_iff_allThreads.1 madeQ
    rw [madeR]
    exact ⟨rfl, rfl⟩
  | some a =>
    obtain ⟨b, madeR⟩ : ∃ b,
        ofLines? { options with scale := second } r.title (linesOf second r) = some b := by
      refine Option.ne_none_iff_exists'.1 fun none => ?_
      rw [ofLines?_eq_none_iff_allThreads, ← threads] at none
      rw [ofLines?_eq_none_iff_allThreads.2 none] at madeQ
      cases madeQ
    rw [madeR]
    obtain ⟨titleA, scaleA, linesA, rangeA, ticksA⟩ := parts_of_ofLines? madeQ
    obtain ⟨titleB, scaleB, linesB, rangeB, ticksB⟩ := parts_of_ofLines? madeR
    have showsA : Shows first drawn a := ⟨scaleA, linesA.trans linesQ⟩
    have showsB : Shows second drawn b := ⟨scaleB, linesB.trans linesR⟩
    refine ⟨⟨?title, ?labels, ?threads, ?range, ?ticks⟩, showsA, showsB⟩
    case title => rw [titleA, titleB, title]
    case labels => simp only [showsA.lines, showsB.lines, labels_map_fullLine]
    case threads => simp only [showsA.lines, showsB.lines, threads_map_fullLine]
    case range => exact Option.some.inj (by rw [← rangeA, ← rangeB, threads])
    case ticks => rw [ticksA, ticksB, threads]

/-- The linear and the symmetric scale show the same data, which are the finite samples. The
logarithmic scale shows the data that the linear one shows of the finite positive samples, and where
all samples are such, the data that the others show. -/
theorem ofResults_sameData (options : ChartSettings) (r : Results α) :
    let outcome (scale : Scale) (r : Results α) := (ofResults { options with scale } r).value
    let finite (y : α) : Bool := ChartNumber.isFinite y
    let positive (y : α) : Bool := ChartNumber.isFinite y && (0.0 : α) < y
    SameOutcome .linear .symlog (r.keeping finite) (outcome .linear r) (outcome .symlog r) ∧
    SameOutcome .log .linear (r.keeping positive)
      (outcome .log r) (outcome .linear (r.keeping positive)) ∧
    ((∀ lock s, r.find? lock = some s → ∀ p ∈ s.points, positive p.2 = true) →
      SameOutcome .log .linear (r.keeping finite) (outcome .log r) (outcome .linear r) ∧
      SameOutcome .log .symlog (r.keeping finite) (outcome .log r) (outcome .symlog r)) := by
  intro outcome finite positive
  refine ⟨sameOutcome_ofResults rfl rfl, ?restricted, ?all⟩
  case restricted =>
    refine sameOutcome_ofResults rfl ?_
    rw [Results.keeping_keeping]
    congr 1
    funext y
    cases finite : ChartNumber.isFinite y <;> simp [positive, Scale.admits, finite]
  case all =>
    intro all
    have same : r.keeping (Scale.admits .log) = r.keeping finite := by
      refine Results.keeping_congr fun lock s found p mem => ?_
      have passes : positive p.2 = true := all lock s found p mem
      have isFinite : finite p.2 = true := (Bool.and_eq_true_iff.1 passes).1
      rw [isFinite]
      exact passes
    rw [← same]
    exact ⟨sameOutcome_ofResults rfl same, sameOutcome_ofResults rfl same⟩

end Layout

end ContentionChart
