import ContentionChart.Chart.Layout
import ContentionChart.Proofs.Reading
import Mathlib.Algebra.GroupWithZero.Nat

/-!
# Masked samples

A sample without a place on the scale is masked. Every sample is either drawn or reported as masked,
and those that are masked leave no trace on the chart.

## Main statements

* `Layout.ofResults_accounts` — what is drawn and what is reported are all the samples.
* `Layout.ofResults_keeping` — the chart is that of the samples that are not masked.
-/

namespace ContentionChart

namespace Series

variable {α : Type} {test : α → Bool} {s t : Series α}

/-- The points whose throughput passes a test, in their order. -/
def keeping (test : α → Bool) (s : Series α) : Series α :=
  .ofPoints (s.points.filter fun p => test p.2)

/-- The same, unless none is left. -/
def kept? (test : α → Bool) (s : Series α) : Option (Series α) :=
  if (s.keeping test).isEmpty then none else some (s.keeping test)

@[simp] theorem points_keeping :
    (s.keeping test).points = s.points.filter fun p => test p.2 := points_ofPoints _

theorem isEmpty_keeping : (s.keeping test).isEmpty = true ↔ ∀ p ∈ s.points, test p.2 = false := by
  simp [isEmpty, keeping, ofPoints]

theorem kept?_eq_some_iff :
    s.kept? test = some t ↔ s.keeping test = t ∧ ∃ p ∈ s.points, test p.2 = true := by
  unfold kept?
  split
  case isTrue none =>
    have none := isEmpty_keeping.1 none
    grind
  case isFalse some =>
    rw [isEmpty_keeping] at some
    grind

end Series

/-- The samples that pass a test. A lock without any is left out. -/
def Results.keeping {α : Type} (test : α → Bool) (r : Results α) : Results α where
  series := r.series.filterMap (Series.kept? test)
  task := r.task

/-- How many samples an event reports as masked. -/
def Event.maskedSamples : Event → Nat
  | .masked _ count _ => count
  | _ => 0

namespace Layout

variable {α : Type} [ChartNumber α] {options : ChartSettings} {scale : Scale}

/-- How many points of a series have no place on the scale. -/
def maskedCount (scale : Scale) (s : Series α) : Nat := s.points.countP fun p => !scale.admits p.2

/-! ## Drawn points -/

theorem placed_eq_nil_iff {s : Series α} :
    placed scale s = [] ↔ ∀ p ∈ s.points, scale.admits p.2 = false := by
  simp [placed]

/-- A series falls into the points that are placed and those that are masked. -/
theorem length_placed_add_maskedCount (scale : Scale) (s : Series α) :
    (placed scale s).length + maskedCount scale s = s.size := by
  have split := List.length_eq_countP_add_countP (l := s.points) fun p => scale.admits p.2
  simp only [placed, maskedCount, List.length_map, ← List.countP_eq_length_filter]
  simpa using split.symm

theorem mem_linesOf_iff {r : Results α} {line : Line α} :
    line ∈ linesOf scale r ↔ ∃ s, r.find? line.label = some s ∧ line.points = placed scale s ∧
      placed scale s ≠ [] := by
  simp only [linesOf, List.mem_filter, List.mem_map, Results.find?, LabelMap.find?_eq_some_iff]
  constructor
  · rintro ⟨⟨⟨label, s⟩, mem, rfl⟩, drawn⟩
    exact ⟨s, mem, rfl, by simpa [lineOf] using drawn⟩
  · rintro ⟨s, mem, points, drawn⟩
    exact ⟨⟨⟨line.label, s⟩, mem, by simp only [lineOf, ← points]⟩, by simpa [points] using drawn⟩

theorem ascending_linesOf (scale : Scale) (r : Results α) :
    (linesOf scale r).Pairwise fun a b => a.label < b.label := by
  have all : (r.series.entries.map (lineOf scale)).Pairwise fun a b => a.label < b.label :=
    List.pairwise_map.2 r.series.ascending
  exact all.filter _

theorem linesOf_eq_nil {r : Results α}
    (h : ∀ lock s, r.find? lock = some s → ∀ p ∈ s.points, scale.admits p.2 = false) :
    linesOf scale r = [] := by
  refine List.eq_nil_iff_forall_not_mem.2 ?_
  intro line mem
  obtain ⟨s, found, -, drawn⟩ := mem_linesOf_iff.1 mem
  exact drawn (placed_eq_nil_iff.2 (h _ s found))

/-- No line is without a point, so that there are no points only if there are no lines. -/
theorem allPoints_linesOf_eq_nil_iff {r : Results α} :
    allPoints (linesOf scale r) = [] ↔
      ∀ lock s, r.find? lock = some s → ∀ p ∈ s.points, scale.admits p.2 = false := by
  constructor
  · intro none lock s found
    rw [← placed_eq_nil_iff]
    refine Classical.byContradiction fun drawn => drawn ?_
    have mem : ⟨lock, placed scale s⟩ ∈ linesOf scale r := mem_linesOf_iff.2 ⟨s, found, rfl, drawn⟩
    exact List.flatMap_eq_nil_iff.1 none _ mem
  · intro h
    rw [linesOf_eq_nil h]
    rfl

/-! ## Reported points -/

theorem maskedEvent?_eq (scale : Scale) (e : String × Series α) :
    maskedEvent? scale e =
      if 0 < maskedCount scale e.2 then some (.masked e.1 (maskedCount scale e.2) scale)
      else none := by
  have rest : e.2.size - (placed scale e.2).length = maskedCount scale e.2 := by
    have split := length_placed_add_maskedCount scale e.2
    omega
  simp only [maskedEvent?, rest]

/-- One event for each lock with masked points, in the order of the labels. -/
theorem maskedEvents_eq (scale : Scale) (r : Results α) :
    maskedEvents scale r =
      (r.series.entries.filter fun e => 0 < maskedCount scale e.2).map fun e =>
        .masked e.1 (maskedCount scale e.2) scale := by
  have step := funext (maskedEvent?_eq (α := α) scale)
  rw [maskedEvents, step, ← List.filterMap_eq_map, List.filterMap_filter]
  simp only [decide_eq_true_eq, Function.comp_apply]

theorem sum_length_lines (scale : Scale) (entries : List (String × Series α)) :
    (((entries.map (lineOf scale)).filter fun line => !line.points.isEmpty).map
        fun line => line.points.length).sum =
      (entries.map fun e => (placed scale e.2).length).sum := by
  induction entries with
  | nil => rfl
  | cons e entries ih =>
    cases drawn : placed scale e.2 <;> simpa [lineOf, drawn] using ih

theorem sum_masked (scale : Scale) (entries : List (String × Series α)) :
    ((entries.filterMap (maskedEvent? scale)).map Event.maskedSamples).sum =
      (entries.map fun e => maskedCount scale e.2).sum := by
  induction entries with
  | nil => rfl
  | cons e entries ih =>
    rw [List.filterMap_cons, maskedEvent?_eq]
    by_cases masked : 0 < maskedCount scale e.2
    · simp [masked, Event.maskedSamples, ih]
    · simp [Nat.eq_zero_of_not_pos masked, ih]

/-- Drawn and masked points together are all points. -/
theorem sum_drawn_add_sum_masked (scale : Scale) (r : Results α) :
    ((linesOf scale r).map fun line => line.points.length).sum +
      ((maskedEvents scale r).map Event.maskedSamples).sum = r.totalSamples := by
  rw [linesOf, maskedEvents, sum_length_lines, sum_masked, Results.totalSamples, LabelMap.values]
  induction r.series.entries with
  | nil => rfl
  | cons e entries ih =>
    have here := length_placed_add_maskedCount scale e.2
    simp only [List.map_cons, List.sum_cons, List.foldr_cons] at ih ⊢
    omega

/-! ## Layouts -/

theorem value_ofResults_eq_noData_iff {r : Results α} :
    (ofResults options r).value = .error .noData ↔
      ∀ lock s, r.find? lock = some s → ∀ p ∈ s.points, options.scale.admits p.2 = false := by
  rw [← allPoints_linesOf_eq_nil_iff, ← ofLines?_eq_none_iff, ofResults]
  cases ofLines? options r.title (linesOf options.scale r) <;> simp

theorem exists_of_value_ofResults_ne {r : Results α}
    (h : (ofResults options r).value ≠ .error .noData) :
    ∃ layout, (ofResults options r).value = .ok layout ∧
      layout.lines = linesOf options.scale r := by
  unfold ofResults at h ⊢
  cases made : ofLines? options r.title (linesOf options.scale r) with
  | none => simp [made] at h
  | some layout => exact ⟨layout, rfl, lines_of_ofLines? made⟩

/-- The points of a line stand in the order of their series, so that those of a sorted series have
ascending thread counts. -/
theorem ascending_placed (scale : Scale) {s : Series α}
    (h : s.points.Pairwise fun a b => a.1 ≤ b.1) :
    (placed scale s).Pairwise fun a b => a.1 ≤ b.1 :=
  List.pairwise_map.2 (h.filter _)

/-- Every sample is drawn on the line of its lock or is counted in the one report on its lock. There
is no data exactly if no sample has a place on the scale. -/
theorem ofResults_accounts (options : ChartSettings) (r : Results Float) :
    let scale := options.scale
    let outcome := ofResults options r
    (outcome.value = .error .noData ↔
      ∀ lock s, r.find? lock = some s → ∀ p ∈ s.points, scale.admits p.2 = false) ∧
    (outcome.value ≠ .error .noData → ∃ layout, outcome.value = .ok layout ∧
      layout.lines.Pairwise (fun a b => a.label < b.label) ∧
      (∀ line, line ∈ layout.lines ↔ ∃ s, r.find? line.label = some s ∧
        (∃ p ∈ s.points, scale.admits p.2 = true) ∧
        line.points =
          (s.points.filter fun p => scale.admits p.2).map fun p => (p.1, scale.position p.2)) ∧
      (∀ table, (Results.ofTable table).value = .ok r →
        ∀ line ∈ layout.lines, line.points.Pairwise fun a b => a.1 ≤ b.1) ∧
      (layout.lines.map fun line => line.points.length).sum +
        (outcome.events.map Event.maskedSamples).sum = r.totalSamples) ∧
    (outcome.value = .error .noData →
      (outcome.events.map Event.maskedSamples).sum = r.totalSamples) ∧
    outcome.events = (r.series.entries.filter fun e => 0 < maskedCount scale e.2).map fun e =>
      .masked e.1 (maskedCount scale e.2) scale := by
  intro scale outcome
  have total := sum_drawn_add_sum_masked scale r
  refine ⟨value_ofResults_eq_noData_iff, ?drawn, ?noData, maskedEvents_eq scale r⟩
  case drawn =>
    intro drawn
    obtain ⟨layout, value, lines⟩ := exists_of_value_ofResults_ne drawn
    refine ⟨layout, value, ?order, ?lines, ?ascending, ?total⟩
    case order =>
      rw [lines]
      exact ascending_linesOf scale r
    case lines =>
      intro line
      rw [lines, mem_linesOf_iff]
      refine exists_congr fun s => and_congr_right fun _ => ?_
      rw [and_comm, Ne, placed_eq_nil_iff]
      simp [placed, scale]
    case ascending =>
      intro table read line mem
      obtain ⟨samples, rfl⟩ := Results.exists_of_value_ofTable_eq_ok read
      obtain ⟨s, found, points, -⟩ := mem_linesOf_iff.1 (lines ▸ mem)
      rw [Results.find?_sorted] at found
      obtain ⟨unsorted, -, rfl⟩ := Option.map_eq_some_iff.1 found
      rw [points]
      exact ascending_placed scale (stableOrder_byThreads unsorted).ascending
    case total =>
      rw [lines]
      exact total
  case noData =>
    intro noData
    rw [linesOf_eq_nil (value_ofResults_eq_noData_iff.1 noData)] at total
    simpa [outcome, ofResults] using total

/-! ## Without the masked samples -/

theorem placed_keeping (scale : Scale) (s : Series α) :
    placed scale (s.keeping scale.admits) = placed scale s := by
  simp [placed, List.filter_filter]

theorem maskedCount_keeping (scale : Scale) (s : Series α) :
    maskedCount scale (s.keeping scale.admits) = 0 := by
  simp [maskedCount]

/-- The lines, found lock by lock. -/
theorem linesOf_eq_filterMap (scale : Scale) (r : Results α) :
    linesOf scale r = r.series.entries.filterMap fun e =>
      if placed scale e.2 = [] then none else some (lineOf scale e) := by
  rw [linesOf, ← List.filterMap_eq_filter, List.filterMap_map]
  congr 1
  funext e
  cases drawn : placed scale e.2 <;> simp [lineOf, drawn]

/-- A lock keeps its line if it has a point on it, and had none otherwise. -/
theorem linesOf_keeping (scale : Scale) (r : Results α) :
    linesOf scale (r.keeping scale.admits) = linesOf scale r := by
  rw [linesOf_eq_filterMap, linesOf_eq_filterMap, Results.keeping, LabelMap.filterMap,
    List.filterMap_filterMap]
  congr 1
  funext ⟨lock, s⟩
  cases kept : s.kept? scale.admits with
  | none =>
    have drawn : placed scale s = [] := by
      refine placed_eq_nil_iff.2 ?_
      intro p mem
      refine Bool.eq_false_iff.2 ?_
      intro admitted
      have some := Series.kept?_eq_some_iff.2 ⟨rfl, p, mem, admitted⟩
      rw [kept] at some
      cases some
    simp [drawn]
  | some t =>
    obtain ⟨rfl, -⟩ := Series.kept?_eq_some_iff.1 kept
    simp [lineOf, placed_keeping]

theorem maskedEvents_keeping (scale : Scale) (r : Results α) :
    maskedEvents scale (r.keeping scale.admits) = [] := by
  refine List.filterMap_eq_nil_iff.2 ?_
  intro e mem
  obtain ⟨⟨lock, s⟩, -, entry⟩ := List.mem_filterMap.1 mem
  obtain ⟨t, kept, rfl⟩ := Option.map_eq_some_iff.1 entry
  obtain ⟨rfl, -⟩ := Series.kept?_eq_some_iff.1 kept
  rw [maskedEvent?_eq, maskedCount_keeping, if_neg (Nat.lt_irrefl 0)]

/-- Without its masked samples a chart is the same, and there is nothing to report. -/
theorem ofResults_keeping (options : ChartSettings) (r : Results α) :
    (ofResults options (r.keeping options.scale.admits)).value = (ofResults options r).value ∧
      (ofResults options (r.keeping options.scale.admits)).events = [] := by
  have title : (r.keeping options.scale.admits).title = r.title := rfl
  refine ⟨?_, maskedEvents_keeping options.scale r⟩
  simp only [ofResults, title, linesOf_keeping]

end Layout

end ContentionChart
