import ContentionChart.Chart.Drawing
import ContentionChart.Proofs.Extents
import ContentionChart.Proofs.Inserting
import ContentionChart.Proofs.Masking
import ContentionChart.Proofs.RoundedNumbers

/-!
# Ranges of a layout

The axes of a layout cover the least and the greatest of the drawn points and have some room around
them.

## Main definitions

* `Layout.IsDrawn` — a sample that has a place on the scale.

## Main statements

* `Layout.exists_outermost` — the ranges of a layout are made around its outermost points.
* `Layout.inside_ranges` — they contain all points.
-/

namespace ContentionChart

open ChartNumber

namespace Layout

variable {α : Type} [ChartNumber α] {options : ChartSettings} {r : Results α} {layout : Layout α}

theorem ofLines?_of_made (made : (ofResults options r).value = .ok layout) :
    ofLines? options r.title (linesOf options.scale r) = some layout := by
  unfold ofResults at made
  cases found : ofLines? options r.title (linesOf options.scale r) <;> simp_all

/-- A layout shows the lines of its results, and its ranges are made around their points. -/
theorem exists_extents (made : (ofResults options r).value = .ok layout) :
    layout.lines = linesOf options.scale r ∧ ∃ x y : α × α,
      extent? ((allPoints layout.lines).map fun p => (threadPosition p.1 : α)) = some x ∧
      extent? ((allPoints layout.lines).map Prod.snd) = some y ∧
      layout.xRange = .around x.1 x.2 0.05 ∧ layout.yRange = .around y.1 y.2 0.1 := by
  have found := ofLines?_of_made made
  simp only [ofLines?, Option.bind_eq_bind, Option.bind_eq_some_iff, Option.some.injEq] at found
  obtain ⟨x, hx, y, hy, rfl⟩ := found
  exact ⟨rfl, x, y, hx, hy, rfl, rfl⟩

/-- The throughput axis of a layout is ticked on the scale that was chosen, over its range. -/
theorem yTicks_eq (made : (ofResults options r).value = .ok layout) :
    layout.scale = options.scale ∧
      layout.yTicks = options.scale.ticks layout.yRange.start layout.yRange.stop := by
  have found := ofLines?_of_made made
  simp only [ofLines?, Option.bind_eq_bind, Option.bind_eq_some_iff, Option.some.injEq] at found
  obtain ⟨x, -, y, -, rfl⟩ := found
  exact ⟨rfl, rfl⟩

/-- A sample of a lock that has a place on the scale. -/
def IsDrawn (scale : Scale) (r : Results α) (p : Nat × α) : Prop :=
  ∃ lock s, r.find? lock = some s ∧ p ∈ s.points ∧ scale.admits p.2 = true

/-- The points of a layout are those of the drawn samples. -/
theorem mem_allPoints_iff (made : (ofResults options r).value = .ok layout) {q : Nat × α} :
    q ∈ allPoints layout.lines ↔
      ∃ p, IsDrawn options.scale r p ∧ q = (p.1, options.scale.position p.2) := by
  rw [(exists_extents made).1, allPoints, List.mem_flatMap]
  constructor
  · rintro ⟨line, mem, inLine⟩
    obtain ⟨s, found, points, -⟩ := mem_linesOf_iff.1 mem
    rw [points, placed, List.mem_map] at inLine
    obtain ⟨p, inSeries, rfl⟩ := inLine
    obtain ⟨inPoints, admitted⟩ := List.mem_filter.1 inSeries
    exact ⟨p, ⟨line.label, s, found, inPoints, admitted⟩, rfl⟩
  · rintro ⟨p, ⟨lock, s, found, inPoints, admitted⟩, rfl⟩
    have inPlaced : (p.1, options.scale.position p.2) ∈ placed options.scale s :=
      List.mem_map_of_mem (List.mem_filter.2 ⟨inPoints, admitted⟩)
    exact ⟨⟨lock, placed options.scale s⟩,
      mem_linesOf_iff.2 ⟨s, found, rfl, List.ne_nil_of_mem inPlaced⟩, inPlaced⟩

theorem exists_layout_of_isDrawn {p : Nat × α} (drawn : IsDrawn options.scale r p) :
    ∃ layout, (ofResults options r).value = .ok layout := by
  obtain ⟨lock, s, found, mem, admitted⟩ := drawn
  have someData : (ofResults options r).value ≠ .error .noData := by
    intro noData
    rw [value_ofResults_eq_noData_iff.1 noData lock s found p mem] at admitted
    cases admitted
  obtain ⟨layout, made, -⟩ := exists_of_value_ofResults_ne someData
  exact ⟨layout, made⟩

/-- The drawn ones among inserted samples are those that the scale has a place for. -/
theorem isDrawn_ofSamples_iff {scale : Scale} {samples : List (Sample α)} {p : Nat × α} :
    IsDrawn scale (.ofSamples samples) p ↔
      ∃ s ∈ samples, scale.admits s.throughput = true ∧ (s.threads, s.throughput) = p := by
  constructor
  · rintro ⟨lock, series, found, mem, admitted⟩
    obtain ⟨-, rfl⟩ := Results.find?_ofSamples_eq_some_iff.1 found
    rw [Series.points_ofPoints] at mem
    obtain ⟨s, inSamples, -, rfl⟩ := Results.mem_pointsOf_iff.1 mem
    exact ⟨s, inSamples, admitted, rfl⟩
  · rintro ⟨s, inSamples, admitted, rfl⟩
    have point : (s.threads, s.throughput) ∈ Results.pointsOf s.lock samples :=
      Results.mem_pointsOf_iff.2 ⟨s, inSamples, rfl, rfl⟩
    refine ⟨s.lock, .ofPoints (Results.pointsOf s.lock samples), ?_, ?_, admitted⟩
    · exact Results.find?_ofSamples_eq_some_iff.2 ⟨List.ne_nil_of_mem point, rfl⟩
    · rwa [Series.points_ofPoints]

variable {round : ℝ → ℝ} {value : α → ℝ}

/-- The ranges of a layout are made around the positions of the outermost points. -/
theorem exists_outermost (h : Rounded α round value)
    (made : (ofResults options r).value = .ok layout) :
    ∃ left right lowest highest, left ∈ allPoints layout.lines ∧ right ∈ allPoints layout.lines ∧
      lowest ∈ allPoints layout.lines ∧ highest ∈ allPoints layout.lines ∧
      layout.xRange = .around (threadPosition left.1) (threadPosition right.1) 0.05 ∧
      layout.yRange = .around lowest.2 highest.2 0.1 ∧
      ∀ p ∈ allPoints layout.lines,
        (value (threadPosition left.1 : α) ≤ value (threadPosition p.1 : α) ∧
          value (threadPosition p.1 : α) ≤ value (threadPosition right.1 : α)) ∧
        value lowest.2 ≤ value p.2 ∧ value p.2 ≤ value highest.2 := by
  obtain ⟨-, x, y, hx, hy, xRange, yRange⟩ := exists_extents made
  obtain ⟨xLeast, xGreatest, xs⟩ := extent?_spec h.lt_iff hx
  obtain ⟨yLeast, yGreatest, ys⟩ := extent?_spec h.lt_iff hy
  obtain ⟨left, inLeft, leftmost⟩ := List.mem_map.1 xLeast
  obtain ⟨right, inRight, rightmost⟩ := List.mem_map.1 xGreatest
  obtain ⟨lowest, inLowest, least⟩ := List.mem_map.1 yLeast
  obtain ⟨highest, inHighest, greatest⟩ := List.mem_map.1 yGreatest
  refine ⟨left, right, lowest, highest, inLeft, inRight, inLowest, inHighest, ?_, ?_, ?_⟩
  · rw [xRange, leftmost, rightmost]
  · rw [yRange, least, greatest]
  · intro p mem
    rw [leftmost, rightmost, least, greatest]
    exact ⟨xs _ (List.mem_map_of_mem mem), ys _ (List.mem_map_of_mem mem)⟩

/-- Each range runs upward, and all points are in it. -/
theorem inside_ranges (h : Rounded α round value)
    (made : (ofResults options r).value = .ok layout) :
    (value layout.xRange.start ≤ value layout.xRange.stop ∧
      value layout.yRange.start ≤ value layout.yRange.stop) ∧
    ∀ p ∈ allPoints layout.lines,
      (value layout.xRange.start ≤ value (threadPosition p.1 : α) ∧
        value (threadPosition p.1 : α) ≤ value layout.xRange.stop) ∧
      value layout.yRange.start ≤ value p.2 ∧ value p.2 ≤ value layout.yRange.stop := by
  obtain ⟨_, right, _, highest, -, inRight, -, inHighest, xRange, yRange, all⟩ :=
    exists_outermost h made
  have xOrdered := (all right inRight).1.1
  have yOrdered := (all highest inHighest).2.1
  obtain ⟨xStart, xStop⟩ := h.around_spec xOrdered (h.literal_nonneg 5 true 2)
  obtain ⟨yStart, yStop⟩ := h.around_spec yOrdered (h.literal_nonneg 1 true 1)
  rw [xRange, yRange]
  refine ⟨⟨xStart.trans (xOrdered.trans xStop), yStart.trans (yOrdered.trans yStop)⟩, ?_⟩
  intro p mem
  obtain ⟨⟨xLow, xHigh⟩, yLow, yHigh⟩ := all p mem
  exact ⟨⟨xStart.trans xLow, xHigh.trans xStop⟩, yStart.trans yLow, yHigh.trans yStop⟩

end Layout

end ContentionChart
