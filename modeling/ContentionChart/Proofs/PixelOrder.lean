import ContentionChart.Proofs.LayoutRanges
import ContentionChart.Proofs.RoundedScales

/-!
# The order of pixels

A chart preserves the order of its samples: more threads are never drawn further to the left, and a
higher throughput never further down. This holds for exact numbers and for any rounding that keeps
the order of numbers.

## Main definitions

* `Layout.InOrder` — the pixels on an image are in the order of the samples.

## Main statements

* `Rounded.toPixel_le` — one position before another on an axis.
* `Rounded.toPixel_ends` — the ends of an axis, and all between them.
* `Layout.pixels_in_order` — the samples on a chart.
-/

namespace ContentionChart

open ChartNumber

variable {α : Type} [ChartNumber α] {round : ℝ → ℝ} {value : α → ℝ}

/-- A position lies in an interval. -/
def Within (value : α → ℝ) (interval : Interval α) (position : α) : Prop :=
  value interval.start ≤ value position ∧ value position ≤ value interval.stop

namespace Rounded

variable {interval : Interval α} {limit : ℤ × ℤ} {position other : α}

/-- On an axis that runs forward the pixels keep the order of positions, and on one that runs
backward they turn it round. -/
theorem toPixel_le (h : Rounded α round value) (stretch : IsStretch limit)
    (inside : Within value interval position) (inside' : Within value interval other)
    (le : value position ≤ value other) :
    (limit.1 ≤ limit.2 → interval.toPixel limit position ≤ interval.toPixel limit other) ∧
      (limit.2 ≤ limit.1 → interval.toPixel limit other ≤ interval.toPixel limit position) := by
  rw [h.toPixel_eq stretch inside.1 inside.2, h.toPixel_eq stretch inside'.1 inside'.2]
  have shares := h.shareBefore_le (inside.1.trans inside.2) le
  constructor
  · intro forward
    have length : (0 : ℝ) ≤ (limit.2 - limit.1 : ℤ) := by
      rw [Int.cast_nonneg_iff]
      omega
    have before := h.pixelsBefore_le (mul_le_mul_of_nonneg_left shares length)
    omega
  · intro backward
    have length : ((limit.2 - limit.1 : ℤ) : ℝ) ≤ 0 := by
      rw [Int.cast_nonpos]
      omega
    have before := h.pixelsBefore_le (mul_le_mul_of_nonpos_left shares length)
    omega

/-- An interval begins at the first pixel and ends at the last, and everything in it is drawn from
the one to the other. -/
theorem toPixel_ends (h : Rounded α round value) (stretch : IsStretch limit)
    (ordered : value interval.start ≤ value interval.stop) :
    (∀ position, Within value interval position →
      min limit.1 limit.2 ≤ interval.toPixel limit position ∧
        interval.toPixel limit position ≤ max limit.1 limit.2) ∧
    interval.toPixel limit interval.start = limit.1 ∧
    (0 < value (interval.stop - interval.start) →
      interval.toPixel limit interval.stop = limit.2) := by
  have bound : |limit.2 - limit.1| ≤ 2 ^ 32 := by
    have length := abs_lt.1 stretch.length
    rw [abs_le]
    omega
  refine ⟨?_, ?_, ?_⟩
  · intro position inside
    rw [h.toPixel_eq stretch inside.1 inside.2]
    have pixels := h.pixelsBefore_mem bound (h.shareBefore_nonneg ordered inside.1)
      (h.shareBefore_le_one ordered inside.2)
    omega
  · rw [h.toPixel_eq stretch le_rfl ordered, h.shareBefore_start, h.pixelsBefore_zero, add_zero]
  · intro positive
    rw [h.sub] at positive
    rw [h.toPixel_eq stretch ordered le_rfl, h.shareBefore_stop positive,
      h.pixelsBefore_one bound]
    omega

/-- Without rounding there is always room around two values. -/
theorem around_length_pos (h : Rounded α round value) (exact : ∀ x, round x = x)
    {least greatest fraction : α} (ordered : value least ≤ value greatest)
    (widens : 0 ≤ value fraction) :
    0 < value ((Interval.around least greatest fraction).stop -
      (Interval.around least greatest fraction).start) := by
  rw [h.sub, exact]
  have spacing : 0 ≤ max |value greatest| 1 / (2 : ℝ) ^ 52 := by positivity
  rcases h.around_exact exact least greatest fraction with ⟨-, start, stop⟩ | ⟨gt, start, stop⟩
  · rw [start, stop]
    linarith
  · have room := mul_nonneg (spacing.trans gt.le) widens
    rw [start, stop]
    linarith

end Rounded

namespace Layout

variable {options : ChartSettings} {r : Results α} {layout : Layout α}

/-- The pixel of a sample on an image. -/
def samplePixel (layout : Layout α) (scale : Scale) (width height : ℕ) (p : ℕ × α) : ℤ × ℤ :=
  layout.pixel width height (p.1, scale.position p.2)

/-- On an image of a layout the pixels of any two samples are in the order of their thread counts
from left to right, and in that of their throughputs from the bottom up. All that is in the range of
an axis is drawn on it, from the pixel of its start to that of its end, unless there is no length
between the two. -/
structure InOrder (value : α → ℝ) (scale : Scale) (r : Results α) (layout : Layout α)
    (width height : ℕ) : Prop where
  across : ∀ p q, IsDrawn scale r p → IsDrawn scale r q → p.1 ≤ q.1 →
    (layout.samplePixel scale width height p).1 ≤ (layout.samplePixel scale width height q).1
  upward : ∀ p q, IsDrawn scale r p → IsDrawn scale r q → value p.2 ≤ value q.2 →
    (layout.samplePixel scale width height q).2 ≤ (layout.samplePixel scale width height p).2
  xInside : ∀ x, Within value layout.xRange x →
    130 ≤ layout.xRange.toPixel (xLimits width) x ∧
      layout.xRange.toPixel (xLimits width) x ≤ width - 21
  yInside : ∀ y, Within value layout.yRange y →
    55 ≤ layout.yPixel height y ∧ layout.yPixel height y ≤ height - 81
  xStart : layout.xRange.toPixel (xLimits width) layout.xRange.start = 130
  yStart : layout.yPixel height layout.yRange.start = height - 81
  xStop : 0 < value (layout.xRange.stop - layout.xRange.start) →
    layout.xRange.toPixel (xLimits width) layout.xRange.stop = width - 21
  yStop : 0 < value (layout.yRange.stop - layout.yRange.start) →
    layout.yPixel height layout.yRange.stop = 55

/-- A chart preserves the order of its samples, whichever locks they belong to. It makes no
difference how numbers are rounded, as long as the rounding and the scale keep their order. Without
rounding no range is without length. -/
theorem pixels_in_order (h : Rounded α round value)
    (rising : ∀ y z, options.scale.admits y = true → options.scale.admits z = true →
      value y ≤ value z → value (options.scale.position y) ≤ value (options.scale.position z))
    (made : (ofResults options r).value = .ok layout) {width height : ℕ}
    (across : IsStretch (xLimits width)) (up : IsStretch (yLimits height))
    (wide : (130 : ℤ) < width - 21) (high : (55 : ℤ) < height - 81) :
    InOrder value options.scale r layout width height ∧
      ((∀ x, round x = x) → 0 < value (layout.xRange.stop - layout.xRange.start) ∧
        0 < value (layout.yRange.stop - layout.yRange.start)) := by
  obtain ⟨⟨xOrdered, yOrdered⟩, inside⟩ := inside_ranges h made
  have xLimit : (xLimits width).1 ≤ (xLimits width).2 := wide.le
  have yLimit : (yLimits height).2 ≤ (yLimits height).1 := high.le
  obtain ⟨xAll, xFirst, xLast⟩ := h.toPixel_ends across xOrdered
  obtain ⟨yAll, yFirst, yLast⟩ := h.toPixel_ends up yOrdered
  rw [min_eq_left xLimit, max_eq_right xLimit] at xAll
  rw [min_eq_right yLimit, max_eq_left yLimit] at yAll
  refine ⟨⟨?across, ?upward, xAll, yAll, xFirst, yFirst, xLast, yLast⟩, ?exact⟩
  case across =>
    intro p q drawn drawn' le
    have threads : value (threadPosition p.1 : α) ≤ value (threadPosition q.1 : α) := by
      rw [threadPosition, threadPosition, h.ofInt, h.ofInt]
      exact h.monotone (by exact_mod_cast le)
    apply (h.toPixel_le across ?_ ?_ threads).1 xLimit
    · exact (inside _ ((mem_allPoints_iff made).2 ⟨p, drawn, rfl⟩)).1
    · exact (inside _ ((mem_allPoints_iff made).2 ⟨q, drawn', rfl⟩)).1
  case upward =>
    intro p q drawn drawn' le
    obtain ⟨_, _, -, -, admitted⟩ := id drawn
    obtain ⟨_, _, -, -, admitted'⟩ := id drawn'
    apply (h.toPixel_le up ?_ ?_ (rising _ _ admitted admitted' le)).2 yLimit
    · exact (inside _ ((mem_allPoints_iff made).2 ⟨p, drawn, rfl⟩)).2
    · exact (inside _ ((mem_allPoints_iff made).2 ⟨q, drawn', rfl⟩)).2
  case exact =>
    intro exact
    obtain ⟨_, right, _, highest, -, inRight, -, inHighest, xRange, yRange, all⟩ :=
      exists_outermost h made
    rw [xRange, yRange]
    exact ⟨h.around_length_pos exact (all right inRight).1.1 (h.literal_nonneg 5 true 2),
      h.around_length_pos exact (all highest inHighest).2.1 (h.literal_nonneg 1 true 1)⟩

/-- A negative throughput, one that is zero and one of another lock, on the symmetric scale and an
image of the standard size. -/
theorem pixels_in_order_symlog :
    let options : ChartSettings := { ChartSettings.standard with scale := .symlog }
    let r : Results Exact :=
      .ofSamples [⟨"B", 4, Exact.mk (-5), none⟩, ⟨"A", 1, Exact.mk 0, none⟩,
        ⟨"B", 2, Exact.mk 300, none⟩]
    (∀ y z : Exact, options.scale.admits y = true → options.scale.admits z = true →
      y.value ≤ z.value → (options.scale.position y).value ≤ (options.scale.position z).value) ∧
    IsStretch (xLimits 1200) ∧ IsStretch (yLimits 750) ∧ (130 : ℤ) < (1200 : ℕ) - 21 ∧
    (55 : ℤ) < (750 : ℕ) - 81 ∧
    ∃ layout : Layout Exact, (ofResults options r).value = .ok layout ∧
      InOrder Exact.value options.scale r layout 1200 750 ∧
      0 < (layout.xRange.stop - layout.xRange.start).value ∧
      0 < (layout.yRange.stop - layout.yRange.start).value := by
  intro options r
  have drawn : IsDrawn options.scale r (1, Exact.mk 0) :=
    isDrawn_ofSamples_iff.2 ⟨⟨"A", 1, Exact.mk 0, none⟩, by simp, rfl, rfl⟩
  obtain ⟨layout, made⟩ := exists_layout_of_isDrawn drawn
  have rising (y z : Exact) (hy : options.scale.admits y = true)
      (_ : options.scale.admits z = true) (le : y.value ≤ z.value) :=
    Exact.position_le_position hy le
  have across : IsStretch (xLimits 1200) := ⟨by decide, by decide, by decide⟩
  have up : IsStretch (yLimits 750) := ⟨by decide, by decide, by decide⟩
  obtain ⟨inOrder, lengths⟩ := pixels_in_order Exact.rounded rising made across up (by decide)
    (by decide)
  exact ⟨rising, across, up, by decide, by decide, layout, made, inOrder, lengths fun _ => rfl⟩

end Layout

end ContentionChart
