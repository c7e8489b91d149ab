import ContentionChart.Chart.Svg
import ContentionChart.Proofs.LayoutRanges

/-!
# Drawn lines

The lines of a layout are drawn one after the other. Each is a polyline, a row of the legend and a
marker at every point, and the three know nothing of each other. What a line adds to a drawing is
therefore said once, and a chart of any number of lines follows by induction: its polylines, its
legend and its markers stay in step, past the end of the palette too.

## Main definitions

* `Polyline.marked` — a polyline and a marker at each vertex.
* `Drawing.Shows` — the drawing has some lines on its frame.
* `Drawing.IsChartOf` — what is to be seen on the drawing of a layout.

## Main statements

* `Drawing.Shows.drawLine`, `Drawing.shows_foldl` — one line more, and all lines.
* `Drawing.isChartOf_ofLayout` — the drawing of a layout is a chart of it.
-/

namespace ContentionChart

/-- A polyline with a marker of its colour at each vertex over it. -/
def Polyline.marked (line : Polyline) : List Shape :=
  .polyline line ::
    line.vertices.map fun vertex => .marker ⟨vertex, Drawing.markerRadius, line.color⟩

theorem Polyline.filterMap_polyline?_marked (line : Polyline) :
    line.marked.filterMap Shape.polyline? = [line] := by
  simp [marked, Function.comp_def]

theorem Polyline.filterMap_marker?_marked (line : Polyline) :
    line.marked.filterMap Shape.marker? =
      line.vertices.map fun vertex => ⟨vertex, Drawing.markerRadius, line.color⟩ := by
  rw [marked, List.filterMap_cons_none (Shape.marker?_polyline line)]
  simp [Function.comp_def]

namespace Drawing

variable {layout : Layout Float} {width height : ℕ} {lines : List (Line Float)} {d : Drawing}

/-! ## Line by line -/

/-- The polyline of the line at an index. -/
def polylineOf (layout : Layout Float) (width height : ℕ) (index : ℕ) (line : Line Float) :
    Polyline :=
  ⟨colorOf index, line.points.map (layout.pixel width height)⟩

/-- The row of the legend for the line at an index. -/
def legendEntryOf (index : ℕ) (line : Line Float) : LegendEntry := ⟨line.label, colorOf index⟩

theorem shapes_drawLine (layout : Layout Float) (d : Drawing) (line : Line Float) (index : ℕ) :
    (drawLine layout d (line, index)).shapes =
      d.shapes ++ (polylineOf layout d.width d.height index line).marked := by
  simp [drawLine, draw, explain, polylineOf, Polyline.marked, Function.comp_def]

/-- The drawing has the frame of a layout and some lines on it. -/
structure Shows (layout : Layout Float) (width height : ℕ) (lines : List (Line Float))
    (d : Drawing) : Prop where
  framed : { d with shapes := [], legend := [] } = frame layout width height
  shapes : d.shapes =
    (lines.mapIdx (polylineOf layout width height)).flatMap Polyline.marked
  legend : d.legend = lines.mapIdx legendEntryOf

theorem shows_frame (layout : Layout Float) (width height : ℕ) :
    Shows layout width height [] (frame layout width height) :=
  ⟨rfl, rfl, rfl⟩

namespace Shows

theorem width_eq (h : Shows layout width height lines d) : d.width = width :=
  congrArg Drawing.width h.framed

theorem height_eq (h : Shows layout width height lines d) : d.height = height :=
  congrArg Drawing.height h.framed

/-- A line is drawn in the colour of its index, which is the number of the lines before it. -/
theorem drawLine (h : Shows layout width height lines d) (line : Line Float) :
    Shows layout width height (lines ++ [line])
      (Drawing.drawLine layout d (line, lines.length)) where
  framed := h.framed
  shapes := by
    rw [shapes_drawLine, h.shapes, h.width_eq, h.height_eq, List.mapIdx_concat,
      List.flatMap_append, List.flatMap_singleton]
  legend := by
    rw [List.mapIdx_concat, ← h.legend]
    rfl

theorem polylines (h : Shows layout width height lines d) :
    d.polylines = lines.mapIdx (polylineOf layout width height) := by
  simp only [Drawing.polylines, h.shapes, List.filterMap_flatMap,
    Polyline.filterMap_polyline?_marked, List.flatMap_singleton']

theorem markers (h : Shows layout width height lines d) :
    d.markers = d.polylines.flatMap fun line =>
      line.vertices.map fun vertex => ⟨vertex, markerRadius, line.color⟩ := by
  simp only [Drawing.markers, h.shapes, List.filterMap_flatMap,
    Polyline.filterMap_marker?_marked, h.polylines]

end Shows

theorem shows_foldl (layout : Layout Float) (width height : ℕ) (lines : List (Line Float)) :
    Shows layout width height lines
      (lines.zipIdx.foldl (drawLine layout) (frame layout width height)) := by
  induction lines using List.reverseRecOn with
  | nil => exact shows_frame layout width height
  | append_singleton lines line drawn =>
    rw [List.zipIdx_append, List.foldl_append]
    simpa using drawn.drawLine line

theorem shows_ofLayout (layout : Layout Float) (width height : ℕ) :
    Shows layout width height layout.lines (ofLayout layout width height) :=
  shows_foldl layout width height layout.lines

end Drawing

/-! ## Colours -/

namespace Svg

theorem length_palette : palette.length = Drawing.paletteSize := rfl

theorem nodup_palette : palette.Nodup := by decide

/-- No colour of the palette is there twice, so that lines have one colour only if the palette
begins again between them. -/
theorem paletteColor_colorOf_eq_iff {i j : ℕ} :
    paletteColor (Drawing.colorOf i) = paletteColor (Drawing.colorOf j) ↔ i ≡ j [MOD 21] := by
  have inside (index : ℕ) : Drawing.colorOf index < palette.length := by
    rw [length_palette]
    exact Nat.mod_lt index (by decide)
  rw [paletteColor, paletteColor, List.getElem?_eq_getElem (inside i),
    List.getElem?_eq_getElem (inside j), Option.getD_some, Option.getD_some,
    nodup_palette.getElem_inj_iff]
  rfl

end Svg

/-! ## Charts -/

namespace Drawing

variable {layout : Layout Float} {width height : ℕ} {d : Drawing}

/-- What is to be seen on the drawing of a layout. The colour of a polyline and its row of the
legend is that of the index of its line, its vertices are where the two axes have the points of the
line, and each vertex has a marker in the same colour. -/
structure IsChartOf (layout : Layout Float) (width height : ℕ) (d : Drawing) : Prop where
  polylines : d.polylines = layout.lines.mapIdx fun i line =>
    ⟨i % 21, line.points.map fun p =>
      (layout.xRange.toPixel (130, width - 21) (Layout.threadPosition p.1),
        layout.yRange.toPixel (height - 81, 55) p.2)⟩
  legend : d.legend = layout.lines.mapIdx fun i line => ⟨line.label, i % 21⟩
  /-- The markers of a line are over it, and the next line is over them. -/
  shapes : d.shapes = d.polylines.flatMap Polyline.marked
  centers : d.markers.map Marker.center = d.polylines.flatMap Polyline.vertices
  length_markers : d.markers.length = (layout.lines.map fun line => line.points.length).sum
  sameColor : ∀ i j : Fin d.polylines.length,
    Svg.paletteColor d.polylines[i].color = Svg.paletteColor d.polylines[j].color ↔
      i ≡ j [MOD 21]
  /-- The legend of results is in the order of the labels. -/
  ascending : ∀ (options : ChartSettings) (r : Results Float),
    (Layout.ofResults options r).value = .ok layout →
      (d.legend.map LegendEntry.label).Pairwise (· < ·)
  xGrid : d.xGrid = layout.xTicks.map fun threads =>
    layout.xRange.toPixel (130, width - 21) (Layout.threadPosition threads)
  yGrid : d.yGrid = layout.yTicks.map (layout.yRange.toPixel (height - 81, 55))

namespace Shows

variable {lines : List (Line Float)}

theorem labels (h : Shows layout width height lines d) :
    d.legend.map LegendEntry.label = lines.map Line.label := by
  apply List.ext_getElem?
  intro i
  simp [h.legend, legendEntryOf, Function.comp_def]

theorem centers (h : Shows layout width height lines d) :
    d.markers.map Marker.center = d.polylines.flatMap Polyline.vertices := by
  simp [h.markers, List.map_flatMap, Function.comp_def]

theorem length_markers (h : Shows layout width height lines d) :
    d.markers.length = (lines.map fun line => line.points.length).sum := by
  have sizes : d.polylines.map (fun line => line.vertices.length) =
      lines.map fun line => line.points.length := by
    apply List.ext_getElem?
    intro i
    simp [h.polylines, polylineOf, Function.comp_def]
  calc d.markers.length = (d.markers.map Marker.center).length := List.length_map _ |>.symm
    _ = (d.polylines.map fun line => line.vertices.length).sum := by
      rw [h.centers, List.length_flatMap]
    _ = (lines.map fun line => line.points.length).sum := by rw [sizes]

theorem color_getElem (h : Shows layout width height lines d) (i : Fin d.polylines.length) :
    d.polylines[i].color = colorOf i := by
  simp [h.polylines, polylineOf]

end Shows

/-- The chart of a layout has all that the layout says, whatever is on it. -/
theorem isChartOf_ofLayout (layout : Layout Float) (width height : ℕ) :
    IsChartOf layout width height (ofLayout layout width height) := by
  have shown := shows_ofLayout layout width height
  have framed := shown.framed
  constructor
  case polylines => exact shown.polylines
  case legend => exact shown.legend
  case shapes => rw [shown.polylines, shown.shapes]
  case centers => exact shown.centers
  case length_markers => exact shown.length_markers
  case sameColor =>
    intro i j
    rw [shown.color_getElem, shown.color_getElem]
    exact Svg.paletteColor_colorOf_eq_iff
  case ascending =>
    intro options r made
    rw [shown.labels, (Layout.exists_extents made).1, List.pairwise_map]
    exact Layout.ascending_linesOf options.scale r
  case xGrid => exact congrArg Drawing.xGrid framed
  case yGrid => exact congrArg Drawing.yGrid framed

/-- Two locks that have measured the same, given against their order. -/
theorem isChartOf_ofLayout_coincident :
    let r : Results Float := .ofSamples [⟨"B", 1, 2.0, none⟩, ⟨"A", 1, 2.0, none⟩]
    ∃ layout : Layout Float, (Layout.ofResults .standard r).value = .ok layout ∧
      IsChartOf layout 1200 750 (ofLayout layout 1200 750) ∧
      ((ofLayout layout 1200 750).legend.map LegendEntry.label).Pairwise (· < ·) := by
  intro r
  have drawn : Layout.IsDrawn ChartSettings.standard.scale r (1, 2.0) :=
    Layout.isDrawn_ofSamples_iff.2 ⟨_, List.mem_cons_self, by decide +kernel, rfl⟩
  obtain ⟨layout, made⟩ := Layout.exists_layout_of_isDrawn drawn
  have chart := isChartOf_ofLayout layout 1200 750
  exact ⟨layout, made, chart, chart.ascending _ r made⟩

end Drawing

end ContentionChart
