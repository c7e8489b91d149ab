import ContentionChart.Chart.Label
import ContentionChart.Chart.Layout

/-!
# Drawings

A drawing is a layout in pixels: every point, tick and label where it goes on an image of a given
size, and the colour of each line. It knows nothing of the format of the image.

## Main definitions

* `Layout.xPixel`, `Layout.yPixel` — the pixels of a thread count and of a position.
* `Drawing.drawLine` — a line, its row of the legend and its markers, over what is drawn.
* `Drawing.ofLayout` — the drawing of a layout.
-/

namespace ContentionChart

namespace Layout

/-- The first and the last pixel of the thread axis. A margin and the labels of the other axis are
to the left, a margin to the right. -/
def xLimits (width : Nat) : Int × Int := (130, width - 21)

/-- The first and the last pixel of the throughput axis, from the bottom up. The labels of the other
axis are below it and the title is above, each with a margin. -/
def yLimits (height : Nat) : Int × Int := (height - 81, 55)

variable {α : Type} [ChartNumber α]

def xPixel (layout : Layout α) (width : Nat) (threads : Nat) : Int :=
  layout.xRange.toPixel (xLimits width) (threadPosition threads)

def yPixel (layout : Layout α) (height : Nat) (position : α) : Int :=
  layout.yRange.toPixel (yLimits height) position

/-- The pixel of a point, from the left and from the top. -/
def pixel (layout : Layout α) (width height : Nat) (point : Nat × α) : Int × Int :=
  (layout.xPixel width point.1, layout.yPixel height point.2)

end Layout

/-- A labelled place on an axis. -/
structure TickMark where
  pixel : Int
  label : String
  deriving DecidableEq

/-- A line through pixels, in one of the colours of the palette. -/
structure Polyline where
  color : Nat
  vertices : List (Int × Int)
  deriving DecidableEq

/-- A filled circle around a pixel. -/
structure Marker where
  center : Int × Int
  radius : Nat
  color : Nat
  deriving DecidableEq

structure LegendEntry where
  label : String
  color : Nat
  deriving DecidableEq

/-- A shape over the grid of a chart. -/
inductive Shape where
  | polyline (line : Polyline)
  | marker (marker : Marker)
  deriving DecidableEq

namespace Shape

def polyline? : Shape → Option Polyline
  | polyline line => some line
  | marker _ => none

def marker? : Shape → Option Marker
  | polyline _ => none
  | marker m => some m

@[simp] theorem polyline?_polyline (line : Polyline) : (polyline line).polyline? = some line := rfl

@[simp] theorem polyline?_marker (m : Marker) : (marker m).polyline? = none := rfl

@[simp] theorem marker?_polyline (line : Polyline) : (polyline line).marker? = none := rfl

@[simp] theorem marker?_marker (m : Marker) : (marker m).marker? = some m := rfl

end Shape

/-- What is to be seen on an image of a chart. -/
structure Drawing where
  width : Nat
  height : Nat
  title : String
  xCaption : String
  yCaption : String
  xTicks : List TickMark
  yTicks : List TickMark
  /-- Where vertical lines run across the chart. -/
  xGrid : List Int
  /-- Where horizontal lines run across the chart. -/
  yGrid : List Int
  /-- Each shape covers what it shares with those before it. -/
  shapes : List Shape
  legend : List LegendEntry
  deriving DecidableEq

namespace Drawing

/-- The number of colours. Lines past it begin again with the first. -/
def paletteSize : Nat := 21

def colorOf (index : Nat) : Nat := index % paletteSize

def markerRadius : Nat := 5

def polylines (d : Drawing) : List Polyline := d.shapes.filterMap Shape.polyline?

def markers (d : Drawing) : List Marker := d.shapes.filterMap Shape.marker?

/-- Draws shapes over those that are there. -/
def draw (d : Drawing) (shapes : List Shape) : Drawing := { d with shapes := d.shapes ++ shapes }

/-- Adds a row to the legend. -/
def explain (d : Drawing) (entry : LegendEntry) : Drawing :=
  { d with legend := d.legend ++ [entry] }

/-- Draws a line through its points, adds it to the legend, and draws a marker at each point. -/
def drawLine (layout : Layout Float) (d : Drawing) : Line Float × Nat → Drawing
  | (line, index) =>
    let color := colorOf index
    let pixel := layout.pixel d.width d.height
    ((d.draw [.polyline ⟨color, line.points.map pixel⟩]).explain ⟨line.label, color⟩).draw
      (line.points.map fun point => .marker ⟨pixel point, markerRadius, color⟩)

def xTick (layout : Layout Float) (width : Nat) (threads : Nat) : TickMark :=
  ⟨layout.xPixel width threads, Notation.fixed 0 (Layout.threadPosition threads)⟩

def yTick (layout : Layout Float) (height : Nat) (position : Float) : TickMark :=
  ⟨layout.yPixel height position, layout.scale.tickLabel position⟩

/-- A chart without lines. -/
def frame (layout : Layout Float) (width height : Nat) : Drawing where
  width
  height
  title := layout.title
  xCaption := "Threads"
  yCaption := "Ops/s"
  xTicks := layout.xTicks.map (xTick layout width)
  yTicks := layout.yTicks.map (yTick layout height)
  xGrid := layout.xTicks.map (layout.xPixel width)
  yGrid := layout.yTicks.map (layout.yPixel height)
  shapes := []
  legend := []

/-- The drawing of a layout on an image of the given width and height. -/
def ofLayout (layout : Layout Float) (width height : Nat) : Drawing :=
  layout.lines.zipIdx.foldl (drawLine layout) (frame layout width height)

end Drawing

end ContentionChart
