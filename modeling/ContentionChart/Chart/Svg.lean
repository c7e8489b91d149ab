import ContentionChart.Chart.Drawing

/-!
# Drawings as SVG

The text of a scalable vector graphic that shows a drawing.

## Main definitions

* `Drawing.toSvg` — the text.
-/

namespace ContentionChart

namespace Svg

/-- The colours of lines. -/
def palette : List String :=
  ["#E6194B", "#3CB44B", "#FFE119", "#0082C8", "#F58231", "#911EB4", "#46F0F0", "#F032E6",
   "#D2F53C", "#FABEBE", "#008080", "#E6BEFF", "#AA6E28", "#FFFAC8", "#800000", "#AAFFC3",
   "#808000", "#FFD7B4", "#000080", "#808080", "#000000"]

def paletteColor (color : Nat) : String := palette[color]?.getD "#000000"

/-- How a character is written in text and in attributes. -/
def escape : Char → String
  | '&' => "&amp;"
  | '<' => "&lt;"
  | '>' => "&gt;"
  | '"' => "&quot;"
  | '\'' => "&apos;"
  | c => c.toString

def escaped (s : String) : String := String.join (s.toList.map escape)

def attr (name value : String) : String := " " ++ name ++ "=\"" ++ escaped value ++ "\""

def intAttr (name : String) (value : Int) : String := attr name (toString value)

/-- An element without content. -/
def element (name : String) (attributes : List String) : String :=
  "<" ++ name ++ String.join attributes ++ "/>\n"

def rectangle (x y width height : Int) (fill stroke : String) : String :=
  element "rect" [intAttr "x" x, intAttr "y" y, intAttr "width" width,
    intAttr "height" height, attr "fill" fill, attr "stroke" stroke]

def segment (x y x' y' : Int) (color : String) (width : Nat) : String :=
  element "line" [attr "stroke" color, intAttr "stroke-width" width,
    intAttr "x1" x, intAttr "y1" y, intAttr "x2" x', intAttr "y2" y']

/-- A line of text, held at its start, its middle or its end. -/
def label (x y : Int) (anchor : String) (size : Nat) (content : String) : String :=
  "<text" ++ intAttr "x" x ++ intAttr "y" y ++ attr "text-anchor" anchor ++
    attr "font-family" "sans-serif" ++ intAttr "font-size" size ++ ">" ++
    escaped content ++ "</text>\n"

def vertexText (vertex : Int × Int) : String := toString vertex.1 ++ "," ++ toString vertex.2

def polyline (line : Polyline) : String :=
  element "polyline" [attr "fill" "none", attr "stroke" (paletteColor line.color),
    intAttr "stroke-width" 2,
    attr "points" (" ".intercalate (line.vertices.map vertexText))]

def circle (marker : Marker) : String :=
  element "circle" [intAttr "cx" marker.center.1, intAttr "cy" marker.center.2,
    intAttr "r" marker.radius, attr "fill" (paletteColor marker.color)]

def shape : Shape → String
  | .polyline line => polyline line
  | .marker marker => circle marker

/-- The name of the vocabulary that the elements belong to. -/
def vocabulary : String := "http:" ++ "//www.w3.org/2000/svg"

def gridColor : String := "#B3B3B3"

/-- The lines across the chart. -/
def grid (d : Drawing) : List String :=
  let (left, right) := Layout.xLimits d.width
  let (bottom, top) := Layout.yLimits d.height
  d.xGrid.map (fun x => segment x top x bottom gridColor 1) ++
    d.yGrid.map fun y => segment left y right y gridColor 1

/-- The two axes, their ticks and their captions. -/
def axes (d : Drawing) : List String :=
  let (left, right) := Layout.xLimits d.width
  let (bottom, top) := Layout.yLimits d.height
  [segment left bottom right bottom "#000000" 1, segment left top left bottom "#000000" 1] ++
    d.xTicks.map (fun tick => label tick.pixel (bottom + 22) "middle" 20 tick.label) ++
    d.yTicks.map (fun tick => label (left - 10) (tick.pixel + 6) "end" 20 tick.label) ++
    [label ((left + right) / 2) (d.height - 25) "middle" 20 d.xCaption,
     label 20 (top - 15) "start" 20 d.yCaption]

/-- The legend, a row per entry, at the right edge of the chart. -/
def legend (d : Drawing) : List String :=
  let (_, right) := Layout.xLimits d.width
  let (_, top) := Layout.yLimits d.height
  let x := right - 150
  rectangle (x - 10) (top + 5) 155 (24 * d.legend.length + 8) "#FFFFFF" "#000000" ::
    d.legend.zipIdx.flatMap fun (entry, row) =>
      let y : Int := top + 21 + 24 * row
      [segment x y (x + 20) y (paletteColor entry.color) 2,
       label (x + 30) (y + 6) "start" 20 entry.label]

end Svg

open Svg in
/-- The text of a graphic that shows the drawing. -/
def Drawing.toSvg (d : Drawing) : String :=
  "<svg" ++ intAttr "width" d.width ++ intAttr "height" d.height ++
    attr "xmlns" vocabulary ++ ">\n" ++
    rectangle 0 0 d.width d.height "#FFFFFF" "none" ++
    label (d.width / 2) 45 "middle" 30 d.title ++
    String.join (grid d ++ axes d ++ d.shapes.map shape ++ Svg.legend d) ++
    "</svg>\n"

end ContentionChart
