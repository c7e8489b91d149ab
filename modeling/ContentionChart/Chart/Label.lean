import ContentionChart.Chart.Scale
import ContentionChart.Decimal.Notation

/-!
# Labels of throughputs

A throughput is written compactly: with two places below a hundred, as a whole number below a
hundred thousand, and with an exponent and one place where it is larger or nearly zero.

## Main definitions

* `Label.ofThroughput` — the text of a throughput.
* `Scale.tickLabel` — the text at a position of an axis.
-/

namespace ContentionChart

namespace Label

/-- The text of a magnitude. -/
def ofMagnitude (q : Rat) : List Char :=
  if 100000 ≤ q ∨ q < 1 / 100 then Notation.magnitudeScientific 1 q
  else if 100 ≤ q then Notation.magnitudeFixed 0 q
  else Notation.magnitudeFixed 2 q

/-- The text of a throughput. Zero has no sign. -/
def ofThroughput (y : Float) : String :=
  if Binary64.toRat? y = some 0 then "0" else Notation.write ofMagnitude y

end Label

/-- The text at a position of an axis with the scale. -/
def Scale.tickLabel (scale : Scale) (v : Float) : String := Label.ofThroughput (scale.throughput v)

end ContentionChart
