/-!
# Ranges of code points

A property of characters past ASCII is kept as the ranges of code points that have it.
-/

namespace ContentionChart.Text

/-- The code point lies in one of the ranges, both ends of which are included. -/
def inRanges (ranges : List (Nat × Nat)) (n : Nat) : Bool :=
  ranges.any fun range => range.1 ≤ n && n ≤ range.2

end ContentionChart.Text
