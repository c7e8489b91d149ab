import ContentionChart.ChartNumber
import ContentionChart.Decimal.Notation
import ContentionChart.Decimal.Numeral
import ContentionChart.Text.Blank

/-!
# Sizes of figures

The size of a figure is given in inches, as its width and its height with an `x` between them. No
side may be longer than a hundred inches.

## Main definitions

* `FigureSize` — width and height in inches.
* `FigureSize.parse?`, `FigureSize.text` — reading and writing a size.
* `FigureSize.pixels` — the size of the image.
-/

namespace ContentionChart

/-- The width and the height of a figure in inches. -/
structure FigureSize (α : Type) where
  width : α
  height : α
  deriving DecidableEq, Repr

namespace FigureSize

open ChartNumber

/-- Pixels of an image for each inch of its figure. -/
def pixelsPerInch : Nat := 150

/-- The pixels of a length, to the nearest, as a 32-bit number. -/
def pixelsOf {α : Type} [ChartNumber α] (inches : α) : Nat :=
  (toIntWithin 0 0xffffffff (round (inches * ofInt pixelsPerInch))).toNat

/-- The width and the height of the image. -/
def pixels {α : Type} [ChartNumber α] (size : FigureSize α) : Nat × Nat :=
  (pixelsOf size.width, pixelsOf size.height)

def standard : FigureSize Float := ⟨8.0, 5.0⟩

/-- A side may be any positive length up to a hundred inches. -/
def isSide (length : Float) : Bool := Binary64.isFinite length && 0.0 < length && length ≤ 100.0

/-- The length that a text denotes, blanks around it aside. -/
def side? (cs : List Char) : Option Float :=
  ((Numeral.ofChars? (Text.trimList Text.isBlank cs)).map Numeral.toFloat).filter isSide

def isSeparator (c : Char) : Bool := c = 'x' ∨ c = 'X'

/-- Read a size. The first separator parts the width from the height. -/
def parse? (s : String) : Option (FigureSize Float) :=
  match s.toList.span fun c => !isSeparator c with
  | (width, _ :: height) => do some ⟨← side? width, ← side? height⟩
  | _ => none

def invalidMessage (s : String) : String :=
  "invalid figure size '" ++ s ++ "', expected WIDTHxHEIGHT in inches"

def text (size : FigureSize Float) : String :=
  Notation.plain size.width ++ "x" ++ Notation.plain size.height

end FigureSize

end ContentionChart
