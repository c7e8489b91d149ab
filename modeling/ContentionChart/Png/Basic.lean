import ContentionChart.Files.Fault
import ContentionChart.Text.Utf8

/-!
# Images

An image of red, green and blue samples of eight bits each, and what can be wrong with one that is
to be written as PNG.
-/

namespace ContentionChart

open Utf8 (Bytes)

/-- Rows of pixels from top to bottom, three bytes per pixel. -/
structure Image where
  width : Nat
  height : Nat
  samples : Bytes
  deriving DecidableEq

namespace Image

/-- The number of samples that an image of this size has. -/
def expectedSamples (width height : Nat) : Nat := width * height * 3

/-- Why an image could not be written. -/
inductive Fault where
  | file (cause : FileFault)
  | zeroWidth
  | zeroHeight
  | wrongSize (expected actual : Nat)
  deriving DecidableEq

def Fault.message : Fault → String
  | .file cause => cause.message
  | .zeroWidth => "Zero width not allowed"
  | .zeroHeight => "Zero height not allowed"
  | .wrongSize expected actual =>
    "wrong data size, expected " ++ toString expected ++ " got " ++ toString actual

/-- What is wrong with an image itself, the width before the height and both before the samples. -/
def fault? (image : Image) : Option Fault :=
  let expected := expectedSamples image.width image.height
  if image.width = 0 then some .zeroWidth
  else if image.height = 0 then some .zeroHeight
  else if image.samples.length ≠ expected then some (.wrongSize expected image.samples.length)
  else none

end Image

end ContentionChart
