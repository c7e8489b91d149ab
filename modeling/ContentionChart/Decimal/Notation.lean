import ContentionChart.Decimal.Shortest

/-!
# Numbers as text

How a double is written: with the fewest digits that read back, positionally or with an exponent,
or with a given number of digits, where the last one is rounded half to even on the exact value. A
minus sign is written for negative zeros and negative infinities too.

## Main definitions

* `plain`, `scientific` — the fewest digits, without and with an exponent.
* `fixed`, `scientificPlaces` — a given number of digits after the point.
-/

namespace ContentionChart.Notation

def withSign (negative : Bool) (text : List Char) : List Char :=
  if negative then '-' :: text else text

/-- The text of a double, given how to write the magnitude of a finite one. -/
def write (finite : Rat → List Char) (x : Float) : String :=
  String.ofList <|
    match Binary64.read x with
    | .finite negative mantissa exponent =>
      withSign negative (finite (Binary64.magnitude mantissa exponent))
    | .infinite negative => withSign negative ['i', 'n', 'f']
    | .undefined => ['N', 'a', 'N']

/-- The fewest digits that read back, and never an exponent. -/
def plain : Float → String :=
  write fun q => if q = 0 then ['0'] else (Decimal.shortest q).positional

/-- The fewest digits that read back, and always an exponent. -/
def scientific : Float → String :=
  write fun q => if q = 0 then ['0', 'e', '0'] else (Decimal.shortest q).scientific

/-- A magnitude with the given number of digits after the point. -/
def magnitudeFixed (places : Nat) (q : Rat) : List Char :=
  (Decimal.toPlaces places q).positional

/-- A magnitude with an exponent and the given number of digits after the point. -/
def magnitudeScientific (places : Nat) (q : Rat) : List Char :=
  if q = 0 then Decimal.scientificForm 0 (List.replicate (places + 1) '0')
  else (Decimal.toSignificant (places + 1) q).scientific

def fixed (places : Nat) : Float → String := write (magnitudeFixed places)

def scientificPlaces (places : Nat) : Float → String := write (magnitudeScientific places)

end ContentionChart.Notation
