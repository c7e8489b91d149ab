import ContentionChart.Decimal.Basic

/-!
# Numerals

The grammar of numbers in texts, and the double that a numeral denotes. A numeral is an optional
sign followed by `inf`, `infinity` or `nan` in any case, or by digits with at most one point among
them and an optional exponent. There is at least one digit, and nothing else may stand before,
between or after.

## Main definitions

* `Numeral.ofChars?` — the numeral that a text spells.
* `Numeral.toFloat` — the double nearest to its value.
* `parseFloat?` — both together.
-/

namespace ContentionChart

/-- What a numeral spells: a decimal of any size, an infinity, or no number. -/
inductive Numeral where
  | decimal (negative : Bool) (value : Decimal)
  | infinite (negative : Bool)
  | undefined
  deriving DecidableEq, Repr

namespace Numeral

/-- The value of a list of decimal digits. -/
def digitsValue (ds : List Char) : Nat :=
  ds.foldl (fun n d => 10 * n + (d.toNat - '0'.toNat)) 0

/-- A leading sign, if there is one, and the rest. -/
def splitSign : List Char → Bool × List Char
  | '+' :: cs => (false, cs)
  | '-' :: cs => (true, cs)
  | cs => (false, cs)

/-- The digits after a point, if the text goes on with one, and the rest. -/
def splitFraction : List Char → List Char × List Char
  | '.' :: cs => cs.span Char.isDigit
  | cs => ([], cs)

/-- The exponent that makes up the whole text; no text is an exponent of zero. -/
def exponent? : List Char → Option Int
  | [] => some 0
  | c :: cs =>
    let (negative, ds) := splitSign cs
    if (c = 'e' ∨ c = 'E') ∧ ds ≠ [] ∧ ds.all Char.isDigit then
      some (if negative then -(digitsValue ds : Int) else digitsValue ds)
    else none

/-- A numeral in digits, without its sign. -/
def digits? (cs : List Char) : Option Decimal :=
  let (whole, rest) := cs.span Char.isDigit
  let (fraction, rest) := splitFraction rest
  if whole = [] ∧ fraction = [] then none
  else
    (exponent? rest).map fun e => ⟨digitsValue (whole ++ fraction), e - fraction.length⟩

/-- The numeral that a text spells. -/
def ofChars? (cs : List Char) : Option Numeral :=
  let (negative, body) := splitSign cs
  let word := String.ofList (body.map Char.toLower)
  if word = "inf" ∨ word = "infinity" then some (.infinite negative)
  else if word = "nan" then some .undefined
  else (digits? body).map (.decimal negative)

/-- The double nearest to a decimal. One whose first digit stands for `10 ^ 400` or more is larger
than any finite double, and one that lies below `10 ^ (-400)` is nearer to zero than to any other;
neither is computed. -/
def decimalToFloat (negative : Bool) (d : Decimal) : Float :=
  if d.coefficient = 0 then Binary64.zero negative
  else if 400 ≤ d.leadingExponent then Binary64.infinity negative
  else if d.leadingExponent < -400 then Binary64.zero negative
  else Binary64.ofRat (if negative then -d.toRat else d.toRat)

def toFloat : Numeral → Float
  | .decimal negative value => decimalToFloat negative value
  | .infinite negative => Binary64.infinity negative
  | .undefined => Binary64.undefined

end Numeral

/-- The double that a text denotes, if the text is a numeral. -/
def parseFloat? (s : String) : Option Float := (Numeral.ofChars? s.toList).map Numeral.toFloat

end ContentionChart
