import ContentionChart.Binary64.Basic

/-!
# Logarithms and powers of ten

Both functions are computed on integers that stand for multiples of `2 ^ (-160)` and then rounded
once to the nearest double. The series are cut where their terms fall below that unit, which is
far finer than the spacing of doubles near the result.

## Main definitions

* `log10` — the decimal logarithm.
* `exp10` — ten to a given power; whole powers are exact before the rounding.
-/

namespace ContentionChart.Binary64

/-- One, as a fixed-point number. -/
def fixedOne : Int := (1 <<< 160 : Nat)

/-- The fixed-point number nearest below a rational. -/
def toFixed (q : Rat) : Int := (q * fixedOne).floor

def ofFixed (n : Int) : Rat := n / (fixedOne : Rat)

def mulFixed (a b : Int) : Int := a * b / fixedOne

/-- The sum of `power / i + power * square / (i + 2) + ...`, with the given number of terms. -/
def arctanhSeries (square : Int) : Nat → Int → Int → Int
  | 0, _, _ => 0
  | terms + 1, power, i =>
    power / i + arctanhSeries square terms (mulFixed power square) (i + 2)

/-- The natural logarithm of a rational between `1 / 2` and `2`, as twice the inverse hyperbolic
tangent of `(q - 1) / (q + 1)`. Its square is at most `1 / 9`, so that 60 terms are enough. -/
def logNear (q : Rat) : Int :=
  let z := toFixed ((q - 1) / (q + 1))
  2 * arctanhSeries (mulFixed z z) 60 z 1

def logTwo : Int := logNear 2

def logTen : Int := 3 * logTwo + logNear (5 / 4)

/-- The logarithm of a positive rational. The exponent is chosen so that the other factor lies
between `2 / 3` and `4 / 3`, on both sides of one. -/
def logFixed (q : Rat) : Int :=
  let e := binaryExponent q
  let e := if q / (2 : Rat) ^ e ≤ 4 / 3 then e else e + 1
  e * logTwo + logNear (q / (2 : Rat) ^ e)

/-- The sum of `term + term * x / i + ...`, with the given number of terms. -/
def expSeries (x : Int) : Nat → Int → Int → Int
  | 0, _, _ => 0
  | terms + 1, term, i => term + expSeries x terms (mulFixed term x / i) (i + 1)

/-- The natural exponential of a fixed-point number: the whole multiples of `log 2` in it become a
power of two, and 60 terms of the series do for the rest. -/
def expFixed (x : Int) : Rat :=
  let k := x / logTwo
  ofFixed (expSeries (x % logTwo) 60 fixedOne 1) * (2 : Rat) ^ k

/-- The decimal logarithm. Zero gives minus infinity and a negative number none. -/
def log10 (x : Float) : Float :=
  match read x with
  | .finite negative mantissa exponent =>
    if mantissa = 0 then infinity true
    else if negative then undefined
    else ofRat (logFixed (magnitude mantissa exponent) / (logTen : Rat))
  | .infinite negative => if negative then undefined else infinity false
  | .undefined => x

/-- Ten to the given power. No finite double but zero is as small as `10 ^ (-400)` or as large as
`10 ^ 400`. -/
def exp10 (x : Float) : Float :=
  match read x with
  | .finite negative mantissa exponent =>
    let q := value negative mantissa exponent
    if q ≤ -400 then zero false
    else if 400 ≤ q then infinity false
    else if q = q.floor then ofRat ((10 : Rat) ^ q.floor)
    else ofRat (expFixed (q * logTen).floor)
  | .infinite negative => if negative then zero false else infinity false
  | .undefined => x

end ContentionChart.Binary64
