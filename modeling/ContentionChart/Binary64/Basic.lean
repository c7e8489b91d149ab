/-!
# Double-precision values

A `Float` is read as what it stands for: a signed multiple of a power of two, an infinity, or no
number at all. Going back, a rational is rounded to the nearest double, ties to even. Whatever is
decided about a number elsewhere (its digits, its floor, its logarithm) is decided on these exact
values.

## Main definitions

* `read` — what a double stands for.
* `toRat?` — the exact value of a finite double.
* `ofRat` — the double nearest to a rational.
* `floor`, `ceil`, `round` — whole doubles next to a double.
* `toIntWithin` — the integer part, held inside an interval.
-/

namespace ContentionChart.Binary64

/-- What a double stands for. A finite one is `mantissa * 2 ^ exponent` with a sign, which zero
has too. -/
inductive Reading where
  | finite (negative : Bool) (mantissa : Nat) (exponent : Int)
  | infinite (negative : Bool)
  | undefined
  deriving DecidableEq, Repr

/-- The number of fractions, which take the lowest 52 bits of a double. -/
def fractionCount : Nat := 0x10000000000000

/-- The highest bit of a double, which is its sign. -/
def signBit : Nat := 0x8000000000000000

/-- The magnitude bits of the infinities, whose exponent field is all ones. -/
def infinityBits : Nat := 0x7ff0000000000000

/-- The sign is bit 63, the exponent field is bits 52 to 62 and the fraction the bits below. -/
def read (x : Float) : Reading :=
  let bits : Nat := x.toBits.toNat
  let negative := bits / signBit == 1
  let field : Nat := bits / fractionCount % 2048
  let fraction : Nat := bits % fractionCount
  if field = 2047 then
    if fraction = 0 then .infinite negative else .undefined
  else if field = 0 then .finite negative fraction (-1074)
  else .finite negative (fractionCount + fraction) ((field : Int) - 1075)

/-- The magnitude `mantissa * 2 ^ exponent`. -/
def magnitude (mantissa : Nat) (exponent : Int) : Rat := mantissa * (2 : Rat) ^ exponent

/-- The signed value `± mantissa * 2 ^ exponent`. -/
def value (negative : Bool) (mantissa : Nat) (exponent : Int) : Rat :=
  if negative then -magnitude mantissa exponent else magnitude mantissa exponent

/-- The exact value of a finite double. -/
def toRat? (x : Float) : Option Rat :=
  match read x with
  | .finite negative mantissa exponent => some (value negative mantissa exponent)
  | _ => none

def isFinite (x : Float) : Bool :=
  match read x with
  | .finite .. => true
  | _ => false

/-- The sign bit, of zeros and infinities too; no number has none. -/
def isNegative (x : Float) : Bool :=
  match read x with
  | .finite negative _ _ => negative
  | .infinite negative => negative
  | .undefined => false

def undefined : Float := Float.ofBits 0x7ff8000000000000

/-- The double with the given sign and magnitude bits. -/
def ofMagnitudeBits (negative : Bool) (bits : Nat) : Float :=
  Float.ofBits (UInt64.ofNat (if negative then signBit + bits else bits))

def infinity (negative : Bool) : Float := ofMagnitudeBits negative infinityBits

def zero (negative : Bool) : Float := ofMagnitudeBits negative 0

/-! ## Rounding a rational -/

/-- The nearest integer, and the even one of two that are equally near. -/
def roundHalfEven (q : Rat) : Int :=
  let below := q.floor
  let rest := q - below
  if rest < 1 / 2 then below
  else if 1 / 2 < rest then below + 1
  else if below % 2 = 0 then below
  else below + 1

/-- The greatest `e` with `2 ^ e ≤ q`, for a positive `q`. -/
def binaryExponent (q : Rat) : Int :=
  let e : Int := (q.num.natAbs.log2 : Int) - (q.den.log2 : Int)
  if (2 : Rat) ^ e ≤ q then e else e - 1

/-- The magnitude bits of the double nearest to a positive rational. The significand has 53 bits,
fewer where the exponent is at its least; one that rounds up to 54 bits carries into the exponent
field by itself, and a field past the last finite one is infinity. -/
def magnitudeBits (q : Rat) : Nat :=
  let e := max (binaryExponent q - 52) (-1074)
  let significand := (roundHalfEven (q / (2 : Rat) ^ e)).toNat
  min ((e + 1074).toNat * fractionCount + significand) infinityBits

/-- The double nearest to a rational, ties to even; what is too small for any other is a zero of
its sign. -/
def ofRat (q : Rat) : Float :=
  if q = 0 then zero false
  else if q < 0 then ofMagnitudeBits true (magnitudeBits (-q))
  else ofMagnitudeBits false (magnitudeBits q)

def ofInt (n : Int) : Float := ofRat n

/-! ## Whole doubles -/

/-- The double for the integer that `rule` makes of a value. A result of zero keeps the sign of
the argument, and what is not finite stays as it is. -/
def toWhole (rule : Rat → Int) (x : Float) : Float :=
  match read x with
  | .finite negative mantissa exponent =>
    let n := rule (value negative mantissa exponent)
    if n = 0 then zero negative else ofInt n
  | _ => x

def floor (x : Float) : Float := toWhole Rat.floor x

def ceil (x : Float) : Float := toWhole Rat.ceil x

/-- The nearest integer, and of two that are equally near the one farther from zero. -/
def roundHalfAway (q : Rat) : Int :=
  if q < 0 then -((-q + 1 / 2).floor) else (q + 1 / 2).floor

def round (x : Float) : Float := toWhole roundHalfAway x

/-- The integer part of a rational, toward zero. -/
def truncate (q : Rat) : Int :=
  if q < 0 then -((-q).floor) else q.floor

/-- The integer part, held inside the interval from `lo` to `hi`; no number counts as zero. -/
def toIntWithin (lo hi : Int) (x : Float) : Int :=
  match read x with
  | .finite negative mantissa exponent =>
    max lo (min hi (truncate (value negative mantissa exponent)))
  | .infinite negative => if negative then lo else hi
  | .undefined => 0

/-- One with the sign of the argument, zeros included. -/
def signum (x : Float) : Float :=
  match read x with
  | .undefined => x
  | _ => if isNegative x then -1.0 else 1.0

end ContentionChart.Binary64
