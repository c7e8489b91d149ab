/-!
# Counts

Whole numbers from text: decimal digits, with a plus in front or without, for a number below
`2 ^ 64`.

## Main definitions

* `parseCount` — the count that a text denotes, or what is wrong with the text.
-/

namespace ContentionChart

/-- Why a text is no count. -/
inductive CountFault where
  | empty
  | invalidDigit
  | tooLarge
  deriving DecidableEq

def CountFault.message : CountFault → String
  | empty => "cannot parse integer from empty string"
  | invalidDigit => "invalid digit found in string"
  | tooLarge => "number too large to fit in target type"

/-- Counts are below this bound. -/
def countBound : Nat := 0x10000000000000000

/-- The count that a digit makes of the count before it. -/
def countDigit (n : Nat) (c : Char) : Except CountFault Nat :=
  if !c.isDigit then .error .invalidDigit
  else
    let next := 10 * n + (c.toNat - '0'.toNat)
    if next < countBound then .ok next else .error .tooLarge

/-- A count in decimal digits, with a plus in front or without. -/
def parseCount (s : String) : Except CountFault Nat :=
  match s.toList with
  | [] => .error .empty
  | ['+'] => .error .invalidDigit
  | '+' :: digits => digits.foldlM countDigit 0
  | digits => digits.foldlM countDigit 0

end ContentionChart
