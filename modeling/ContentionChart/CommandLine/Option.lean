import ContentionChart.Chart.Layout
import ContentionChart.Decimal.Count

/-!
# Options of the command line

The options that take a value: how they are written, what stands in for one that is left out, and
which values are good.

## Main definitions

* `ValueOption` — the options.
* `ValueOption.problem?` — what is wrong with a value.
-/

namespace ContentionChart

/-- The options that take a value. -/
inductive ValueOption where
  | csvIn
  | output
  | scale
  | threadTicks
  | figure
  deriving DecidableEq, Repr

/-- What is wrong with the value of an option: it is not among the possible ones, or it is not of
the right form. -/
inductive ValueProblem where
  | notAChoice
  | malformed (reason : String)
  deriving DecidableEq

namespace ValueOption

def all : List ValueOption := [csvIn, output, scale, threadTicks, figure]

/-- The name after two dashes. -/
def longName : ValueOption → String
  | csvIn => "csv-in"
  | output => "output"
  | scale => "yscale"
  | threadTicks => "max-x-ticks"
  | figure => "figsize"

/-- What stands for the value in a description. -/
def valueName : ValueOption → String
  | csvIn | output => "PATH"
  | scale => "yscale"
  | threadTicks => "N"
  | figure => "WxH"

def description (o : ValueOption) : String := "--" ++ o.longName ++ " <" ++ o.valueName ++ ">"

/-- The value of an option that has none. -/
def standard? : ValueOption → Option String
  | csvIn | output => none
  | scale => some "log"
  | threadTicks => some "12"
  | figure => some "8x5"

/-- What is wrong with a value, read as text. -/
def problem? (o : ValueOption) (value : String) : Option ValueProblem :=
  match o with
  | csvIn | output => none
  | scale => if value ∈ Scale.names then none else some .notAChoice
  | threadTicks =>
    match parseCount value with
    | .ok _ => none
    | .error fault => some (.malformed fault.message)
  | figure =>
    match FigureSize.parse? value with
    | some _ => none
    | none => some (.malformed (FigureSize.invalidMessage value))

end ValueOption

end ContentionChart
