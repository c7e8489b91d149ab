import ContentionChart.CommandLine.Matching

/-!
# Arguments

What a command line asks for. The matched values are read once more, this time strictly as UTF-8,
and become the options of the chart.

## Main definitions

* `Arguments` — what is asked for.
* `Arguments.ofCommandLine` — reading a command line.
-/

namespace ContentionChart

open Utf8 (Bytes)

/-- What a command line asks for. Without an output the chart is shown. -/
structure Arguments where
  csvIn : Path
  output : Option Path
  options : ChartSettings
  verbose : Bool
  deriving DecidableEq

namespace Arguments

/-- A value read as text and then by the given reader. -/
def read? {β : Type} (parse? : String → Option β) (value : Bytes) : Option β :=
  (Utf8.decode? value).bind parse?

def readOption {β : Type} (option : ValueOption) (parse? : String → Option β) (value : Bytes) :
    Except UsageError β :=
  match read? parse? value with
  | some b => .ok b
  | none => .error (.unusableValue option (Utf8.decodeLossy value))

def count? (s : String) : Option Nat := (parseCount s).toOption

def ofMatches (m : Matches) : Except UsageError Arguments := do
  let scale ← readOption .scale Scale.ofName? m.scale
  let threadTicks ← readOption .threadTicks count? m.threadTicks
  let figure ← readOption .figure FigureSize.parse? m.figure
  return ⟨⟨m.csvIn⟩, m.output.map Path.mk, ⟨scale, threadTicks, figure⟩, m.verbose⟩

/-- Read a command line, the program's own name first. -/
def ofCommandLine (argv : List Bytes) : Except UsageError Arguments := do
  ofMatches (← matchArguments argv)

end Arguments

end ContentionChart
