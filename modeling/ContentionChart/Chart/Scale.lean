import ContentionChart.ChartNumber

/-!
# Scales of the throughput axis

An axis is always drawn linearly. A scale says where a throughput goes on it, and which throughput a
position on it stands for.

## Main definitions

* `Scale.admits` — the throughput has a place on the scale.
* `Scale.position`, `Scale.throughput` — from throughputs to positions and back.
-/

namespace ContentionChart

/-- How throughputs are placed: as they are, by their decimal logarithm, or by the logarithm of
their distance from zero on each side of it. -/
inductive Scale where
  | linear
  | log
  | symlog
  deriving DecidableEq, Repr

namespace Scale

def name : Scale → String
  | linear => "linear"
  | log => "log"
  | symlog => "symlog"

def names : List String := [linear.name, log.name, symlog.name]

def ofName? (s : String) : Option Scale := [linear, log, symlog].find? fun scale => scale.name = s

def unknownMessage (s : String) : String :=
  "unknown y scale '" ++ s ++ "', expected one of " ++ "|".intercalate names

variable {α : Type} [ChartNumber α]

open ChartNumber

/-- Half the width of the part around zero where the symmetric scale is nearly linear. -/
def linearThreshold : α := 1.0

/-- Whether a throughput has a place: any finite one has, on the logarithmic scale only if it is
positive. -/
def admits (scale : Scale) (y : α) : Bool :=
  match scale with
  | linear | symlog => isFinite y
  | log => isFinite y && 0.0 < y

/-- The position of a throughput. -/
def position (scale : Scale) (y : α) : α :=
  match scale with
  | linear => y
  | log => log10 y
  | symlog => signum y * log10 (1.0 + abs y / linearThreshold)

/-- The throughput at a position. -/
def throughput (scale : Scale) (v : α) : α :=
  match scale with
  | linear => v
  | log => exp10 v
  | symlog => signum v * linearThreshold * (exp10 (abs v) - 1.0)

end Scale

end ContentionChart
