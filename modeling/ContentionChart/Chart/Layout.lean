import ContentionChart.Chart.Axis
import ContentionChart.Chart.FigureSize
import ContentionChart.Chart.Ticks
import ContentionChart.Event
import ContentionChart.Results.Basic

/-!
# Layout of a chart

What stands on a chart and where, before anything is drawn: one line per lock that has a point on
it, the ranges of both axes around the points, and the ticks in them. Measurements that have no
place on the scale are masked. They are reported, and nothing on the chart depends on them.

## Main definitions

* `Layout` — title, ranges, ticks and lines.
* `Layout.ofResults` — the layout of some results.
-/

namespace ContentionChart

/-- What can be chosen about a chart. -/
structure ChartSettings where
  scale : Scale
  /-- How many thread counts are ticked at most, one more aside; zero hides the ticks. -/
  threadTicks : Nat
  figure : FigureSize Float
  deriving DecidableEq

def ChartSettings.standard : ChartSettings := ⟨.log, 12, .standard⟩

/-- The drawn points of one lock: thread counts, and throughputs as positions on the scale. -/
structure Line (α : Type) where
  label : String
  points : List (Nat × α)
  deriving DecidableEq, Repr

/-- Everything that stands on a chart. -/
structure Layout (α : Type) where
  title : String
  scale : Scale
  xRange : Interval α
  yRange : Interval α
  xTicks : List Nat
  yTicks : List α
  lines : List (Line α)
  deriving DecidableEq

namespace Layout

variable {α : Type} [ChartNumber α]

open ChartNumber

/-- The points of a series that have a place on the scale. -/
def placed (scale : Scale) (s : Series α) : List (Nat × α) :=
  (s.points.filter fun p => scale.admits p.2).map fun p => (p.1, scale.position p.2)

/-- The line of a lock, without regard to whether it has a point. -/
def lineOf (scale : Scale) (e : String × Series α) : Line α := ⟨e.1, placed scale e.2⟩

/-- The lines of the locks that have a point on the chart. -/
def linesOf (scale : Scale) (r : Results α) : List (Line α) :=
  (r.series.entries.map (lineOf scale)).filter fun line => !line.points.isEmpty

/-- The report on the masked points of a lock, if it has any. -/
def maskedEvent? (scale : Scale) (e : String × Series α) : Option Event :=
  let masked := e.2.size - (placed scale e.2).length
  if 0 < masked then some (.masked e.1 masked scale) else none

def maskedEvents (scale : Scale) (r : Results α) : List Event :=
  r.series.entries.filterMap (maskedEvent? scale)

/-- The points of all lines. -/
def allPoints (lines : List (Line α)) : List (Nat × α) := lines.flatMap Line.points

/-- A thread count as a position. -/
def threadPosition (threads : Nat) : α := ofInt threads

/-- The layout of some lines, if there is a point on them. -/
def ofLines? (options : ChartSettings) (title : String) (lines : List (Line α)) :
    Option (Layout α) := do
  let points := allPoints lines
  let (xLeast, xGreatest) ← extent? (points.map fun p => (threadPosition p.1 : α))
  let (yLeast, yGreatest) ← extent? (points.map Prod.snd)
  let xRange := Interval.around xLeast xGreatest 0.05
  let yRange := Interval.around yLeast yGreatest 0.1
  let threads := ThreadCounts.ascending (points.map Prod.fst)
  some {
    title
    scale := options.scale
    xRange
    yRange
    xTicks := Ticks.ofThreads threads options.threadTicks
    yTicks := options.scale.ticks yRange.start yRange.stop
    lines }

@[simp] theorem ofLines?_eq_none_iff {options : ChartSettings} {title : String}
    {lines : List (Line α)} : ofLines? options title lines = none ↔ allPoints lines = [] := by
  have xs : extent? ((allPoints lines).map fun p => (threadPosition p.1 : α)) = none ↔
      allPoints lines = [] := by simp
  have ys : extent? ((allPoints lines).map Prod.snd) = none ↔ allPoints lines = [] := by simp
  unfold ofLines?
  cases hx : extent? ((allPoints lines).map fun p => (threadPosition p.1 : α)) with
  | none =>
    simp only [hx, Option.bind_eq_bind, Option.bind_none, true_iff]
    exact xs.1 hx
  | some x =>
    have drawn : allPoints lines ≠ [] := by simp [← xs, hx]
    obtain ⟨y, hy⟩ := Option.ne_none_iff_exists'.1 (mt ys.1 drawn)
    simp [hx, hy, drawn]

/-- A layout has the lines that it was made of. -/
theorem lines_of_ofLines? {options : ChartSettings} {title : String} {lines : List (Line α)}
    {layout : Layout α} (h : ofLines? options title lines = some layout) :
    layout.lines = lines := by
  simp only [ofLines?, Option.bind_eq_bind, Option.bind_eq_some_iff, Option.some.injEq] at h
  obtain ⟨_, -, _, -, rfl⟩ := h
  rfl

/-- The layout of some results. Without any point there is no data to draw. -/
def ofResults (options : ChartSettings) (r : Results α) : Logged (Except Failure (Layout α)) :=
  { events := maskedEvents options.scale r
    value :=
      match ofLines? options r.title (linesOf options.scale r) with
      | some layout => .ok layout
      | none => .error .noData }

end Layout

end ContentionChart
