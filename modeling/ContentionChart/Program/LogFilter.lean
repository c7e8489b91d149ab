import ContentionChart.Program.LogDirective

/-!
# Filters for events

Which events are shown. A filter is a list of directives; the most precise one that is about an
event decides.

## Main definitions

* `LogFilter.parse?` — a filter from text.
* `LogFilter.shows` — whether an event is shown.
-/

namespace ContentionChart

structure LogFilter where
  directives : List LogDirective
  deriving DecidableEq, Repr

namespace LogFilter

def atLevel (level : Level) : LogFilter := ⟨[.everything (some level)]⟩

/-- The directives between commas. Without any, errors are shown. -/
def parse? (s : String) : Option LogFilter := do
  let parts := (s.toList.splitOn ',').filter fun part => !part.isEmpty
  let directives ← parts.mapM fun part => LogDirective.parse? (String.ofList part)
  some (if directives.isEmpty then atLevel .error else ⟨directives⟩)

/-- The more precise of two directives, and the second of two that are equally precise. -/
def morePrecise (best : Option LogDirective) (d : LogDirective) : Option LogDirective :=
  match best with
  | some b => if b.precision ≤ d.precision then some d else some b
  | none => some d

/-- The directive that decides about a part of the program. -/
def directiveFor? (filter : LogFilter) (source : String) : Option LogDirective :=
  (filter.directives.filter fun d => d.concerns source).foldl morePrecise none

/-- Whether an event is shown. -/
def shows (filter : LogFilter) (e : Event) : Bool :=
  match (filter.directiveFor? e.source.name).bind LogDirective.limit with
  | some limit => e.level.rank ≤ limit.rank
  | none => false

/-- The filter of a run. A verbose one shows what helps in debugging, whatever the environment
says; a setting of the environment that cannot be read counts as none, and then warnings are
shown. -/
def ofSettings (verbose : Bool) (environment : Option String) : LogFilter :=
  if verbose then atLevel .debug else (environment.bind parse?).getD (atLevel .warn)

end LogFilter

end ContentionChart
