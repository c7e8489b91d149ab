import ContentionChart.Chart.Scale
import ContentionChart.Failure
import ContentionChart.Text.Quoted
import ContentionChart.Text.Terminal

/-!
# Events

What the program reports while it runs, how loud each report is, and which part of the program it
comes from.

## Main definitions

* `Event` — the reports.
* `Event.text`, `Event.level`, `Event.source` — their words, their level and their origin.
* `Event.line` — the line of the log.
* `Logged` — a value and the events on the way to it.
-/

namespace ContentionChart

/-- Why a record of the csv was passed over. -/
inductive SkipReason where
  | undecodable (fault : Csv.Fault)
  | malformed (fields : List String)
  deriving DecidableEq

/-- Something worth reporting. -/
inductive Event where
  | readingFrom (csv : Path)
  | opened (csv : Path)
  | skippedRecord (number : Nat) (reason : SkipReason)
  | skippedRows (count : Nat)
  | summary (locks samples : Nat) (scale : Scale)
  | masked (lock : String) (count : Nat) (scale : Scale)
  | creatingDirectory (directory : Path)
  | drawing (lines : Nat) (output : Path) (width height : Nat)
  | openingViewer (image : Path) (program : String)
  | showing (image : Path)
  deriving DecidableEq

/-- How loud a report is, from the loudest on. -/
inductive Level where
  | error
  | warn
  | info
  | debug
  | trace
  deriving DecidableEq, Repr

/-- The part of the program that reports. -/
inductive Source where
  | program
  | chart
  deriving DecidableEq, Repr

namespace Event

def level : Event → Level
  | skippedRows _ | masked .. => .warn
  | readingFrom _ | summary .. | creatingDirectory _ | showing _ => .info
  | opened _ | skippedRecord .. | drawing .. | openingViewer .. => .debug

def source : Event → Source
  | masked .. | creatingDirectory _ | drawing .. | openingViewer .. => .chart
  | _ => .program

/-- What was passed over, and why. -/
def skipText (number : Nat) : SkipReason → String
  | .undecodable fault => "record " ++ toString number ++ ": " ++ fault.message
  | .malformed fields =>
    "malformed record " ++ toString number ++ ": StringRecord(" ++ Text.quotedList fields ++ ")"

def text : Event → String
  | readingFrom csv => "read data from " ++ csv.text
  | opened csv => "reading benchmark rows from " ++ csv.text
  | skippedRecord number reason => "skipping " ++ skipText number reason
  | skippedRows count => "skipped " ++ toString count ++ " malformed row(s)"
  | summary locks samples scale =>
    toString locks ++ " lock(s), " ++ toString samples ++ " sample(s), y scale " ++ scale.name
  | masked lock count scale =>
    lock ++ ": " ++ toString count ++ " sample(s) cannot be shown on a " ++ scale.name ++ " scale"
  | creatingDirectory directory => "creating output directory " ++ directory.text
  | drawing lines output width height =>
    "drawing " ++ toString lines ++ " line(s) to " ++ output.text ++ " at " ++ toString width ++
      "x" ++ toString height ++ " px"
  | openingViewer image program => "opening " ++ image.text ++ " with " ++ program
  | showing image => "showing " ++ image.text

end Event

namespace Level

/-- The place in the order from the loudest on. -/
def rank : Level → Nat
  | error => 1
  | warn => 2
  | info => 3
  | debug => 4
  | trace => 5

def name : Level → String
  | error => "ERROR"
  | warn => "WARN"
  | info => "INFO"
  | debug => "DEBUG"
  | trace => "TRACE"

end Level

def Source.name : Source → String
  | program => "lock_plot"
  | chart => "lock_plot::chart"

/-- The line of the log: how loud the report is, where it comes from and what it says. -/
def Event.line (e : Event) : String :=
  e.level.name ++ " " ++ e.source.name ++ ": " ++ Text.forTerminal e.text

/-- A value and the events on the way to it, in order. -/
structure Logged (β : Type) where
  events : List Event
  value : β
  deriving DecidableEq

end ContentionChart
