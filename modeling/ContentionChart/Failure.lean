import ContentionChart.Csv.Table
import ContentionChart.Files.Path
import ContentionChart.Png.Basic

/-!
# Failures

Why no chart could be made, what is said about it and with which status the program ends.

## Main definitions

* `Failure` — the causes.
* `Failure.message` — the diagnostic.
* `Failure.exitCode` — the exit status.
-/

namespace ContentionChart

/-- Why a run ended without a chart. -/
inductive Failure where
  | csvNotFound (path : Path)
  | unreadable (path : Path) (cause : FileFault)
  | missingColumns (names : List String)
  | csv (fault : Csv.Fault)
  | noData
  | outputDirectory (path : Path) (cause : FileFault)
  | drawing (cause : String)
  | image (path : Path) (cause : Image.Fault)
  | temporaryImage (cause : FileFault)
  | viewer (program : String) (cause : FileFault)
  deriving DecidableEq

namespace Failure

def message : Failure → String
  | csvNotFound path => "CSV not found: " ++ path.text
  | unreadable path cause => "could not read " ++ path.text ++ ": " ++ cause.message
  | missingColumns names => "CSV missing required columns: " ++ ",".intercalate names
  | csv fault => "could not parse CSV: " ++ fault.message
  | noData => "No data found in CSV"
  | outputDirectory path cause =>
    "could not create output directory " ++ path.text ++ ": " ++ cause.message
  | drawing cause =>
    "chart rendering failed: " ++ cause ++ " (the plotting backend needs a sans-serif system font, e.g." ++
      " install fontconfig and fonts-dejavu)"
  | image path cause => "could not write " ++ path.text ++ ": " ++ cause.message
  | temporaryImage cause => "could not create a temporary image: " ++ cause.message
  | viewer program cause =>
    "could not launch image viewer '" ++ program ++ "': " ++ cause.message ++
      " (install it, or pass --output to save the chart)"

/-- The text of the cause alone, where the failure has one of its own. -/
def cause? : Failure → Option String
  | unreadable _ cause | outputDirectory _ cause | temporaryImage cause | viewer _ cause =>
    some cause.message
  | csv fault => some fault.message
  | image _ cause => some cause.message
  | csvNotFound _ | missingColumns _ | noData | drawing _ => none

/-- The status is two where the data are at fault and three where the chart or its output is. -/
def exitCode : Failure → Nat
  | csvNotFound _ | unreadable .. | missingColumns _ | csv _ | noData => 2
  | outputDirectory .. | drawing _ | image .. | temporaryImage _ | viewer .. => 3

end Failure

end ContentionChart
