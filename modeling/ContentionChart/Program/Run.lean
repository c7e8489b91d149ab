import ContentionChart.Chart.Svg
import ContentionChart.CommandLine.Arguments
import ContentionChart.Png.File
import ContentionChart.Program.LogFilter
import ContentionChart.Program.Machine
import ContentionChart.Results.Entry

/-!
# Runs

A run reads the results, lays out the chart and writes it, or shows it if no output was asked for.
It ends at the first failure. Nothing is written before the layout is known to have something on it,
apart from the empty image that is to be shown.

## Main definitions

* `Run.readResults` — the results in a csv file.
* `Run.writeChart` — write the chart of some results.
* `Run.execute` — a whole run, from the command line to the exit status.
* `Run.logFilter` — the events that a run shows.
-/

namespace ContentionChart.Run

open Machine Utf8

variable {m : Type → Type} [Monad m] [Machine m]

/-- Report the events on the way to a value, and go on with the value. -/
def reportAll {β : Type} (r : Logged (Except Failure β)) : ExceptT Failure m β :=
  ExceptT.mk do
    r.events.forM report
    pure r.value

/-- Fail with a cause if there was a fault. -/
def check {φ : Type} (failure : φ → Failure) (fault : Option φ) : ExceptT Failure m Unit :=
  match fault with
  | none => pure ()
  | some fault => throw (failure fault)

/-- The results in a csv file. -/
def readResults (csv : Path) : ExceptT Failure m (Results Float) := do
  match ← readFile (m := m) csv with
  | .error .notFound => throw (.csvNotFound csv)
  | .error fault => throw (.unreadable csv fault)
  | .ok source =>
    report (m := m) (.opened csv)
    reportAll (Results.ofTable (Csv.Table.ofSource source))

/-- Make the directory of an output, if it is missing. -/
def makeOutputDirectory (output : Path) : ExceptT Failure m Unit := do
  match output.parent? with
  | none => pure ()
  | some directory =>
    if directory.isEmpty then pure ()
    else if ← pathExists (m := m) directory then pure ()
    else
      report (m := m) (.creatingDirectory directory)
      check (.outputDirectory directory) (← makeDirectories (m := m) directory)

/-- Pixels per metre of a written image, to the nearest. -/
def pixelsPerMetre : Nat := 5906

/-- Write an image. The file is made first, and stays empty if the image turns out to be wrong. -/
def writeImage (output : Path) (image : Image) : ExceptT Failure m Unit := do
  let fail := fun fault => Failure.image output fault
  check (fun fault => fail (.file fault)) (← writeFile (m := m) output [])
  check fail image.fault?
  check (fun fault => fail (.file fault))
    (← writeFile (m := m) output (Png.encode pixelsPerMetre image))

/-- The words for a drawing that could not be written. -/
def drawingCause (fault : FileFault) : String :=
  "backend error: Drawing backend error: " ++ fault.message

/-- Write a graphic. One that cannot be finished is left as far as it was drawn, if there is a place
for it. -/
def writeGraphic (output : Path) (layout : Layout Float) (size : Nat × Nat) :
    ExceptT Failure m Unit := do
  match ← graphicFault (m := m) layout size.1 size.2 with
  | some (cause, remains) =>
    let _ ← writeFile (m := m) output remains
    throw (.drawing cause)
  | none =>
    let drawing := Drawing.ofLayout layout size.1 size.2
    check (fun fault => .drawing (drawingCause fault))
      (← writeFile (m := m) output (encode drawing.toSvg))

/-- Write the drawing of a layout, as a scalable graphic if the name of the file says so. -/
def writeDrawing (output : Path) (layout : Layout Float) (size : Nat × Nat) :
    ExceptT Failure m Unit := do
  if output.hasExtension "svg" then writeGraphic output layout size
  else
    match ← rasterise (m := m) layout size.1 size.2 with
    | .error cause => throw (.drawing cause)
    | .ok samples => writeImage output ⟨size.1, size.2, samples⟩

/-- Write the chart of some results. -/
def writeChart (options : ChartSettings) (output : Path) (results : Results Float) :
    ExceptT Failure m Unit := do
  let layout ← reportAll (Layout.ofResults options results)
  makeOutputDirectory output
  let size := options.figure.pixels
  report (m := m) (.drawing layout.lines.length output size.1 size.2)
  writeDrawing output layout size

/-- The program that shows images. -/
def viewer : String := "xdg-open"

def newImageFile : ExceptT Failure m Path := do
  match ← newImage (m := m) with
  | .ok image => pure image
  | .error fault => throw (.temporaryImage fault)

/-- Show the chart of some results. The image is left for the viewer to read. -/
def display (options : ChartSettings) (results : Results Float) : ExceptT Failure m Path := do
  let image ← newImageFile
  writeChart options image results
  report (m := m) (.openingViewer image viewer)
  check (.viewer viewer) (← openViewer (m := m) image)
  pure image

/-- Do what the arguments ask for. -/
def perform (arguments : Arguments) : ExceptT Failure m Unit := do
  report (m := m) (.readingFrom arguments.csvIn)
  let results ← readResults arguments.csvIn
  report (m := m) (.summary results.size results.totalSamples arguments.options.scale)
  match arguments.output with
  | some output =>
    writeChart arguments.options output results
    say (m := m) ("Saved figure to " ++ output.text)
  | none =>
    let image ← display arguments.options results
    report (m := m) (.showing image)

/-- Answer a request, or say what is wrong with a command line. -/
def refuse (fault : UsageError) : m Nat := do
  match fault.answer? with
  | some text =>
    say text
    pure 0
  | none =>
    complain fault.message
    pure 1

/-- Do what the arguments ask for and give the exit status. -/
def conclude (arguments : Arguments) : m Nat := do
  match ← (perform arguments).run with
  | .ok () => pure 0
  | .error failure =>
    complain failure.message
    pure failure.exitCode

/-- A whole run, given the words of the command line. -/
def execute (argv : List Bytes) : m Nat :=
  match Arguments.ofCommandLine argv with
  | .ok arguments => conclude arguments
  | .error fault => refuse fault

/-- The events that a run shows, given the words of its command line and the setting of its
environment. -/
def logFilter (argv : List Bytes) (environment : Option String) : LogFilter :=
  match Arguments.ofCommandLine argv with
  | .ok arguments => LogFilter.ofSettings arguments.verbose environment
  | .error _ => LogFilter.ofSettings false environment

end ContentionChart.Run
