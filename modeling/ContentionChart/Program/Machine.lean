import ContentionChart.Chart.Layout
import ContentionChart.Csv.Table
import ContentionChart.Files.Tree

/-!
# The machine that a program runs on

What the program needs from outside: files, a place for images that are only shown, a viewer for
them, and somewhere to write. A host is a machine that is a plain value, so that what a run does can
be computed and reasoned about.

## Main definitions

* `Machine` — the operations.
* `Host`, `Session` — a machine as a value, and runs on it.
-/

namespace ContentionChart

open Utf8 (Bytes)

/-- The operations of a machine. One that can fail gives the fault. -/
class Machine (m : Type → Type) where
  report : Event → m Unit
  /-- Print a line of output. -/
  say : String → m Unit
  /-- Print a line of diagnostics. -/
  complain : String → m Unit
  /-- Open a file and read it to its end, or to where the reading breaks off. -/
  readFile : Path → m (Except FileFault Csv.Source)
  pathExists : Path → m Bool
  makeDirectories : Path → m (Option FileFault)
  writeFile : Path → Bytes → m (Option FileFault)
  /-- Make a new image file, under a name that was not in use. -/
  newImage : m (Except FileFault Path)
  /-- The samples of an image of the given width and height that shows a layout. -/
  rasterise : Layout Float → Nat → Nat → m (Except String Bytes)
  /-- What goes wrong while the shapes of a graphic of the given width and height are drawn, if
  anything does, and the graphic as far as it was drawn. -/
  graphicFault : Layout Float → Nat → Nat → m (Option (String × Bytes))
  openViewer : Path → m (Option FileFault)

/-- A machine as a value: its files, and all that was reported and printed. -/
structure Host where
  files : FileTree
  workingDirectory : Location
  imageDirectory : Location
  rasteriser : Layout Float → Nat → Nat → Except String Bytes
  viewerFault : Option FileFault
  events : List Event
  output : List String
  diagnostics : List String
  /-- After how many bytes the reading of a file breaks off, and why, if it does. -/
  breakOff : Location → Option (Nat × String) := fun _ => none
  /-- What goes wrong while a graphic is drawn, and what there is of it by then. -/
  brokenGraphic : Layout Float → Nat → Nat → Option (String × Bytes) := fun _ _ _ => none

namespace Host

/-- What reading a path gives. A directory can be opened, but not read. -/
def read (w : Host) (p : Path) : Except FileFault Csv.Source :=
  match w.files.resolve w.workingDirectory p with
  | .error fault => .error fault
  | .ok (place, .file content) =>
    match w.breakOff place with
    | none => .ok ⟨content, none⟩
    | some (count, cause) => .ok ⟨content.take count, some cause⟩
  | .ok (_, .directory) => .ok ⟨[], some FileFault.isADirectory.message⟩

/-- A name for the image with a number. -/
def imageName (n : Nat) : Bytes :=
  let digits := Decimal.digits n
  Utf8.encode <| "lock_plot-" ++ String.ofList (List.replicate (6 - digits.length) '0' ++ digits) ++
    ".png"

/-- The first place for an image that is not taken. Among one number more than there are nodes, one
is always free. -/
def freeImagePlace? (w : Host) : Option Location :=
  ((List.range (w.files.nodes.length + 1)).map fun n => w.imageDirectory ++ [imageName n]).find?
    fun place => w.files.node? place = none

/-- The path from the root to a place. -/
def pathTo (place : Location) : Path := ⟨place.flatMap fun name => Path.slash :: name⟩

def makeImage (w : Host) : Except FileFault (Path × Host) :=
  match w.files.node? w.imageDirectory with
  | none => .error .notFound
  | some (.file _) => .error .notADirectory
  | some .directory =>
    match w.freeImagePlace? with
    | none => .error .alreadyThere
    | some place => .ok (pathTo place, { w with files := w.files.put place (.file []) })

end Host

/-- Runs on a machine that is a value. -/
abbrev Session := StateM Host

instance : Machine Session where
  report e := modify fun w => { w with events := w.events ++ [e] }
  say line := modify fun w => { w with output := w.output ++ [line] }
  complain line := modify fun w => { w with diagnostics := w.diagnostics ++ [line] }
  readFile p := return (← get).read p
  pathExists p := return (← get).files.pathExists (← get).workingDirectory p
  makeDirectories p := modifyGet fun w =>
    let (files, fault) := w.files.makeDirectories w.workingDirectory p
    (fault, { w with files })
  writeFile p content := modifyGet fun w =>
    match w.files.write w.workingDirectory p content with
    | .ok files => (none, { w with files })
    | .error fault => (some fault, w)
  newImage := modifyGet fun w =>
    match w.makeImage with
    | .ok (path, w) => (.ok path, w)
    | .error fault => (.error fault, w)
  rasterise layout width height := return (← get).rasteriser layout width height
  graphicFault layout width height := return (← get).brokenGraphic layout width height
  openViewer _ := return (← get).viewerFault

end ContentionChart
