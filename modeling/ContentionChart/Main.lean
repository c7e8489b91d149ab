import ContentionChart.Program.Run

/-!
# The program

The machine that the program runs on when it is called, and its entry point. There is no font to
draw a bitmap with, so that a chart can only be written as a scalable graphic, which needs none.
-/

namespace ContentionChart

/-- Runs on the machine at hand, showing the events that a filter lets through. -/
abbrev Live := ReaderT LogFilter IO

namespace Live

/-- A fault that is known by nothing but its number and its words. -/
def numbered (code : UInt32) (words : String) : FileFault :=
  .other (words ++ " (os error " ++ toString code ++ ")")

def faultOf : IO.Error → FileFault
  | .noFileOrDirectory .. => .notFound
  | .alreadyExists .. => .alreadyThere
  | .inappropriateType _ code _ => if code = 21 then .isADirectory else .notADirectory
  | .permissionDenied _ code words | .resourceExhausted _ code words | .noSuchThing _ code words
  | .resourceBusy code words | .unsupportedOperation code words | .hardwareFault code words
  | .unsatisfiedConstraints code words | .illegalOperation code words | .otherError code words =>
    numbered code words
  | .invalidArgument _ code words => if code = 36 then .nameTooLong else numbered code words
  | e => .other (toString e)

/-- The outcome of an action, with its fault if it has one. -/
def attempt {β : Type} (action : IO β) : IO (Except FileFault β) := do
  try
    return .ok (← action)
  catch e => return .error (faultOf e)

def faultIn (action : IO Unit) : IO (Option FileFault) := do
  match ← attempt action with
  | .ok () => return none
  | .error fault => return some fault

/-- The content of an open file, as far as it can be read. -/
def readAll (file : IO.FS.Handle) : IO Csv.Source := do
  match ← attempt file.readBinToEnd with
  | .ok content => return ⟨content.toList, none⟩
  | .error fault => return ⟨[], some fault.message⟩

/-- Make a new file among the given number of random names. -/
def newFile (directory : String) : Nat → IO (Except FileFault Path)
  | 0 => return .error .alreadyThere
  | tries + 1 => do
    let name := directory ++ "/lock_plot-" ++ toString (← IO.rand 100000 999999) ++ ".png"
    match ← attempt (IO.FS.Handle.mk name .writeNew) with
    | .ok _ => return .ok (Path.ofString name)
    | .error .alreadyThere => newFile directory tries
    | .error fault => return .error fault

end Live

open Live in
instance : Machine Live where
  report e := do
    if (← read).shows e then
      IO.eprintln e.line
  say line := IO.println line
  complain line := IO.eprintln line
  readFile p := do
    match ← attempt (IO.FS.Handle.mk p.text .read) with
    | .error fault => return .error fault
    | .ok file => return .ok (← readAll file)
  pathExists p := do return (← attempt (IO.FS.Handle.mk p.text .read)).toOption.isSome
  makeDirectories p := faultIn (IO.FS.createDirAll p.text)
  writeFile p content := faultIn (IO.FS.writeBinFile p.text ⟨content.toArray⟩)
  newImage := do newFile ((← IO.getEnv "TMPDIR").getD "/tmp") 100
  rasterise _ _ _ := return .error "backend error: no font is available"
  graphicFault _ _ _ := return none
  openViewer _ := return some .notFound

end ContentionChart

open ContentionChart in
def main (words : List String) : IO UInt32 := do
  let argv := ((← IO.appPath).toString :: words).map Utf8.encode
  let filter := Run.logFilter argv (← IO.getEnv "RUST_LOG")
  return UInt32.ofNat (← (Run.execute argv : Live Nat).run filter)
