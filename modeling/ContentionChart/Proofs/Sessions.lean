import ContentionChart.Program.Run
import ContentionChart.Proofs.FileWriting

/-!
# What a run does to its host

A run on a machine that is a value is a function, from the host before it to the host after it. Here
is one equation for each action that a run is made of, so that nothing later has to look into them.

## Main definitions

* `Host.run` — what an action comes to, and the host after it.
* `Host.reporting`, `Host.withFiles`, `Host.saying`, `Host.complaining` — what becomes of a host.
* `Host.reading` — what reading a csv comes to.
* `Host.directoryFailure?`, `Host.preparedFiles` — what becomes of the directory of an output.
* `Host.Draws`, `Host.Charts` — how the writing of a drawing and of a chart ends.
* `Host.ended` — how a whole run ends.

## Main statements

* `Host.run_readResults`, `Host.run_makeOutputDirectory`, `Host.exists_run_writeDrawing`,
  `Host.exists_run_writeChart` — the actions that a run is made of.
* `Host.run_perform_of_error`, `Host.run_perform_saving`, `Host.run_perform_showing` — a run with
  accepted arguments.
* `Host.exists_run_conclude_saving`, `Host.exists_run_conclude_showing`, `Host.ended_of_refused` —
  its exit status.
-/

namespace ContentionChart

open Machine Run
open Utf8 (Bytes)

namespace Host

variable {β γ : Type} (w : Host)

/-- What an action comes to on a host, and the host after it. -/
def run (action : ExceptT Failure Session β) : Except Failure β × Host :=
  StateT.run (ExceptT.run action) w

@[simp] theorem run_pure (b : β) : w.run (pure b) = (.ok b, w) := rfl

@[simp] theorem run_throw (failure : Failure) :
    w.run (throw failure : ExceptT Failure Session β) = (.error failure, w) := rfl

/-- An action that follows another begins where that one ended, unless it failed. -/
theorem run_bind (action : ExceptT Failure Session β) (next : β → ExceptT Failure Session γ) :
    w.run (action >>= next) =
      match w.run action with
      | (.ok b, w') => w'.run (next b)
      | (.error failure, w') => (.error failure, w') := by
  show StateT.run (ExceptT.run (action >>= next)) w = _
  rw [ExceptT.run_bind, StateT.run_bind]
  unfold run
  obtain ⟨outcome, w'⟩ := StateT.run (ExceptT.run action) w
  cases outcome <;> rfl

theorem run_bind_of_ok {action : ExceptT Failure Session β} {b : β} {w' : Host}
    (h : w.run action = (.ok b, w')) (next : β → ExceptT Failure Session γ) :
    w.run (action >>= next) = w'.run (next b) := by
  rw [run_bind, h]

/-! ## The operations of a machine -/

/-- The host after some more reports. -/
def reporting (events : List Event) : Host := { w with events := w.events ++ events }

@[simp] theorem reporting_reporting (before after : List Event) :
    (w.reporting before).reporting after = w.reporting (before ++ after) := by
  simp [reporting]

@[simp] theorem reporting_nil : w.reporting [] = w := by simp [reporting]

@[simp] theorem files_reporting (events : List Event) : (w.reporting events).files = w.files := rfl

@[simp] theorem workingDirectory_reporting (events : List Event) :
    (w.reporting events).workingDirectory = w.workingDirectory := rfl

@[simp] theorem rasteriser_reporting (events : List Event) :
    (w.reporting events).rasteriser = w.rasteriser := rfl

@[simp] theorem brokenGraphic_reporting (events : List Event) :
    (w.reporting events).brokenGraphic = w.brokenGraphic := rfl

@[simp] theorem read_reporting (events : List Event) (p : Path) :
    (w.reporting events).read p = w.read p := rfl

/-- The host after one more line of output. -/
def saying (line : String) : Host := { w with output := w.output ++ [line] }

/-- The host after one more line of diagnostics. -/
def complaining (line : String) : Host := { w with diagnostics := w.diagnostics ++ [line] }

/-- The host with other files. -/
def withFiles (t : FileTree) : Host := { w with files := t }

@[simp] theorem files_withFiles (t : FileTree) : (w.withFiles t).files = t := rfl

@[simp] theorem withFiles_files : w.withFiles w.files = w := rfl

@[simp] theorem workingDirectory_withFiles (t : FileTree) :
    (w.withFiles t).workingDirectory = w.workingDirectory := rfl

@[simp] theorem rasteriser_withFiles (t : FileTree) :
    (w.withFiles t).rasteriser = w.rasteriser := rfl

@[simp] theorem brokenGraphic_withFiles (t : FileTree) :
    (w.withFiles t).brokenGraphic = w.brokenGraphic := rfl

@[simp] theorem viewerFault_reporting (events : List Event) :
    (w.reporting events).viewerFault = w.viewerFault := rfl

@[simp] theorem viewerFault_withFiles (t : FileTree) :
    (w.withFiles t).viewerFault = w.viewerFault := rfl

@[simp] theorem withFiles_withFiles (before after : FileTree) :
    (w.withFiles before).withFiles after = w.withFiles after := rfl

@[simp] theorem reporting_withFiles (t : FileTree) (events : List Event) :
    (w.withFiles t).reporting events = (w.reporting events).withFiles t := rfl

@[simp] theorem withFiles_reporting_files (events : List Event) :
    (w.reporting events).withFiles w.files = w.reporting events := rfl

@[simp] theorem run_report (e : Event) :
    w.run (report (m := Session) e) = (.ok (), w.reporting [e]) := rfl

@[simp] theorem run_say (line : String) :
    w.run (say (m := Session) line) = (.ok (), w.saying line) := rfl

@[simp] theorem run_readFile (p : Path) :
    w.run (readFile (m := Session) p) = (.ok (w.read p), w) := rfl

@[simp] theorem run_pathExists (p : Path) :
    w.run (pathExists (m := Session) p) =
      (.ok (w.files.pathExists w.workingDirectory p), w) := rfl

@[simp] theorem run_makeDirectories (p : Path) :
    w.run (makeDirectories (m := Session) p) =
      (.ok (w.files.makeDirectories w.workingDirectory p).2,
        w.withFiles (w.files.makeDirectories w.workingDirectory p).1) := rfl

theorem run_writeFile (p : Path) (content : Bytes) :
    w.run (writeFile (m := Session) p content) =
      match w.files.target w.workingDirectory p with
      | .ok place => (.ok none, w.withFiles (w.files.put place (.file content)))
      | .error fault => (.ok (some fault), w) := by
  have written := w.files.write_eq w.workingDirectory p content
  show (Except.ok (Prod.fst _), Prod.snd _) = _
  rw [written]
  cases w.files.target w.workingDirectory p <;> rfl

/-- The place of a new image, which is free. -/
def imagePlace : Except FileFault Location :=
  match w.files.node? w.imageDirectory with
  | none => .error .notFound
  | some (.file _) => .error .notADirectory
  | some .directory =>
    match w.freeImagePlace? with
    | none => .error .alreadyThere
    | some place => .ok place

@[simp] theorem imagePlace_reporting (events : List Event) :
    (w.reporting events).imagePlace = w.imagePlace := rfl

theorem imagePlace_spec {place : Location} (h : w.imagePlace = .ok place) :
    place.dropLast = w.imageDirectory ∧ w.files.node? place = none := by
  have found : w.freeImagePlace? = some place := by
    unfold imagePlace at h
    grind
  have free := List.find?_some found
  obtain ⟨n, -, rfl⟩ := List.mem_map.1 (List.mem_of_find?_eq_some found)
  exact ⟨List.dropLast_concat, by simpa using free⟩

/-- A new image is an empty file. -/
theorem makeImage_eq :
    w.makeImage = w.imagePlace.map fun place =>
      (pathTo place, w.withFiles (w.files.put place (.file []))) := by
  unfold makeImage imagePlace
  cases w.files.node? w.imageDirectory with
  | none => rfl
  | some node =>
    cases node with
    | file => rfl
    | directory => cases w.freeImagePlace? <;> rfl

theorem run_newImage :
    w.run (newImage (m := Session)) =
      match w.imagePlace with
      | .ok place => (.ok (.ok (pathTo place)), w.withFiles (w.files.put place (.file [])))
      | .error fault => (.ok (.error fault), w) := by
  show (Except.ok (Prod.fst _), Prod.snd _) = _
  rw [makeImage_eq]
  cases w.imagePlace <;> rfl

@[simp] theorem run_rasterise (layout : Layout Float) (width height : Nat) :
    w.run (rasterise (m := Session) layout width height) =
      (.ok (w.rasteriser layout width height), w) := rfl

@[simp] theorem run_graphicFault (layout : Layout Float) (width height : Nat) :
    w.run (graphicFault (m := Session) layout width height) =
      (.ok (w.brokenGraphic layout width height), w) := rfl

@[simp] theorem run_openViewer (p : Path) :
    w.run (openViewer (m := Session) p) = (.ok w.viewerFault, w) := rfl

/-! ## Parts of a run -/

theorem run_forM_report (events : List Event) :
    StateT.run (events.forM (report (m := Session))) w = ((), w.reporting events) := by
  induction events generalizing w with
  | nil =>
    rw [reporting_nil]
    rfl
  | cons e events ih =>
    have rest := ih (w.reporting [e])
    rw [reporting_reporting] at rest
    exact rest

@[simp] theorem run_reportAll (r : Logged (Except Failure β)) :
    w.run (reportAll r) = (r.value, w.reporting r.events) := by
  show StateT.run (r.events.forM report >>= fun _ => pure r.value) w = _
  rw [StateT.run_bind, run_forM_report]
  rfl

/-- What an action without a value comes to, by what went wrong. -/
def ending (failure? : Option Failure) : Except Failure Unit := failure?.elim (.ok ()) .error

@[simp] theorem run_check {φ : Type} (failure : φ → Failure) (fault? : Option φ) :
    w.run (check failure fault?) = (ending (fault?.map failure), w) := by
  cases fault? <;> rfl

/-- What reading a csv comes to, and what is reported on the way. -/
def reading (csv : Path) : Logged (Except Failure (Results Float)) :=
  match w.read csv with
  | .error .notFound => ⟨[], .error (.csvNotFound csv)⟩
  | .error fault => ⟨[], .error (.unreadable csv fault)⟩
  | .ok source =>
    let results := Results.ofTable (Csv.Table.ofSource source)
    ⟨.opened csv :: results.events, results.value⟩

@[simp] theorem reading_reporting (events : List Event) (csv : Path) :
    (w.reporting events).reading csv = w.reading csv := rfl

@[simp] theorem run_readResults (csv : Path) :
    w.run (readResults csv) = ((w.reading csv).value, w.reporting (w.reading csv).events) := by
  unfold readResults reading
  rw [run_bind_of_ok w (run_readFile w csv)]
  cases w.read csv with
  | error fault => cases fault <;> simp
  | ok source => simp [run_bind]

/-- The directory of an output, if it has one and that is missing. -/
def missingDirectory? (output : Path) : Option Path :=
  output.parent?.filter fun directory =>
    !directory.isEmpty && !w.files.pathExists w.workingDirectory directory

/-- Why the missing directory of an output cannot be made. -/
def directoryFailure? (output : Path) : Option Failure :=
  (w.missingDirectory? output).bind fun directory =>
    (w.files.makeDirectories w.workingDirectory directory).2.map (.outputDirectory directory)

/-- The files once the missing directory of an output has been made, as far as that can be done. -/
def preparedFiles (output : Path) : FileTree :=
  (w.missingDirectory? output).elim w.files fun directory =>
    (w.files.makeDirectories w.workingDirectory directory).1

@[simp] theorem directoryFailure?_reporting_withFiles (events : List Event) (t : FileTree)
    (output : Path) :
    ((w.reporting events).withFiles t).directoryFailure? output =
      (w.withFiles t).directoryFailure? output := rfl

@[simp] theorem preparedFiles_reporting_withFiles (events : List Event) (t : FileTree)
    (output : Path) :
    ((w.reporting events).withFiles t).preparedFiles output =
      (w.withFiles t).preparedFiles output := rfl

theorem run_makeOutputDirectory (output : Path) :
    w.run (makeOutputDirectory output) =
      (ending (w.directoryFailure? output),
        (w.reporting ((w.missingDirectory? output).toList.map .creatingDirectory)).withFiles
          (w.preparedFiles output)) := by
  unfold makeOutputDirectory directoryFailure? preparedFiles missingDirectory?
  cases output.parent? with
  | none => simp [ending]
  | some directory =>
    by_cases empty : directory.isEmpty = true
    · simp [empty, Option.filter, ending]
    · by_cases there : w.files.pathExists w.workingDirectory directory = true
      · simp [empty, there, run_bind, Option.filter, ending]
      · simp [empty, there, run_bind, Option.filter]

/-! ## Drawings -/

/-- How the writing of a drawing ends, in the given files: what it comes to and the files after it.
A graphic that breaks off is left as far as it was drawn, and an image that turns out to be wrong
leaves an empty file. -/
inductive Draws (t : FileTree) (output : Path) (layout : Layout Float) (size : Nat × Nat) :
    Except Failure Unit → FileTree → Prop where
  | brokenOff {cause : String} {remains : Bytes} {place : Location} :
      output.hasExtension "svg" = true →
      w.brokenGraphic layout size.1 size.2 = some (cause, remains) →
      t.target w.workingDirectory output = .ok place →
      Draws t output layout size (.error (.drawing cause)) (t.put place (.file remains))
  | unplaced {cause : String} {remains : Bytes} {fault : FileFault} :
      output.hasExtension "svg" = true →
      w.brokenGraphic layout size.1 size.2 = some (cause, remains) →
      t.target w.workingDirectory output = .error fault →
      Draws t output layout size (.error (.drawing cause)) t
  | graphic {place : Location} :
      output.hasExtension "svg" = true → w.brokenGraphic layout size.1 size.2 = none →
      t.target w.workingDirectory output = .ok place →
      Draws t output layout size (.ok ())
        (t.put place (.file (Utf8.encode (Drawing.ofLayout layout size.1 size.2).toSvg)))
  | noGraphic {fault : FileFault} :
      output.hasExtension "svg" = true → w.brokenGraphic layout size.1 size.2 = none →
      t.target w.workingDirectory output = .error fault →
      Draws t output layout size (.error (.drawing (drawingCause fault))) t
  | unrasterised {cause : String} :
      output.hasExtension "svg" = false → w.rasteriser layout size.1 size.2 = .error cause →
      Draws t output layout size (.error (.drawing cause)) t
  | noImage {samples : Bytes} {fault : FileFault} :
      output.hasExtension "svg" = false → w.rasteriser layout size.1 size.2 = .ok samples →
      t.target w.workingDirectory output = .error fault →
      Draws t output layout size (.error (.image output (.file fault))) t
  | wrongImage {samples : Bytes} {place : Location} {fault : Image.Fault} :
      output.hasExtension "svg" = false → w.rasteriser layout size.1 size.2 = .ok samples →
      t.target w.workingDirectory output = .ok place →
      (Image.mk size.1 size.2 samples).fault? = some fault →
      Draws t output layout size (.error (.image output fault)) (t.put place (.file []))
  | image {samples : Bytes} {place : Location} :
      output.hasExtension "svg" = false → w.rasteriser layout size.1 size.2 = .ok samples →
      t.target w.workingDirectory output = .ok place →
      (Image.mk size.1 size.2 samples).fault? = none →
      Draws t output layout size (.ok ())
        (t.put place (.file (Png.encode pixelsPerMetre ⟨size.1, size.2, samples⟩)))

/-- The file is written twice, and the second time is like the first. -/
theorem run_writeImage (output : Path) (image : Image) :
    w.run (writeImage output image) =
      match w.files.target w.workingDirectory output, image.fault? with
      | .error fault, _ => (.error (.image output (.file fault)), w)
      | .ok place, some fault =>
        (.error (.image output fault), w.withFiles (w.files.put place (.file [])))
      | .ok place, none =>
        (.ok (), w.withFiles (w.files.put place (.file (Png.encode pixelsPerMetre image)))) := by
  unfold writeImage
  rw [run_bind, run_writeFile]
  cases found : w.files.target w.workingDirectory output with
  | error fault => simp [run_bind, ending]
  | ok place =>
    have again : (w.files.put place (.file [])).target w.workingDirectory output = .ok place :=
      FileTree.target_put found
    cases wrong : image.fault? with
    | some fault => simp [run_bind, ending]
    | none => simp [run_bind, run_writeFile, ending, again]

theorem run_writeGraphic (output : Path) (layout : Layout Float) (size : Nat × Nat) :
    w.run (writeGraphic output layout size) =
      match w.brokenGraphic layout size.1 size.2, w.files.target w.workingDirectory output with
      | some (cause, remains), .ok place =>
        (.error (.drawing cause), w.withFiles (w.files.put place (.file remains)))
      | some (cause, _), .error _ => (.error (.drawing cause), w)
      | none, .ok place =>
        (.ok (), w.withFiles (w.files.put place
          (.file (Utf8.encode (Drawing.ofLayout layout size.1 size.2).toSvg))))
      | none, .error fault => (.error (.drawing (drawingCause fault)), w) := by
  unfold writeGraphic
  rw [run_bind, run_graphicFault]
  cases broken : w.brokenGraphic layout size.1 size.2 with
  | some remains =>
    cases found : w.files.target w.workingDirectory output <;>
      simp [run_bind, run_writeFile, found]
  | none =>
    cases found : w.files.target w.workingDirectory output <;>
      simp [run_bind, run_writeFile, found, ending]

theorem exists_run_writeDrawing (events : List Event) (t : FileTree) (output : Path)
    (layout : Layout Float) (size : Nat × Nat) :
    ∃ outcome files, w.Draws t output layout size outcome files ∧
      ((w.reporting events).withFiles t).run (writeDrawing output layout size) =
        (outcome, (w.reporting events).withFiles files) := by
  unfold writeDrawing
  by_cases graphic : output.hasExtension "svg" = true
  case pos =>
    rw [if_pos graphic, run_writeGraphic]
    simp only [files_withFiles, workingDirectory_withFiles, workingDirectory_reporting,
      brokenGraphic_withFiles, brokenGraphic_reporting]
    cases broken : w.brokenGraphic layout size.1 size.2 with
    | some remains =>
      cases found : t.target w.workingDirectory output with
      | error fault => exact ⟨_, _, .unplaced graphic broken found, rfl⟩
      | ok place => exact ⟨_, _, .brokenOff graphic broken found, rfl⟩
    | none =>
      cases found : t.target w.workingDirectory output with
      | error fault => exact ⟨_, _, .noGraphic graphic broken found, rfl⟩
      | ok place => exact ⟨_, _, .graphic graphic broken found, rfl⟩
  case neg =>
    rw [if_neg graphic, run_bind, run_rasterise]
    rw [Bool.not_eq_true] at graphic
    simp only [rasteriser_withFiles, rasteriser_reporting]
    cases shown : w.rasteriser layout size.1 size.2 with
    | error cause => exact ⟨_, _, .unrasterised graphic shown, rfl⟩
    | ok samples =>
      rw [run_writeImage, files_withFiles]
      simp only [workingDirectory_withFiles, workingDirectory_reporting]
      cases found : t.target w.workingDirectory output with
      | error fault => exact ⟨_, _, .noImage graphic shown found, rfl⟩
      | ok place =>
        cases wrong : (Image.mk size.1 size.2 samples).fault? with
        | some fault => exact ⟨_, _, .wrongImage graphic shown found wrong, rfl⟩
        | none => exact ⟨_, _, .image graphic shown found wrong, rfl⟩

/-! ## Charts -/

variable {options : ChartSettings} {output : Path} {results : Results Float}

/-- How the writing of a chart ends, in the given files: what it comes to, what is reported and the
files after it. Without a layout nothing is touched. -/
inductive Charts (t : FileTree) (options : ChartSettings) (output : Path)
    (results : Results Float) : Except Failure Unit → List Event → FileTree → Prop where
  | noLayout {failure : Failure} :
      (Layout.ofResults options results).value = .error failure →
      Charts t options output results (.error failure) (Layout.ofResults options results).events t
  | noDirectory {layout : Layout Float} {failure : Failure} {events : List Event} :
      (Layout.ofResults options results).value = .ok layout →
      (w.withFiles t).directoryFailure? output = some failure →
      Charts t options output results (.error failure) events
        ((w.withFiles t).preparedFiles output)
  | drawn {layout : Layout Float} {outcome : Except Failure Unit} {events : List Event}
      {files : FileTree} :
      (Layout.ofResults options results).value = .ok layout →
      (w.withFiles t).directoryFailure? output = none →
      w.Draws ((w.withFiles t).preparedFiles output) output layout options.figure.pixels outcome
        files →
      Charts t options output results outcome events files

theorem exists_run_writeChart (before : List Event) (t : FileTree) (options : ChartSettings)
    (output : Path) (results : Results Float) :
    ∃ outcome events files, w.Charts t options output results outcome events files ∧
      ((w.reporting before).withFiles t).run (writeChart options output results) =
        (outcome, (w.reporting (before ++ events)).withFiles files) := by
  unfold writeChart
  rw [run_bind, run_reportAll, reporting_withFiles, reporting_reporting]
  cases laidOut : (Layout.ofResults options results).value with
  | error failure => exact ⟨_, _, _, .noLayout laidOut, rfl⟩
  | ok layout =>
    simp only [run_bind, run_makeOutputDirectory, directoryFailure?_reporting_withFiles,
      preparedFiles_reporting_withFiles, reporting_withFiles, withFiles_withFiles,
      reporting_reporting]
    cases missing : (w.withFiles t).directoryFailure? output with
    | some failure =>
      simp only [ending, Option.elim_some, List.append_assoc]
      exact ⟨_, _, _, .noDirectory laidOut missing, rfl⟩
    | none =>
      simp only [ending, Option.elim_none, run_report, reporting_withFiles, reporting_reporting,
        List.append_assoc]
      obtain ⟨outcome, files, draws, run⟩ := w.exists_run_writeDrawing _ _ _ _ _
      exact ⟨outcome, _, files, .drawn laidOut missing draws, run⟩

/-! ## Whole runs -/

variable {arguments : Arguments}

/-- The reports of a run up to where its results have been read. -/
def readingEvents (arguments : Arguments) : List Event :=
  .readingFrom arguments.csvIn :: (w.reading arguments.csvIn).events

/-- The report on the results that have been read. -/
def summaryOf (arguments : Arguments) (results : Results Float) : Event :=
  .summary results.size results.totalSamples arguments.options.scale

theorem run_perform_of_error {failure : Failure}
    (unread : (w.reading arguments.csvIn).value = .error failure) :
    w.run (perform arguments) = (.error failure, w.reporting (w.readingEvents arguments)) := by
  unfold perform
  simp [run_bind, unread, readingEvents]

theorem run_perform_saving (read : (w.reading arguments.csvIn).value = .ok results)
    (saving : arguments.output = some output) :
    w.run (perform arguments) =
      (w.reporting (w.readingEvents arguments ++ [summaryOf arguments results])).run (do
        writeChart arguments.options output results
        say (m := Session) ("Saved figure to " ++ output.text)) := by
  unfold perform
  simp [run_bind, read, saving, readingEvents, summaryOf]

theorem run_perform_showing (read : (w.reading arguments.csvIn).value = .ok results)
    (showing : arguments.output = none) :
    w.run (perform arguments) =
      (w.reporting (w.readingEvents arguments ++ [summaryOf arguments results])).run (do
        let image ← display arguments.options results
        report (m := Session) (.showing image)) := by
  unfold perform
  simp [run_bind, read, showing, readingEvents, summaryOf]

/-! ## Exit statuses -/

/-- How a run ends: a failure is the one thing that is said about a run that failed. -/
def concluded (outcome : Except Failure Unit) : Nat × Host :=
  match outcome with
  | .ok () => (0, w)
  | .error failure => (failure.exitCode, w.complaining failure.message)

theorem run_conclude (arguments : Arguments) :
    StateT.run (conclude (m := Session) arguments) w =
      (w.run (perform arguments)).2.concluded (w.run (perform arguments)).1 := by
  unfold conclude run
  rw [StateT.run_bind]
  obtain ⟨outcome, w'⟩ := StateT.run (ExceptT.run (perform arguments)) w
  cases outcome <;> rfl

/-- A run that saves its chart says so. -/
theorem exists_run_conclude_saving (read : (w.reading arguments.csvIn).value = .ok results)
    (saving : arguments.output = some output) :
    ∃ outcome events files, w.Charts w.files arguments.options output results outcome events files ∧
      StateT.run (conclude (m := Session) arguments) w =
        let w' := (w.reporting (w.readingEvents arguments ++ summaryOf arguments results ::
          events)).withFiles files
        match outcome with
        | .ok () => (0, w'.saying ("Saved figure to " ++ output.text))
        | .error failure => (failure.exitCode, w'.complaining failure.message) := by
  have run := w.exists_run_writeChart (w.readingEvents arguments ++ [summaryOf arguments results])
    w.files arguments.options output results
  obtain ⟨outcome, events, files, charts, run⟩ := run
  refine ⟨outcome, events, files, charts, ?_⟩
  rw [withFiles_reporting_files] at run
  rw [run_conclude, run_perform_saving w read saving, run_bind, run]
  cases outcome <;> simp [concluded]

theorem run_conclude_unread {failure : Failure}
    (unread : (w.reading arguments.csvIn).value = .error failure) :
    StateT.run (conclude (m := Session) arguments) w =
      (failure.exitCode,
        (w.reporting (w.readingEvents arguments)).complaining failure.message) := by
  rw [run_conclude, run_perform_of_error w unread]
  rfl

/-- A run that shows its chart needs a place for the image first. -/
theorem run_conclude_unplaced (read : (w.reading arguments.csvIn).value = .ok results)
    (showing : arguments.output = none) {fault : FileFault} (full : w.imagePlace = .error fault) :
    StateT.run (conclude (m := Session) arguments) w =
      ((Failure.temporaryImage fault).exitCode,
        (w.reporting (w.readingEvents arguments ++ [summaryOf arguments results])).complaining
          (Failure.temporaryImage fault).message) := by
  rw [run_conclude, run_perform_showing w read showing]
  unfold display newImageFile
  simp only [run_bind, run_newImage, imagePlace_reporting, full, run_throw]
  rfl

/-- The image is made before the chart is laid out, and is kept whatever comes of that. -/
theorem exists_run_conclude_showing (read : (w.reading arguments.csvIn).value = .ok results)
    (showing : arguments.output = none) {place : Location} (free : w.imagePlace = .ok place) :
    ∃ outcome events files,
      w.Charts (w.files.put place (.file [])) arguments.options (pathTo place) results outcome
        events files ∧
      ∃ more, StateT.run (conclude (m := Session) arguments) w =
        let w' := (w.reporting more).withFiles files
        match outcome, w.viewerFault with
        | .error failure, _ => (failure.exitCode, w'.complaining failure.message)
        | .ok (), some fault =>
          let failure := Failure.viewer viewer fault
          (failure.exitCode, w'.complaining failure.message)
        | .ok (), none => (0, w') := by
  have run := w.exists_run_writeChart (w.readingEvents arguments ++ [summaryOf arguments results])
    (w.files.put place (.file [])) arguments.options (pathTo place) results
  obtain ⟨outcome, events, files, charts, run⟩ := run
  refine ⟨outcome, events, files, charts, ?_⟩
  rw [run_conclude, run_perform_showing w read showing]
  unfold display newImageFile
  simp only [run_bind, run_newImage, imagePlace_reporting, free, files_reporting, run_pure, run]
  cases outcome with
  | error failure => exact ⟨_, rfl⟩
  | ok =>
    simp only [run_report, run_openViewer, run_check, reporting_withFiles, reporting_reporting,
      viewerFault_withFiles, viewerFault_reporting]
    cases w.viewerFault with
    | some fault => exact ⟨_, rfl⟩
    | none =>
      simp only [ending, Option.map_none, Option.elim_none, reporting_withFiles,
        reporting_reporting]
      exact ⟨_, rfl⟩

/-- How a whole run ends, given the words of its command line: its exit status, and the host after
it. -/
def ended (argv : List Bytes) : Nat × Host := StateT.run (execute (m := Session) argv) w

theorem ended_of_accepted {argv : List Bytes}
    (accepted : Arguments.ofCommandLine argv = .ok arguments) :
    w.ended argv = StateT.run (conclude (m := Session) arguments) w := by
  rw [ended, execute, accepted]

theorem ended_of_refused {argv : List Bytes} {fault : UsageError}
    (refused : Arguments.ofCommandLine argv = .error fault) :
    w.ended argv =
      match fault.answer? with
      | some text => (0, w.saying text)
      | none => (1, w.complaining fault.message) := by
  rw [ended, execute, refused]
  cases fault <;> rfl

end Host

end ContentionChart
