import ContentionChart.Proofs.Masking
import ContentionChart.Proofs.Sessions

/-!
# Data failures

A run ends with status two if there is nothing to draw: the csv cannot be read, or none of its
samples has a place on the scale. A run that saves its chart finds this out before it touches
anything. A run that shows its chart has by then made the file of the image, unless it was the
reading that failed.

## Main statements

* `Host.untouched_of_saving_status_two` — a run that saves leaves everything as it was.
* `Host.files_of_showing_status_two` — a run that shows leaves everything as it was, or one empty
  image more.
-/

namespace ContentionChart

open Machine Run
open Utf8 (Bytes)

/-- What is reported about a table is about its rows. -/
theorem Results.eq_skipped_of_mem_events {table : Csv.Table} {e : Event}
    (h : e ∈ (Results.ofTable table).events) :
    (∃ number reason, e = .skippedRecord number reason) ∨ ∃ count, e = .skippedRows count := by
  cases headed : table.header with
  | error fault => simp [ofTable, headed] at h
  | ok header =>
    cases located : Columns.ofHeader header with
    | error missing => simp [ofTable, headed, located] at h
    | ok columns =>
      cases broken : Csv.brokenOff? table.rows with
      | some cause =>
        simp only [ofTable, headed, located, broken] at h
        exact .inl (Entry.exists_of_mem_skipEvents h)
      | none =>
        simp only [ofTable, headed, located, broken, ofEntries] at h
        split at h
        case isTrue => cases h
        case isFalse =>
          rcases List.mem_append.1 h with single | last
          · exact .inl (Entry.exists_of_mem_skipEvents single)
          · exact .inr ⟨_, List.mem_singleton.1 last⟩

/-- What is reported about a layout is about its masked points. -/
theorem Layout.eq_masked_of_mem_events {options : ChartSettings} {results : Results Float}
    {e : Event} (h : e ∈ (Layout.ofResults options results).events) :
    ∃ lock count, e = .masked lock count options.scale := by
  rw [Layout.ofResults, maskedEvents_eq] at h
  obtain ⟨entry, -, rfl⟩ := List.mem_map.1 h
  exact ⟨_, _, rfl⟩

/-- Only for want of data there is no layout. -/
theorem Layout.eq_noData_of_ofResults {options : ChartSettings} {results : Results Float}
    {failure : Failure} (h : (Layout.ofResults options results).value = .error failure) :
    failure = .noData := by
  unfold ofResults at h
  split at h
  case h_1 => cases h
  case h_2 => exact (Except.error.inj h).symm

namespace Host

variable {w : Host} {arguments : Arguments} {output : Path} {failure : Failure}

theorem exitCode_of_directoryFailure? (h : w.directoryFailure? output = some failure) :
    failure.exitCode = 3 := by
  obtain ⟨directory, -, h⟩ := Option.bind_eq_some_iff.1 h
  obtain ⟨fault, -, rfl⟩ := Option.map_eq_some_iff.1 h
  rfl

theorem Draws.exitCode {t files : FileTree} {layout : Layout Float} {size : Nat × Nat}
    (h : w.Draws t output layout size (.error failure) files) : failure.exitCode = 3 := by
  cases h <;> rfl

/-! ## Hosts that nothing was done to -/

/-- A later host with the same files and the same output, and without a report on a new
directory. -/
structure Untouched (w w' : Host) : Prop where
  files : w'.files = w.files
  output : w'.output = w.output
  noDirectory : ∃ events, w'.events = w.events ++ events ∧
    ∀ directory, .creatingDirectory directory ∉ events

theorem untouched_of_reporting {events : List Event} (line : String)
    (h : ∀ directory, .creatingDirectory directory ∉ events) :
    w.Untouched ((w.reporting events).complaining line) :=
  ⟨rfl, rfl, events, rfl, h⟩

theorem creatingDirectory_notMem_readingEvents (arguments : Arguments) (directory : Path) :
    .creatingDirectory directory ∉ w.readingEvents arguments := by
  intro mem
  rcases List.mem_cons.1 mem with first | mem
  · cases first
  · unfold reading at mem
    split at mem
    case h_1 => cases mem
    case h_2 => cases mem
    case h_3 =>
      rcases List.mem_cons.1 mem with opened | mem
      · cases opened
      · rcases Results.eq_skipped_of_mem_events mem with ⟨_, _, row⟩ | ⟨_, rows⟩
        · cases row
        · cases rows

theorem creatingDirectory_notMem_events_ofResults (options : ChartSettings)
    (results : Results Float) (directory : Path) :
    .creatingDirectory directory ∉ (Layout.ofResults options results).events := by
  intro mem
  obtain ⟨_, _, masked⟩ := Layout.eq_masked_of_mem_events mem
  cases masked

/-- A chart without data leaves the files alone, and no directory is made for it. -/
theorem Charts.of_status_two {t files : FileTree} {options : ChartSettings}
    {results : Results Float} {events : List Event}
    (h : w.Charts t options output results (.error failure) events files)
    (status : failure.exitCode = 2) :
    (Layout.ofResults options results).value = .error .noData ∧ files = t ∧
      ∀ directory, .creatingDirectory directory ∉ events := by
  cases h with
  | noLayout noLayout =>
    obtain rfl := Layout.eq_noData_of_ofResults noLayout
    exact ⟨noLayout, rfl, creatingDirectory_notMem_events_ofResults options results⟩
  | noDirectory laidOut missing =>
    rw [exitCode_of_directoryFailure? missing] at status
    cases status
  | drawn laidOut made draws =>
    rw [draws.exitCode] at status
    cases status

/-- A run whose csv cannot be read has done nothing but report. -/
theorem untouched_of_unread (unread : (w.reading arguments.csvIn).value = .error failure) :
    w.Untouched (StateT.run (conclude (m := Session) arguments) w).2 := by
  rw [run_conclude_unread w unread]
  exact untouched_of_reporting _ (creatingDirectory_notMem_readingEvents arguments)

/-- What an accepted command line asks for, checked without its numbers. -/
theorem exists_accepted_of_map_eq {argv : List Bytes} {csv : Path} {output : Option Path}
    (h : (Arguments.ofCommandLine argv).toOption.map (fun a => (a.csvIn, a.output)) =
      some (csv, output)) :
    ∃ arguments, Arguments.ofCommandLine argv = .ok arguments ∧ arguments.csvIn = csv ∧
      arguments.output = output := by
  cases read : Arguments.ofCommandLine argv with
  | error fault => simp [read, Except.toOption] at h
  | ok arguments =>
    simp only [read, Except.toOption, Option.map_some, Option.some.injEq, Prod.mk.injEq] at h
    exact ⟨arguments, rfl, h.1, h.2⟩

/-- Only what was accepted can fail for its data. -/
theorem exists_accepted_of_status_two {argv : List Bytes}
    (status : (w.ended argv).1 = 2) :
    ∃ arguments, Arguments.ofCommandLine argv = .ok arguments := by
  cases read : Arguments.ofCommandLine argv with
  | ok arguments => exact ⟨arguments, rfl⟩
  | error fault =>
    rw [ended_of_refused w read] at status
    cases answer : fault.answer? <;> simp [answer] at status

/-! ## Runs that save -/

theorem untouched_of_saving (saving : arguments.output = some output)
    (status : (StateT.run (conclude (m := Session) arguments) w).1 = 2) :
    w.Untouched (StateT.run (conclude (m := Session) arguments) w).2 := by
  cases read : (w.reading arguments.csvIn).value with
  | error failure => exact untouched_of_unread read
  | ok results =>
    obtain ⟨outcome, events, files, charts, run⟩ := w.exists_run_conclude_saving read saving
    rw [run] at status ⊢
    cases outcome with
    | ok => cases status
    | error failure =>
      obtain ⟨-, rfl, noDirectory⟩ := charts.of_status_two status
      refine untouched_of_reporting _ fun directory mem => ?_
      rcases List.mem_append.1 mem with before | later
      · exact creatingDirectory_notMem_readingEvents arguments directory before
      · rcases List.mem_cons.1 later with summary | chart
        · cases summary
        · exact noDirectory directory chart

/-- A run with an output that ends with status two has made, changed and removed nothing, has begun
no directory and has printed nothing. The same goes for a chart that is refused for want of data. -/
theorem untouched_of_saving_status_two :
    (∀ argv (w : Host), (w.ended argv).1 = 2 →
      ∃ arguments, Arguments.ofCommandLine argv = .ok arguments ∧
        ∀ output, arguments.output = some output → w.Untouched (w.ended argv).2) ∧
    ∀ options output results (w : Host),
      (w.run (writeChart options output results)).1 = .error .noData →
        w.Untouched (w.run (writeChart options output results)).2 := by
  refine ⟨fun argv w status => ?run, fun options output results w noData => ?chart⟩
  case run =>
    obtain ⟨arguments, accepted⟩ := exists_accepted_of_status_two status
    refine ⟨arguments, accepted, fun output saving => ?_⟩
    rw [ended_of_accepted w accepted] at status ⊢
    exact untouched_of_saving saving status
  case chart =>
    have run := w.exists_run_writeChart [] w.files options output results
    obtain ⟨outcome, events, files, charts, run⟩ := run
    rw [reporting_nil, withFiles_files, List.nil_append] at run
    rw [run] at noData ⊢
    obtain rfl : outcome = .error .noData := noData
    obtain ⟨-, rfl, noDirectory⟩ := charts.of_status_two rfl
    exact ⟨rfl, rfl, events, rfl, noDirectory⟩

/-- A host in its root directory, with a place for images, but without a viewer and without the font
that an image needs. Graphics are drawn there without one. -/
def bare (files : FileTree) : Host where
  files := files
  workingDirectory := []
  imageDirectory := [Utf8.encode "tmp"]
  rasteriser _ _ _ := .error "no font"
  viewerFault := some .notFound
  events := []
  output := []
  diagnostics := []

/-- A table with one sample, which has no place on the logarithmic scale. -/
def idleTable : FileTree :=
  ⟨[([Utf8.encode "tmp"], .directory),
    ([Utf8.encode "r.csv"], .file (Utf8.encode "lock,threads,ops_s\nA,1,0\n"))]⟩

/-- Neither an existing chart is touched by a run without data, nor is a directory made. -/
theorem untouched_of_saving_status_two_masked :
    let w := bare (idleTable.put [Utf8.encode "chart.svg"] (.file (Utf8.encode "old")))
    let argv := fun output => ["lock_plot", "--csv-in", "r.csv", "-o", output].map Utf8.encode
    let ended := fun output => w.ended (argv output)
    ((ended "chart.svg").1 = 2 ∧ w.Untouched (ended "chart.svg").2) ∧
      ((ended "out/chart.svg").1 = 2 ∧ w.Untouched (ended "out/chart.svg").2) ∧
      let chart := w.run (writeChart .standard (Path.ofString "chart.svg") .empty)
      chart.1 = .error .noData ∧ w.Untouched chart.2 := by
  intro w argv ended
  have status : (ended "chart.svg").1 = 2 ∧ (ended "out/chart.svg").1 = 2 := by decide +kernel
  have noData : (w.run (writeChart .standard (Path.ofString "chart.svg") .empty)).1 =
      .error .noData := rfl
  have untouched (output : String)
      (saving : (Arguments.ofCommandLine (argv output)).toOption.map
        (fun a => (a.csvIn, a.output)) =
          some (Path.ofString "r.csv", some (Path.ofString output)))
      (status : (ended output).1 = 2) : w.Untouched (ended output).2 := by
    obtain ⟨arguments, accepted, untouched⟩ :=
      untouched_of_saving_status_two.1 (argv output) w status
    obtain ⟨other, accepted', -, saving⟩ := exists_accepted_of_map_eq saving
    obtain rfl := Except.ok.inj (accepted.symm.trans accepted')
    exact untouched _ saving
  exact ⟨⟨status.1, untouched _ (by decide +kernel) status.1⟩,
    ⟨status.2, untouched _ (by decide +kernel) status.2⟩, noData,
    untouched_of_saving_status_two.2 _ _ _ w noData⟩

/-! ## Runs that show -/

/-- A run without an output that ends with status two leaves everything as it was only if the csv
could not be read. If it could, no sample has a place on the scale, and there is one empty image
more. -/
theorem files_of_showing_status_two {argv : List Bytes}
    (accepted : Arguments.ofCommandLine argv = .ok arguments) (showing : arguments.output = none)
    (status : (w.ended argv).1 = 2) :
    (∃ failure, (w.reading arguments.csvIn).value = .error failure ∧
      w.Untouched (w.ended argv).2) ∨
    ∃ results place, (w.reading arguments.csvIn).value = .ok results ∧
      (∀ lock s, results.find? lock = some s →
        ∀ p ∈ s.points, arguments.options.scale.admits p.2 = false) ∧
      place.dropLast = w.imageDirectory ∧ w.files.node? place = none ∧
      (w.ended argv).2.files = w.files.put place (.file []) ∧
      (w.ended argv).2.files ≠ w.files := by
  rw [ended_of_accepted w accepted] at status ⊢
  cases read : (w.reading arguments.csvIn).value with
  | error failure => exact .inl ⟨failure, rfl, untouched_of_unread read⟩
  | ok results =>
    refine .inr ?_
    cases free : w.imagePlace with
    | error fault =>
      rw [run_conclude_unplaced w read showing free] at status
      cases status
    | ok place =>
      obtain ⟨outcome, events, files, charts, more, run⟩ :=
        w.exists_run_conclude_showing read showing free
      obtain ⟨inDirectory, unused⟩ := w.imagePlace_spec free
      have below : place ≠ [] := by
        rintro rfl
        cases unused
      rw [run] at status ⊢
      cases outcome with
      | ok => cases viewer : w.viewerFault <;> simp [viewer, Failure.exitCode] at status
      | error failure =>
        obtain ⟨noData, rfl, -⟩ := charts.of_status_two status
        refine ⟨results, place, rfl, Layout.value_ofResults_eq_noData_iff.1 noData, inDirectory,
          unused, rfl, fun same => ?_⟩
        have here := FileTree.node?_put_self w.files (.file []) below
        have same : w.files.put place (.file []) = w.files := same
        rw [same, unused] at here
        cases here

/-- The csv can be read here, so that the image is left behind. -/
theorem files_of_showing_status_two_masked :
    let w := bare idleTable
    let argv := ["lock_plot", "--csv-in", "r.csv"].map Utf8.encode
    ∃ arguments, Arguments.ofCommandLine argv = .ok arguments ∧ arguments.output = none ∧
      (w.ended argv).1 = 2 ∧
      ((∃ failure, (w.reading arguments.csvIn).value = .error failure ∧
          w.Untouched (w.ended argv).2) ∨
        ∃ results place, (w.reading arguments.csvIn).value = .ok results ∧
          (∀ lock s, results.find? lock = some s →
            ∀ p ∈ s.points, arguments.options.scale.admits p.2 = false) ∧
          place.dropLast = w.imageDirectory ∧ w.files.node? place = none ∧
          (w.ended argv).2.files = w.files.put place (.file []) ∧
          (w.ended argv).2.files ≠ w.files) := by
  intro w argv
  have status : (w.ended argv).1 = 2 := by decide +kernel
  have shows : (Arguments.ofCommandLine argv).toOption.map (fun a => (a.csvIn, a.output)) =
      some (Path.ofString "r.csv", none) := by
    decide +kernel
  obtain ⟨arguments, accepted, -, showing⟩ := exists_accepted_of_map_eq shows
  exact ⟨arguments, accepted, showing, status,
    files_of_showing_status_two accepted showing status⟩

/-- A run without an output that ends with status two does not leave all files as they were. -/
theorem not_files_unchanged_of_showing_status_two :
    ¬ ∀ (w : Host) (argv : List Bytes) (arguments : Arguments),
      Arguments.ofCommandLine argv = .ok arguments → arguments.output = none →
      (w.ended argv).1 = 2 → (w.ended argv).2.files = w.files := by
  intro unchanged
  let w := bare idleTable
  let argv := ["lock_plot", "--csv-in", "r.csv"].map Utf8.encode
  have status : (w.ended argv).1 = 2 := by decide +kernel
  have shows : (Arguments.ofCommandLine argv).toOption.map (fun a => (a.csvIn, a.output)) =
      some (Path.ofString "r.csv", none) := by
    decide +kernel
  have changed : (w.ended argv).2.files ≠ w.files := by decide +kernel
  obtain ⟨arguments, accepted, -, showing⟩ := exists_accepted_of_map_eq shows
  exact changed (unchanged w argv arguments accepted showing status)

end Host

end ContentionChart
