import ContentionChart.Proofs.DataFailures

/-!
# The first failure

A run that saves its chart goes through stages, and several of them can be wrong at once. What is
wrong with a stage is said here for each of them on its own, without regard to the others. It is the
first stage where something is wrong that decides how the run ends.

## Main definitions

* `Stage` — the stages, in their order.
* `Host.FailsAt` — what is wrong with a stage.
* `Host.Reaches` — nothing is wrong with any stage before.

## Main statements

* `Host.ended_by_first_failure` — how a run ends, by the first stage that fails.
-/

namespace ContentionChart

open Machine Run
open Utf8 (Bytes)

/-- The stages of a run that saves its chart. -/
inductive Stage where
  | opening
  | header
  | columns
  | reading
  | rows
  | scale
  | directory
  | chart
  deriving DecidableEq, Repr

/-- The cause is that of the first row where reading breaks off. -/
theorem Csv.brokenOff?_append_cons {before after : List Csv.Row} {cause : String}
    (none : ∀ other, .brokenOff other ∉ before) :
    Csv.brokenOff? (before ++ .brokenOff cause :: after) = some cause := by
  have none := Csv.brokenOff?_eq_none_iff.2 none
  unfold Csv.brokenOff? at none ⊢
  rw [List.findSome?_append, none]
  rfl

namespace Stage

/-- The place among the stages. -/
def number : Stage → Nat
  | opening => 1
  | header => 2
  | columns => 3
  | reading => 4
  | rows => 5
  | scale => 6
  | directory => 7
  | chart => 8

/-- The status of a run that fails at a stage: two if the data are at fault. -/
def exitCode : Stage → Nat
  | opening | header | columns | reading | rows | scale => 2
  | directory | chart => 3

end Stage

namespace Host

variable (w : Host) (arguments : Arguments) (output : Path)

/-- The table in a csv. -/
def table (csv : Path) : Except FileFault Csv.Table := (w.read csv).map Csv.Table.ofSource

/-- What is wrong with a stage, as far as that can be said: there is nothing wrong with the header
of a file that cannot be opened. -/
inductive FailsAt : Stage → Failure → Prop where
  | notFound :
      w.table arguments.csvIn = .error .notFound →
      FailsAt .opening (.csvNotFound arguments.csvIn)
  | unreadable {fault : FileFault} :
      w.table arguments.csvIn = .error fault → fault ≠ .notFound →
      FailsAt .opening (.unreadable arguments.csvIn fault)
  | header {table : Csv.Table} {fault : Csv.Fault} :
      w.table arguments.csvIn = .ok table → table.header = .error fault →
      FailsAt .header (.csv fault)
  | columns {table : Csv.Table} {header : List String} :
      w.table arguments.csvIn = .ok table → table.header = .ok header →
      (∃ name ∈ ["lock", "threads", "ops_s"], name ∉ header) →
      FailsAt .columns
        (.missingColumns (["lock", "threads", "ops_s"].filter fun name => name ∉ header))
  /-- The first place where reading breaks off, past the header. -/
  | reading {before after : List Csv.Row} {header : Except Csv.Fault (List String)}
      {cause : String} :
      w.table arguments.csvIn = .ok ⟨header, before ++ .brokenOff cause :: after⟩ →
      (∀ other, .brokenOff other ∉ before) →
      FailsAt .reading (.csv (.unreadable cause))
  | rows {table : Csv.Table} {header : List String} :
      w.table arguments.csvIn = .ok table → table.header = .ok header →
      (∀ row ∈ table.rows, ∀ s, ¬ Gives header row s) →
      FailsAt .rows .noData
  /-- No measurement in the csv has a place on the scale. -/
  | scale {table : Csv.Table} {header : List String} :
      w.table arguments.csvIn = .ok table → table.header = .ok header →
      (∀ row ∈ table.rows, ∀ s, Gives header row s →
        arguments.options.scale.admits s.throughput = false) →
      FailsAt .scale .noData
  | directory {directory : Path} {fault : FileFault} :
      w.missingDirectory? output = some directory →
      (w.files.makeDirectories w.workingDirectory directory).2 = some fault →
      FailsAt .directory (.outputDirectory directory fault)
  /-- A graphic fails where its drawing breaks off, whatever becomes of what was drawn. -/
  | brokenOff {results : Results Float} {layout : Layout Float} {cause : String} {remains : Bytes} :
      output.hasExtension "svg" = true →
      (w.reading arguments.csvIn).value = .ok results →
      (Layout.ofResults arguments.options results).value = .ok layout →
      w.brokenGraphic layout arguments.options.figure.pixels.1 arguments.options.figure.pixels.2 =
        some (cause, remains) →
      FailsAt .chart (.drawing cause)
  /-- One whose drawing does not break off fails for its place alone. -/
  | graphic {fault : FileFault} :
      output.hasExtension "svg" = true →
      (∀ results layout, (w.reading arguments.csvIn).value = .ok results →
        (Layout.ofResults arguments.options results).value = .ok layout →
        w.brokenGraphic layout arguments.options.figure.pixels.1
          arguments.options.figure.pixels.2 = none) →
      (w.preparedFiles output).target w.workingDirectory output = .error fault →
      FailsAt .chart (.drawing (drawingCause fault))
  /-- An image can also fail for what the rasteriser makes of the layout. -/
  | image {results : Results Float} {layout : Layout Float} {failure : Failure}
      {files : FileTree} :
      output.hasExtension "svg" = false →
      (w.reading arguments.csvIn).value = .ok results →
      (Layout.ofResults arguments.options results).value = .ok layout →
      w.Draws (w.preparedFiles output) output layout arguments.options.figure.pixels
        (.error failure) files →
      FailsAt .chart failure

/-- Nothing is wrong with a stage. -/
def Passes (stage : Stage) : Prop := ∀ failure, ¬ w.FailsAt arguments output stage failure

/-- Nothing is wrong with any stage before. -/
def Reaches (stage : Stage) : Prop :=
  ∀ earlier : Stage, earlier.number < stage.number → w.Passes arguments output earlier

variable {w arguments output} {stage : Stage} {failure : Failure}

theorem Reaches.mono {earlier : Stage} (h : w.Reaches arguments output stage)
    (before : earlier.number ≤ stage.number) : w.Reaches arguments output earlier := by
  intro first less
  exact h first (Nat.lt_of_lt_of_le less before)

theorem FailsAt.exitCode (h : w.FailsAt arguments output stage failure) :
    failure.exitCode = stage.exitCode := by
  cases h with
  | image _ _ _ draws => exact draws.exitCode
  | _ => rfl

/-! ## What nothing being wrong means -/

theorem exists_table (h : w.Passes arguments output .opening) :
    ∃ table, w.table arguments.csvIn = .ok table := by
  cases opened : w.table arguments.csvIn with
  | ok table => exact ⟨table, rfl⟩
  | error fault =>
    by_cases absent : fault = .notFound
    · exact absurd (.notFound (absent ▸ opened)) (h _)
    · exact absurd (.unreadable opened absent) (h _)

theorem exists_header (h : w.Passes arguments output .header) {table : Csv.Table}
    (opened : w.table arguments.csvIn = .ok table) : ∃ header, table.header = .ok header := by
  cases headed : table.header with
  | ok header => exact ⟨header, rfl⟩
  | error fault => exact absurd (.header opened headed) (h _)

theorem present_of_passes (h : w.Passes arguments output .columns) {table : Csv.Table}
    {header : List String} (opened : w.table arguments.csvIn = .ok table)
    (headed : table.header = .ok header) : Columns.missingNames header = [] := by
  refine List.filter_eq_nil_iff.2 fun name required absent => ?_
  have absent : name ∉ header := by simpa using absent
  exact h _ (.columns opened headed ⟨name, required, absent⟩)

theorem whole_of_passes (h : w.Passes arguments output .reading) {table : Csv.Table}
    (opened : w.table arguments.csvIn = .ok table) : Csv.brokenOff? table.rows = none := by
  cases broken : Csv.brokenOff? table.rows with
  | none => rfl
  | some cause =>
    obtain ⟨header, rows⟩ := table
    obtain ⟨before, after, rfl, none⟩ := Csv.exists_of_brokenOff?_eq_some broken
    exact absurd (.reading opened none) (h _)

/-! ## Reading -/

theorem value_reading (csv : Path) :
    (w.reading csv).value =
      match w.table csv with
      | .error .notFound => .error (.csvNotFound csv)
      | .error fault => .error (.unreadable csv fault)
      | .ok table => (Results.ofTable table).value := by
  unfold reading table
  cases w.read csv with
  | error fault => cases fault <;> rfl
  | ok source => rfl

theorem value_reading_of_table {csv : Path} {table : Csv.Table} (opened : w.table csv = .ok table) :
    (w.reading csv).value = (Results.ofTable table).value := by
  rw [value_reading, opened]

/-- The measurements of a table whose header is in order, and what it comes to if it was read to its
end. -/
theorem exists_samples {table : Csv.Table} {header : List String}
    (headed : table.header = .ok header) (present : Columns.missingNames header = []) :
    ∃ samples, (∀ s, s ∈ samples ↔ ∃ row ∈ table.rows, Gives header row s) ∧
      (Results.ofTable table).value =
        match Csv.brokenOff? table.rows with
        | some cause => .error (.csv (.unreadable cause))
        | none =>
          if samples.isEmpty then .error .noData else .ok (Results.ofSamples samples).sorted := by
  obtain ⟨_, rows⟩ := table
  obtain rfl : _ = _ := headed
  obtain ⟨samples, unique, mem⟩ := Results.exists_accepted present rows
  exact ⟨samples, mem, Results.value_ofTable present ((unique samples).2 rfl)⟩

/-- Nothing is drawn of a csv that fails at a stage up to the one that looks at its rows. -/
theorem unread_of_failsAt (reaches : w.Reaches arguments output stage)
    (fails : w.FailsAt arguments output stage failure) (early : stage.number ≤ 5) :
    (w.reading arguments.csvIn).value = .error failure := by
  cases fails with
  | notFound absent => rw [value_reading, absent]
  | @unreadable fault opened other =>
    rw [value_reading, opened]
    cases fault <;> first | rfl | exact absurd rfl other
  | @header table fault opened headed =>
    rw [value_reading_of_table opened]
    simp only [Results.ofTable, headed]
  | @columns table header opened headed missing =>
    obtain ⟨name, required, absent⟩ := missing
    have some : Columns.missingNames header ≠ [] :=
      List.ne_nil_of_mem (List.mem_filter.2 ⟨required, by simpa using absent⟩)
    obtain ⟨_, rows⟩ := table
    obtain rfl : _ = _ := headed
    rw [value_reading_of_table opened, Results.ofTable_of_missing some]
    rfl
  | @reading before after header cause opened none =>
    obtain ⟨header, headed⟩ := exists_header (reaches .header (by decide)) opened
    have present := present_of_passes (reaches .columns (by decide)) opened headed
    obtain ⟨samples, -, value⟩ := exists_samples headed present
    have broken : Csv.brokenOff? (before ++ .brokenOff cause :: after) = some cause :=
      Csv.brokenOff?_append_cons none
    rw [value_reading_of_table opened, value, broken]
  | @rows table header opened headed nothing =>
    have present := present_of_passes (reaches .columns (by decide)) opened headed
    have whole := whole_of_passes (reaches .reading (by decide)) opened
    obtain ⟨samples, mem, value⟩ := exists_samples headed present
    have empty : samples = [] := by
      refine List.eq_nil_iff_forall_not_mem.2 fun s inSamples => ?_
      obtain ⟨row, inRows, given⟩ := (mem s).1 inSamples
      exact nothing row inRows s given
    rw [value_reading_of_table opened, value, whole, empty]
    rfl
  | scale | directory | brokenOff | graphic | image => simp [Stage.number] at early

/-- What is known once the rows have been read. -/
theorem exists_results (reaches : w.Reaches arguments output .scale) :
    ∃ table header samples results, w.table arguments.csvIn = .ok table ∧
      table.header = .ok header ∧
      (∀ s, s ∈ samples ↔ ∃ row ∈ table.rows, Gives header row s) ∧
      (w.reading arguments.csvIn).value = .ok results ∧
      Results.HoldsByThreads samples results := by
  obtain ⟨table, opened⟩ := exists_table (reaches .opening (by decide))
  obtain ⟨header, headed⟩ := exists_header (reaches .header (by decide)) opened
  have present := present_of_passes (reaches .columns (by decide)) opened headed
  have whole := whole_of_passes (reaches .reading (by decide)) opened
  obtain ⟨samples, mem, value⟩ := exists_samples headed present
  have some : samples.isEmpty = false := by
    refine Bool.eq_false_iff.2 fun empty => ?_
    refine reaches .rows (by decide) _ (.rows opened headed fun row inRows s given => ?_)
    have inSamples := (mem s).2 ⟨row, inRows, given⟩
    rw [List.isEmpty_iff.1 empty] at inSamples
    cases inSamples
  refine ⟨table, header, samples, (Results.ofSamples samples).sorted, opened, headed, mem, ?_,
    (Results.holds_ofSamples samples).sorted⟩
  rw [value_reading_of_table opened, value, whole]
  simp [some]

/-! ## Laying out and drawing -/

/-- There is no layout exactly if no measurement in the csv has a place on the scale. -/
theorem noData_iff_failsAt_scale (reaches : w.Reaches arguments output .scale)
    {results : Results Float} (read : (w.reading arguments.csvIn).value = .ok results) :
    (Layout.ofResults arguments.options results).value = .error .noData ↔
      w.FailsAt arguments output .scale .noData := by
  obtain ⟨table, header, samples, others, opened, headed, mem, read', holds⟩ :=
    exists_results reaches
  obtain rfl := Except.ok.inj (read.symm.trans read')
  have admits : (Layout.ofResults arguments.options results).value = .error .noData ↔
      ∀ s ∈ samples, arguments.options.scale.admits s.throughput = false :=
    Layout.value_ofResults_eq_noData_iff.trans holds.forall_points_iff
  rw [admits]
  constructor
  · intro masked
    exact .scale opened headed fun row inRows s given => masked s ((mem s).2 ⟨row, inRows, given⟩)
  · intro fails s inSamples
    cases fails with | @scale table' header' opened' headed' masked
    obtain rfl := Except.ok.inj (opened.symm.trans opened')
    obtain rfl := Except.ok.inj (headed.symm.trans headed')
    obtain ⟨row, inRows, given⟩ := (mem s).1 inSamples
    exact masked row inRows s given

/-- What is known once the chart has been laid out. -/
theorem exists_layout (reaches : w.Reaches arguments output .directory) :
    ∃ results layout, (w.reading arguments.csvIn).value = .ok results ∧
      (Layout.ofResults arguments.options results).value = .ok layout := by
  have before : w.Reaches arguments output .scale := reaches.mono (by decide)
  obtain ⟨-, -, -, results, -, -, -, read, -⟩ := exists_results before
  have drawn : (Layout.ofResults arguments.options results).value ≠ .error .noData := fun noData =>
    reaches .scale (by decide) _ ((noData_iff_failsAt_scale before read).1 noData)
  obtain ⟨layout, laidOut, -⟩ := Layout.exists_of_value_ofResults_ne drawn
  exact ⟨results, layout, read, laidOut⟩

theorem directoryFailure?_eq_some_iff :
    w.directoryFailure? output = some failure ↔ w.FailsAt arguments output .directory failure := by
  simp only [directoryFailure?, Option.bind_eq_some_iff, Option.map_eq_some_iff]
  constructor
  · rintro ⟨directory, missing, fault, unmade, rfl⟩
    exact .directory missing unmade
  · intro fails
    cases fails with | directory missing unmade
    exact ⟨_, missing, _, unmade, rfl⟩

theorem directoryFailure?_eq_none (h : w.Passes arguments output .directory) :
    w.directoryFailure? output = none :=
  Option.eq_none_iff_forall_ne_some.2 fun failure some =>
    h failure (directoryFailure?_eq_some_iff.1 some)

/-- A drawing can end in one way only. -/
theorem Draws.unique {t files files' : FileTree} {layout : Layout Float} {size : Nat × Nat}
    {outcome outcome' : Except Failure Unit} (h : w.Draws t output layout size outcome files)
    (h' : w.Draws t output layout size outcome' files') : outcome = outcome' ∧ files = files' := by
  cases h <;> cases h' <;> simp_all

/-- The last stage can fail in the one way in which the drawing ends. -/
theorem Draws.eq_error_of_failsAt {results : Results Float} {layout : Layout Float}
    {outcome : Except Failure Unit} {files : FileTree}
    (read : (w.reading arguments.csvIn).value = .ok results)
    (laidOut : (Layout.ofResults arguments.options results).value = .ok layout)
    (h : w.Draws (w.preparedFiles output) output layout arguments.options.figure.pixels outcome
      files)
    (fails : w.FailsAt arguments output .chart failure) : outcome = .error failure := by
  cases fails with
  | @brokenOff _ _ _ remains svg read' laidOut' broken =>
    obtain rfl := Except.ok.inj (read.symm.trans read')
    obtain rfl := Except.ok.inj (laidOut.symm.trans laidOut')
    cases target : (w.preparedFiles output).target w.workingDirectory output with
    | ok place => exact (h.unique (.brokenOff svg broken target)).1
    | error fault => exact (h.unique (.unplaced svg broken target)).1
  | graphic svg whole untargeted =>
    exact (h.unique (.noGraphic svg (whole _ _ read laidOut) untargeted)).1
  | image _ read' laidOut' draws =>
    obtain rfl := Except.ok.inj (read.symm.trans read')
    obtain rfl := Except.ok.inj (laidOut.symm.trans laidOut')
    exact (h.unique draws).1

/-- A drawing that ends with a failure is a failure of the last stage. -/
theorem Draws.failsAt {results : Results Float} {layout : Layout Float} {files : FileTree}
    (read : (w.reading arguments.csvIn).value = .ok results)
    (laidOut : (Layout.ofResults arguments.options results).value = .ok layout)
    (h : w.Draws (w.preparedFiles output) output layout arguments.options.figure.pixels
      (.error failure) files) : w.FailsAt arguments output .chart failure := by
  cases svg : output.hasExtension "svg" with
  | false => exact .image svg read laidOut h
  | true =>
    cases h with
    | brokenOff _ broken | unplaced _ broken => exact .brokenOff svg read laidOut broken
    | noGraphic _ whole untargeted =>
      refine .graphic svg (fun _ _ read' laidOut' => ?_) untargeted
      obtain rfl := Except.ok.inj (read.symm.trans read')
      obtain rfl := Except.ok.inj (laidOut.symm.trans laidOut')
      exact whole
    | unrasterised bitmap | noImage bitmap | wrongImage bitmap =>
      rw [svg] at bitmap
      cases bitmap

/-- A chart that fails at one of the last stages ends with the failure of that stage. -/
theorem Charts.eq_error_of_failsAt {results : Results Float} {outcome : Except Failure Unit}
    {events : List Event} {files : FileTree} (reaches : w.Reaches arguments output stage)
    (read : (w.reading arguments.csvIn).value = .ok results)
    (h : w.Charts w.files arguments.options output results outcome events files)
    (fails : w.FailsAt arguments output stage failure) (late : 5 < stage.number) :
    outcome = .error failure := by
  cases stage with
  | opening | header | columns | reading | rows => simp [Stage.number] at late
  | scale =>
    obtain rfl : failure = .noData := by
      cases fails
      rfl
    have noData := (noData_iff_failsAt_scale reaches read).2 fails
    cases h with
    | noLayout noLayout => rw [Except.error.inj (noLayout.symm.trans noData)]
    | noDirectory laidOut => simp [laidOut] at noData
    | drawn laidOut => simp [laidOut] at noData
  | directory =>
    obtain ⟨_, layout, read', laidOut⟩ := exists_layout reaches
    obtain rfl := Except.ok.inj (read.symm.trans read')
    have unmade := directoryFailure?_eq_some_iff.2 fails
    cases h with
    | noLayout noLayout => simp [laidOut] at noLayout
    | noDirectory _ unmade' => rw [Option.some.inj (unmade.symm.trans unmade')]
    | drawn _ made => simp [unmade] at made
  | chart =>
    obtain ⟨_, layout, read', laidOut⟩ := exists_layout (reaches.mono (by decide))
    obtain rfl := Except.ok.inj (read.symm.trans read')
    have made := directoryFailure?_eq_none (reaches .directory (by decide))
    cases h with
    | noLayout noLayout => simp [laidOut] at noLayout
    | noDirectory _ unmade => simp [made] at unmade
    | drawn laidOut' _ draws =>
      obtain rfl := Except.ok.inj (laidOut.symm.trans laidOut')
      exact draws.eq_error_of_failsAt read laidOut fails

/-! ## How runs end -/

/-- A run has failed: with a status, and with a message that is the one thing that it said. Nothing
was printed. -/
structure EndsWith (w : Host) (status : Nat) (message : String) (ended : Nat × Host) : Prop where
  status : ended.1 = status
  complained : ended.2.diagnostics = w.diagnostics ++ [message]
  printed : ended.2.output = w.output

theorem endsWith_of_failsAt (saving : arguments.output = some output)
    (reaches : w.Reaches arguments output stage)
    (fails : w.FailsAt arguments output stage failure) :
    w.EndsWith stage.exitCode failure.message
      (StateT.run (conclude (m := Session) arguments) w) := by
  rw [← fails.exitCode]
  by_cases early : stage.number ≤ 5
  case pos =>
    rw [run_conclude_unread w (unread_of_failsAt reaches fails early)]
    exact ⟨rfl, rfl, rfl⟩
  case neg =>
    have late : 5 < stage.number := Nat.lt_of_not_le early
    obtain ⟨-, -, -, results, -, -, -, read, -⟩ := exists_results (reaches.mono late)
    obtain ⟨outcome, events, files, charts, run⟩ := w.exists_run_conclude_saving read saving
    obtain rfl := charts.eq_error_of_failsAt reaches read fails late
    rw [run]
    exact ⟨rfl, rfl, rfl⟩

/-- The bytes of a chart: a scalable graphic if the name of the output says so, or else an image of
what the rasteriser gives. -/
def IsChart (w : Host) (output : Path) (layout : Layout Float) (size : Nat × Nat)
    (content : Bytes) : Prop :=
  if output.hasExtension "svg" then
    content = Utf8.encode (Drawing.ofLayout layout size.1 size.2).toSvg
  else
    ∃ samples, w.rasteriser layout size.1 size.2 = .ok samples ∧
      content = Png.encode pixelsPerMetre ⟨size.1, size.2, samples⟩

theorem Draws.exists_content {t files : FileTree} {layout : Layout Float} {size : Nat × Nat}
    (h : w.Draws t output layout size (.ok ()) files) :
    ∃ place content, w.IsChart output layout size content ∧
      files.resolve w.workingDirectory output = .ok (place, .file content) := by
  cases h with
  | @graphic place svg whole target =>
    exact ⟨place, _, by simp [IsChart, svg], FileTree.resolve_put target⟩
  | @image samples place bitmap shown target =>
    refine ⟨place, _, ?_, FileTree.resolve_put target⟩
    simp only [IsChart, bitmap, Bool.false_eq_true, if_false]
    exact ⟨samples, shown, rfl⟩

/-- A run has ended with its chart in place, and has said so. -/
structure EndsSaved (w : Host) (arguments : Arguments) (output : Path) (ended : Nat × Host) :
    Prop where
  status : ended.1 = 0
  printed : ended.2.output = w.output ++ ["Saved figure to " ++ output.text]
  complained : ended.2.diagnostics = w.diagnostics
  chart : ∃ results layout place content, (w.reading arguments.csvIn).value = .ok results ∧
    (Layout.ofResults arguments.options results).value = .ok layout ∧
    w.IsChart output layout arguments.options.figure.pixels content ∧
    ended.2.files.resolve w.workingDirectory output = .ok (place, .file content)

theorem endsSaved_of_passes (saving : arguments.output = some output)
    (passes : ∀ stage, w.Passes arguments output stage) :
    w.EndsSaved arguments output (StateT.run (conclude (m := Session) arguments) w) := by
  have reaches : w.Reaches arguments output .directory := fun earlier _ => passes earlier
  obtain ⟨results, layout, read, laidOut⟩ := exists_layout reaches
  obtain ⟨outcome, events, files, charts, run⟩ := w.exists_run_conclude_saving read saving
  have made := directoryFailure?_eq_none (passes .directory)
  cases charts with
  | noLayout noLayout => simp [laidOut] at noLayout
  | noDirectory _ unmade => simp [made] at unmade
  | drawn laidOut' _ draws =>
    obtain rfl := Except.ok.inj (laidOut.symm.trans laidOut')
    cases outcome with
    | error failure => exact absurd (draws.failsAt read laidOut) (passes .chart _)
    | ok =>
      obtain ⟨place, content, chart, found⟩ := draws.exists_content
      rw [run]
      exact ⟨rfl, rfl, rfl, results, layout, place, content, read, laidOut, chart, found⟩

/-- If anything is wrong, there is a first stage where something is wrong. -/
theorem exists_first (fails : w.FailsAt arguments output stage failure) :
    ∃ first failure, w.Reaches arguments output first ∧
      w.FailsAt arguments output first failure := by
  induction number : stage.number using Nat.strongRecOn generalizing stage failure with
  | ind n ih =>
    by_cases reaches : w.Reaches arguments output stage
    case pos => exact ⟨stage, failure, reaches, fails⟩
    case neg =>
      simp only [Reaches, Passes, Classical.not_forall, Classical.not_not] at reaches
      obtain ⟨earlier, less, other, fails⟩ := reaches
      exact ih _ (number ▸ less) fails rfl

/-- A command line is refused or answered before anything else. A run that it starts ends by the
first stage where something is wrong, whatever else is: with the status of that stage and with the
message of its failure. If nothing is wrong, the chart is at its output in the end. Something is
printed if and only if the status is zero. -/
theorem ended_by_first_failure (argv : List Bytes) (w : Host) :
    (∀ text, Arguments.ofCommandLine argv = .error (.help text) ∨
        Arguments.ofCommandLine argv = .error (.version text) →
      w.ended argv = (0, w.saying text)) ∧
    (∀ fault, Arguments.ofCommandLine argv = .error fault →
      (∀ text, fault ≠ .help text ∧ fault ≠ .version text) →
      w.ended argv = (1, w.complaining fault.message)) ∧
    ∀ arguments output, Arguments.ofCommandLine argv = .ok arguments →
      arguments.output = some output →
      (∀ stage failure, w.Reaches arguments output stage →
        w.FailsAt arguments output stage failure →
        w.EndsWith stage.exitCode failure.message (w.ended argv)) ∧
      ((∀ stage, w.Passes arguments output stage) →
        w.EndsSaved arguments output (w.ended argv)) ∧
      ((w.ended argv).1 = 0 ↔ ∀ stage, w.Passes arguments output stage) ∧
      ((w.ended argv).2.output ≠ w.output ↔ (w.ended argv).1 = 0) := by
  refine ⟨?answered, ?refused, fun arguments output accepted saving => ?accepted⟩
  case answered =>
    rintro text (help | version)
    · exact ended_of_refused w help
    · exact ended_of_refused w version
  case refused =>
    intro fault refused other
    rw [ended_of_refused w refused]
    cases fault with
    | help text => exact absurd rfl (other text).1
    | version text => exact absurd rfl (other text).2
    | _ => rfl
  case accepted =>
    rw [ended_of_accepted w accepted]
    have failed {stage failure} := @endsWith_of_failsAt w arguments output stage failure saving
    have saved := @endsSaved_of_passes w arguments output saving
    -- Either nothing is wrong or there is a first stage where something is.
    by_cases passes : ∀ stage, w.Passes arguments output stage
    case pos =>
      have saved' := saved passes
      refine ⟨fun _ _ => failed, saved, ⟨fun _ => passes, fun _ => saved'.status⟩,
        ⟨fun _ => saved'.status, fun _ => ?_⟩⟩
      rw [saved'.printed]
      simp
    case neg =>
      simp only [Passes, Classical.not_forall, Classical.not_not] at passes
      obtain ⟨stage, failure, fails⟩ := passes
      obtain ⟨first, cause, reaches, fails'⟩ := exists_first fails
      have ends := failed reaches fails'
      have nonzero : (StateT.run (conclude (m := Session) arguments) w).1 ≠ 0 := by
        rw [ends.status]
        cases first <;> decide
      refine ⟨fun _ _ => failed, saved, ⟨fun zero => absurd zero nonzero, fun all => ?_⟩,
        ⟨fun printed => absurd ends.printed printed, fun zero => absurd zero nonzero⟩⟩
      exact absurd fails (all stage failure)

/-- A csv without its throughputs and one with a sample. -/
def twoTables : FileTree :=
  ⟨[([Utf8.encode "short.csv"], .file (Utf8.encode "lock,threads\nA,1\n")),
    ([Utf8.encode "r.csv"], .file (Utf8.encode "lock,threads,ops_s\nA,1,5\n"))]⟩

/-- A request, a refused word, a run in which a column is missing and the directory of the output
cannot be made as well, and one in which nothing is wrong. -/
theorem ended_by_first_failure_columns :
    let w := bare twoTables
    let argv := fun csv output => ["lock_plot", "--csv-in", csv, "-o", output].map Utf8.encode
    let blocked := Path.ofString "short.csv/out/chart.svg"
    let saved := Path.ofString "out/chart.svg"
    w.ended (["lock_plot", "--help"].map Utf8.encode) = (0, w.saying (Help.text "lock_plot")) ∧
    w.ended (["lock_plot", "r.csv"].map Utf8.encode) =
      (1, w.complaining (UsageError.unknownArgument "r.csv").message) ∧
    (∃ arguments, Arguments.ofCommandLine (argv "short.csv" "short.csv/out/chart.svg") =
        .ok arguments ∧
      arguments.output = some blocked ∧ w.Reaches arguments blocked .columns ∧
      w.FailsAt arguments blocked .columns (.missingColumns ["ops_s"]) ∧
      w.FailsAt arguments blocked .directory
        (.outputDirectory (Path.ofString "short.csv/out") .notADirectory) ∧
      w.EndsWith 2 "CSV missing required columns: ops_s"
        (w.ended (argv "short.csv" "short.csv/out/chart.svg"))) ∧
    ∃ arguments, Arguments.ofCommandLine (argv "r.csv" "out/chart.svg") = .ok arguments ∧
      arguments.output = some saved ∧ (∀ stage, w.Passes arguments saved stage) ∧
      w.EndsSaved arguments saved (w.ended (argv "r.csv" "out/chart.svg")) := by
  intro w argv blocked saved
  refine ⟨?help, ?refused, ?columns, ?saved⟩
  case help => exact (ended_by_first_failure _ w).1 _ (.inl rfl)
  case refused =>
    exact (ended_by_first_failure _ w).2.1 (.unknownArgument "r.csv") rfl fun text => by simp
  case columns =>
    obtain ⟨arguments, accepted, csv, saving⟩ := exists_accepted_of_map_eq
      (show (Arguments.ofCommandLine (argv "short.csv" "short.csv/out/chart.svg")).toOption.map
          (fun a => (a.csvIn, a.output)) = some (Path.ofString "short.csv", some blocked) by
        decide +kernel)
    have opened : w.table arguments.csvIn =
        .ok (Csv.Table.ofBytes (Utf8.encode "lock,threads\nA,1\n")) := by
      rw [csv]
      rfl
    have headed : (Csv.Table.ofBytes (Utf8.encode "lock,threads\nA,1\n")).header =
        .ok ["lock", "threads"] := rfl
    have reaches : w.Reaches arguments blocked .columns := by
      intro earlier less failure fails
      cases fails with
      | notFound absent | unreadable absent => simp [opened] at absent
      | header opened' faulty =>
        obtain rfl := Except.ok.inj (opened.symm.trans opened')
        simp [headed] at faulty
      | _ => simp [Stage.number] at less
    have fails : w.FailsAt arguments blocked .columns (.missingColumns ["ops_s"]) :=
      .columns opened headed (by decide)
    have unmade : w.FailsAt arguments blocked .directory
        (.outputDirectory (Path.ofString "short.csv/out") .notADirectory) :=
      .directory (by decide +kernel) (by decide +kernel)
    have ends := (ended_by_first_failure _ w).2.2 arguments blocked accepted saving
    exact ⟨arguments, accepted, saving, reaches, fails, unmade, ends.1 .columns _ reaches fails⟩
  case saved =>
    obtain ⟨arguments, accepted, -, saving⟩ := exists_accepted_of_map_eq
      (show (Arguments.ofCommandLine (argv "r.csv" "out/chart.svg")).toOption.map
          (fun a => (a.csvIn, a.output)) = some (Path.ofString "r.csv", some saved) by
        decide +kernel)
    have status : (w.ended (argv "r.csv" "out/chart.svg")).1 = 0 := by decide +kernel
    obtain ⟨-, ends, passes, -⟩ :=
      (ended_by_first_failure (argv "r.csv" "out/chart.svg") w).2.2 arguments saved accepted saving
    exact ⟨arguments, accepted, saving, passes.1 status, ends (passes.1 status)⟩

end Host

end ContentionChart
