import ContentionChart.Proofs.DataFailures
import ContentionChart.Proofs.Encoding

/-!
# Diagnostics

The words of the program's own in a diagnostic have no line break. Paths and the texts of foreign
errors are passed on as they are, so that a line break in the name of a file breaks the line.

## Main definitions

* `Text.SingleLine` — a text has no line break.
* `Failure.path?`, `Failure.foreign?` — the path and the text of a foreign error in a failure.
* `Host.FailsWith` — how a run fails.
* `Host.Diagnoses` — what is known about the diagnostic of a run that failed.

## Main statements

* `Failure.singleLine_message_iff` — which diagnostics are in one line.
* `Host.diagnoses_of_failed` — the diagnostics of all runs.
-/

namespace ContentionChart

open Machine Run

/-! ## Single lines -/

namespace Text

variable {s t : String}

/-- The characters at which a line ends: line feed, line tabulation, form feed and carriage return,
the next line, and the separators of lines and of paragraphs. -/
def isLineBreak (c : Char) : Bool :=
  let n := c.toNat
  (0xa ≤ n && n ≤ 0xd) || n == 0x85 || n == 0x2028 || n == 0x2029

/-- A text without a line break. -/
def SingleLine (s : String) : Prop := ∀ c ∈ s.toList, isLineBreak c = false

instance : DecidablePred SingleLine := fun s =>
  decidable_of_iff (s.toList.all fun c => !isLineBreak c) (by simp [SingleLine])

@[simp] theorem singleLine_append : SingleLine (s ++ t) ↔ SingleLine s ∧ SingleLine t := by
  simp only [SingleLine, String.toList_append, List.forall_mem_append]

@[simp] theorem singleLine_repr (n : Nat) : SingleLine n.repr := by
  intro c mem
  rw [Nat.toList_repr] at mem
  have digit := Nat.isDigit_of_mem_toDigits (by decide) (by decide) mem
  rw [Char.isDigit_iff_toNat] at digit
  grind [isLineBreak]

theorem SingleLine.intercalate {separator : String} (line : SingleLine separator) {ss : List String}
    (lines : ∀ s ∈ ss, SingleLine s) : SingleLine (separator.intercalate ss) := by
  induction ss with
  | nil => simp [SingleLine]
  | cons s ss ih =>
    cases ss with
    | nil => simpa using lines
    | cons t ss =>
      obtain ⟨first, rest⟩ := List.forall_mem_cons.1 lines
      rw [String.intercalate_cons_cons, singleLine_append, singleLine_append]
      exact ⟨⟨first, line⟩, ih rest⟩

end Text

open Text (SingleLine)

/-! ## Texts of failures -/

/-- The text of a fault that is known by its text alone. -/
def FileFault.foreign? : FileFault → Option String
  | other text => some text
  | _ => none

def Csv.Fault.foreign? : Csv.Fault → Option String
  | unreadable cause => some cause
  | undecodable .. => none

def Image.Fault.foreign? : Image.Fault → Option String
  | file cause => cause.foreign?
  | _ => none

@[simp] theorem FileFault.singleLine_message_iff (fault : FileFault) :
    SingleLine fault.message ↔ ∀ text ∈ fault.foreign?, SingleLine text := by
  cases fault with
  | other text => simp [message, foreign?]
  | _ => simpa [foreign?] using (by decide : SingleLine (FileFault.message _))

@[simp] theorem Csv.Fault.singleLine_message_iff (fault : Csv.Fault) :
    SingleLine fault.message ↔ ∀ text ∈ fault.foreign?, SingleLine text := by
  unfold message
  cases fault with
  | unreadable cause => simp [foreign?]
  | undecodable record start field validLength =>
    have words : SingleLine "CSV parse error: record " ∧ SingleLine " (line " ∧
        SingleLine ", field: " ∧ SingleLine ", byte: " ∧
        SingleLine "): invalid utf-8: invalid UTF-8 in field " ∧
        SingleLine " near byte index " := by decide
    simp [foreign?, words]

@[simp] theorem Image.Fault.singleLine_message_iff (fault : Image.Fault) :
    SingleLine fault.message ↔ ∀ text ∈ fault.foreign?, SingleLine text := by
  unfold message
  cases fault with
  | file cause => simp [foreign?]
  | zeroWidth => simpa [foreign?] using (by decide : SingleLine "Zero width not allowed")
  | zeroHeight => simpa [foreign?] using (by decide : SingleLine "Zero height not allowed")
  | wrongSize expected actual =>
    have words : SingleLine "wrong data size, expected " ∧ SingleLine " got " := by decide
    simp [foreign?, words]

namespace Failure

/-- The path that is named in a diagnostic. -/
def path? : Failure → Option Path
  | csvNotFound path | unreadable path _ | outputDirectory path _ | image path _ => some path
  | missingColumns _ | csv _ | noData | drawing _ | temporaryImage _ | viewer .. => none

/-- The text of a foreign error that is passed on in a diagnostic. -/
def foreign? : Failure → Option String
  | unreadable _ cause | outputDirectory _ cause | temporaryImage cause | viewer _ cause =>
    cause.foreign?
  | csv fault => fault.foreign?
  | image _ cause => cause.foreign?
  | drawing cause => some cause
  | csvNotFound _ | missingColumns _ | noData => none

/-- The columns and the program that a failure names are those that are asked for. -/
def KnownNames : Failure → Prop
  | missingColumns names => ∀ name ∈ names, name ∈ Columns.requiredNames
  | viewer program _ => program = Run.viewer
  | _ => True

variable {failure : Failure}

theorem message_ne_empty (failure : Failure) : failure.message ≠ "" := by
  unfold message
  cases failure <;> simp

/-- A diagnostic is in one line if the path and the foreign text in it are. -/
theorem singleLine_message_iff (known : failure.KnownNames) :
    SingleLine failure.message ↔
      (∀ path ∈ failure.path?, SingleLine path.text) ∧
        ∀ text ∈ failure.foreign?, SingleLine text := by
  unfold message
  cases failure with
  | csvNotFound path =>
    have words : SingleLine "CSV not found: " := by decide
    simp [path?, foreign?, words]
  | unreadable path cause =>
    have words : SingleLine "could not read " ∧ SingleLine ": " := by decide
    simp [path?, foreign?, words]
  | missingColumns names =>
    have words : SingleLine "CSV missing required columns: " ∧ SingleLine "," ∧
        ∀ name ∈ Columns.requiredNames, SingleLine name := by decide
    have lines := words.2.1.intercalate fun name mem => words.2.2 name (known name mem)
    simp [path?, foreign?, words, lines]
  | csv fault =>
    have words : SingleLine "could not parse CSV: " := by decide
    simp [path?, foreign?, words]
  | noData => simpa [path?, foreign?] using (by decide : SingleLine "No data found in CSV")
  | outputDirectory path cause =>
    have words : SingleLine "could not create output directory " ∧ SingleLine ": " := by decide
    simp [path?, foreign?, words]
  | drawing cause =>
    have words : SingleLine "chart rendering failed: " ∧
        SingleLine " (the plotting backend needs a sans-serif system font, e.g." ∧
        SingleLine " install fontconfig and fonts-dejavu)" := by decide
    simp [path?, foreign?, words]
  | image path cause =>
    have words : SingleLine "could not write " ∧ SingleLine ": " := by decide
    simp [path?, foreign?, words]
  | temporaryImage cause =>
    have words : SingleLine "could not create a temporary image: " := by decide
    simp [path?, foreign?, words]
  | viewer program cause =>
    have words : SingleLine "could not launch image viewer '" ∧ SingleLine "': " ∧
        SingleLine " (install it, or pass --output to save the chart)" := by decide
    have name : SingleLine program := by
      obtain rfl : program = Run.viewer := known
      decide
    simp [path?, foreign?, words, name]

end Failure

/-! ## Failures of runs -/

theorem Results.knownNames_of_ofTable {table : Csv.Table} {failure : Failure}
    (failed : (ofTable table).value = .error failure) :
    failure.KnownNames ∧ failure.path? = none := by
  unfold ofTable at failed
  split at failed
  case h_1 =>
    cases failed
    exact ⟨trivial, rfl⟩
  case h_2 header _ =>
    cases located : Columns.ofHeader header with
    | error missing =>
      simp only [located] at failed
      cases failed
      refine ⟨fun name mem => ?_, rfl⟩
      unfold Columns.ofHeader at located
      split at located
      · cases located
      · cases located
        exact (List.mem_filter.1 mem).1
    | ok columns =>
      simp only [located] at failed
      split at failed
      · cases failed
        exact ⟨trivial, rfl⟩
      · unfold ofEntries at failed
        dsimp only at failed
        split at failed <;> cases failed
        exact ⟨trivial, rfl⟩

namespace Host

variable (w : Host) (arguments : Arguments)

/-- Where the chart of a run goes: to the output, or into a new image. -/
inductive IsOutput : Path → Prop
  | saved {output : Path} (asked : arguments.output = some output) : IsOutput output
  | shown {place : Location} (unasked : arguments.output = none) (free : w.imagePlace = .ok place) :
      IsOutput (pathTo place)

/-- How a run fails: in reading, for want of a place for its image, in making its chart, or because
of the viewer. -/
inductive FailsWith : Failure → Prop
  | unread {failure : Failure} (unread : (w.reading arguments.csvIn).value = .error failure) :
      FailsWith failure
  | unplaced {fault : FileFault} (unasked : arguments.output = none)
      (full : w.imagePlace = .error fault) : FailsWith (.temporaryImage fault)
  | uncharted {t files : FileTree} {output : Path} {results : Results Float} {events : List Event}
      {failure : Failure} (goal : w.IsOutput arguments output)
      (charts : w.Charts t arguments.options output results (.error failure) events files) :
      FailsWith failure
  | unviewed {fault : FileFault} (unasked : arguments.output = none)
      (fails : w.viewerFault = some fault) : FailsWith (.viewer viewer fault)

variable {w arguments} {failure : Failure}

theorem failsWith_of_failed (failed : (w.run (perform arguments)).1 = .error failure) :
    w.FailsWith arguments failure := by
  cases read : (w.reading arguments.csvIn).value with
  | error other =>
    rw [run_perform_of_error w read] at failed
    cases failed
    exact .unread read
  | ok results =>
    have charts (t : FileTree) (output : Path) :=
      w.exists_run_writeChart (w.readingEvents arguments ++ [summaryOf arguments results]) t
        arguments.options output results
    cases asked : arguments.output with
    | some output =>
      obtain ⟨outcome, events, files, charts, run⟩ := charts w.files output
      rw [withFiles_reporting_files] at run
      rw [run_perform_saving w read asked, run_bind, run] at failed
      cases outcome with
      | ok => simp at failed
      | error other =>
        cases failed
        exact .uncharted (.saved asked) charts
    | none =>
      rw [run_perform_showing w read asked] at failed
      unfold display newImageFile at failed
      cases free : w.imagePlace with
      | error fault =>
        simp only [run_bind, run_newImage, imagePlace_reporting, free, run_throw] at failed
        cases failed
        exact .unplaced asked free
      | ok place =>
        obtain ⟨outcome, events, files, charts, run⟩ :=
          charts (w.files.put place (.file [])) (pathTo place)
        simp only [run_bind, run_newImage, imagePlace_reporting, free, files_reporting, run_pure,
          run] at failed
        cases outcome with
        | error other =>
          cases failed
          exact .uncharted (.shown asked free) charts
        | ok =>
          simp only [run_report, run_openViewer, run_check, reporting_withFiles,
            reporting_reporting, viewerFault_withFiles, viewerFault_reporting] at failed
          cases fails : w.viewerFault with
          | none => simp [fails, ending] at failed
          | some fault =>
            simp only [fails, ending, Option.map_some, Option.elim_some] at failed
            cases failed
            exact .unviewed asked fails

variable (w arguments)

/-- The paths that a diagnostic can name. -/
inductive MayName : Path → Prop
  | csv : MayName arguments.csvIn
  | output {output : Path} (goal : w.IsOutput arguments output) : MayName output
  | directory {output directory : Path} (goal : w.IsOutput arguments output)
      (parent : output.parent? = some directory) : MayName directory

/-- What a failure names is known to the program or comes from its arguments. -/
structure Names (failure : Failure) : Prop where
  known : failure.KnownNames
  paths : ∀ path ∈ failure.path?, w.MayName arguments path

variable {w arguments}

theorem Charts.names {t files : FileTree} {output : Path} {results : Results Float}
    {events : List Event} (goal : w.IsOutput arguments output)
    (charts : w.Charts t arguments.options output results (.error failure) events files) :
    w.Names arguments failure := by
  cases charts with
  | noLayout noLayout =>
    obtain rfl := Layout.eq_noData_of_ofResults noLayout
    exact ⟨trivial, nofun⟩
  | noDirectory _ unmade =>
    obtain ⟨directory, missing, unmade⟩ := Option.bind_eq_some_iff.1 unmade
    obtain ⟨fault, -, rfl⟩ := Option.map_eq_some_iff.1 unmade
    refine ⟨trivial, ?_⟩
    rintro _ ⟨⟩
    exact .directory goal (Option.filter_eq_some_iff.1 missing).1
  | drawn _ _ draws =>
    cases draws with
    | brokenOff | unplaced | noGraphic | unrasterised => exact ⟨trivial, nofun⟩
    | noImage | wrongImage =>
      refine ⟨trivial, ?_⟩
      rintro _ ⟨⟩
      exact .output goal

theorem FailsWith.names (fails : w.FailsWith arguments failure) : w.Names arguments failure := by
  cases fails with
  | unread unread =>
    unfold reading at unread
    split at unread
    · cases unread
      exact ⟨trivial, fun _ named => Option.some.inj named ▸ .csv⟩
    · cases unread
      exact ⟨trivial, fun _ named => Option.some.inj named ▸ .csv⟩
    · obtain ⟨known, none⟩ := Results.knownNames_of_ofTable unread
      exact ⟨known, by simp [none]⟩
  | unplaced => exact ⟨trivial, nofun⟩
  | uncharted goal charts => exact charts.names goal
  | unviewed => exact ⟨rfl, nofun⟩

/-- Something is said about a failure, and in one line exactly if the path in it has no line break.
The path is that of the csv, of the output or of its directory, and each byte of it that ends a line
breaks the diagnostic. -/
structure Diagnoses (w : Host) (arguments : Arguments) (failure : Failure) : Prop where
  nonempty : failure.message ≠ ""
  singleLine_iff : SingleLine failure.message ↔ ∀ path ∈ failure.path?, SingleLine path.text
  named : ∀ path ∈ failure.path?, w.MayName arguments path
  broken : ∀ path ∈ failure.path?, (∃ b ∈ path.bytes, 0xa ≤ b ∧ b ≤ 0xd) →
    ¬ SingleLine failure.message

/-- What is said about the failures of all runs, if the texts of foreign errors have no line
break. -/
theorem diagnoses_of_failed (failed : (w.run (perform arguments)).1 = .error failure)
    (foreign : ∀ text ∈ failure.foreign?, SingleLine text) : w.Diagnoses arguments failure := by
  obtain ⟨known, named⟩ := (failsWith_of_failed failed).names
  have singleLine_iff :
      SingleLine failure.message ↔ ∀ path ∈ failure.path?, SingleLine path.text :=
    (Failure.singleLine_message_iff known).trans (and_iff_left foreign)
  refine ⟨failure.message_ne_empty, singleLine_iff, named, ?broken⟩
  rintro path mem ⟨b, inPath, least, greatest⟩ line
  have least : 0xa ≤ b.toNat := least
  have greatest : b.toNat ≤ 0xd := greatest
  have inText := Utf8.mem_decodeLossy_of_ascii (by omega) inPath
  have unbroken := singleLine_iff.1 line path mem _ inText
  have isBreak : b.toNat = 0xa ∨ b.toNat = 0xb ∨ b.toNat = 0xc ∨ b.toNat = 0xd := by omega
  obtain number | number | number | number := isBreak <;>
    rw [number] at unbroken <;>
    cases unbroken

/-- A run that finds no csv, and one that finds none under a name with a line feed in it. -/
theorem diagnoses_of_failed_csvNotFound :
    let w := bare .empty
    let arguments (name : String) : Arguments := ⟨Path.ofString name, none, .standard, false⟩
    let failure (name : String) := Failure.csvNotFound (Path.ofString name)
    (∀ name ∈ ["runs/a.csv", "a\nb.csv"],
      (w.run (perform (arguments name))).1 = .error (failure name) ∧
        (∀ text ∈ (failure name).foreign?, SingleLine text) ∧
        w.Diagnoses (arguments name) (failure name)) ∧
      SingleLine (failure "runs/a.csv").message ∧ ¬ SingleLine (failure "a\nb.csv").message := by
  intro w arguments failure
  have failed : ∀ name ∈ ["runs/a.csv", "a\nb.csv"],
      (w.run (perform (arguments name))).1 = .error (failure name) := by
    decide +kernel
  have diagnoses (name : String) (mem : name ∈ ["runs/a.csv", "a\nb.csv"]) :=
    diagnoses_of_failed (failed name mem) nofun
  refine ⟨fun name mem => ⟨failed name mem, nofun, diagnoses name mem⟩, ?_, ?_⟩
  · exact (diagnoses _ (by simp)).singleLine_iff.2 (by decide +kernel)
  · exact (diagnoses _ (by simp)).broken _ rfl ⟨0xa, by decide +kernel, by decide, by decide⟩

/-- A diagnostic without a foreign text is not always in one line. -/
theorem not_singleLine_message_of_failed :
    ¬ ∀ (w : Host) (arguments : Arguments) (failure : Failure),
      (w.run (perform arguments)).1 = .error failure →
      (∀ text ∈ failure.foreign?, SingleLine text) → SingleLine failure.message := by
  intro singleLine
  let csv := Path.ofString "a\nb.csv"
  have failed : ((bare .empty).run (perform ⟨csv, none, .standard, false⟩)).1 =
      .error (.csvNotFound csv) := by
    decide +kernel
  have line := singleLine _ _ _ failed nofun
  revert line
  decide +kernel

end Host

end ContentionChart
