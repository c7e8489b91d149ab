import ContentionChart.Proofs.MadeDirectories
import ContentionChart.Proofs.Sessions

/-!
# Directories of outputs

Before a chart is written, the directory of the output is made with all that is missing above it.
Nothing else is touched, nothing is left to be done a second time, and it is reported if there was
anything to do.

## Main definitions

* `Path.LeadsThrough` — the places above the one that a path leads to.
* `Host.Prepared` — what becomes of a host when the directory of an output has been made.

## Main statements

* `Host.prepared_of_makeOutputDirectory` — the directory of an output is made, or something is in
  its way.
-/

namespace ContentionChart

open FileTree Run

namespace Path

/-- The places of the components of a path but for the last. -/
def LeadsThrough (workingDirectory : Location) (p : Path) (place : Location) : Prop :=
  ∃ k, 0 < k ∧ k < p.components.length ∧ place = p.placeAt workingDirectory k

variable {workingDirectory place : Location} {p q : Path}

theorem IsParent.passes_iff (parent : IsParent q p) :
    q.Passes workingDirectory place ↔ p.LeadsThrough workingDirectory place := by
  have length := parent.length_components
  refine exists_congr fun k => and_congr_right fun positive => ?_
  have inside : k ≤ q.components.length ↔ k < p.components.length := by omega
  rw [inside]
  refine and_congr_right fun below => ?_
  rw [parent.placeAt_eq (inside.2 below)]

theorem not_leadsThrough_place : ¬p.LeadsThrough workingDirectory (p.place workingDirectory) := by
  rintro ⟨k, -, below, same⟩
  have shorter := congrArg List.length (List.append_cancel_left same)
  rw [List.length_take] at shorter
  omega

/-- Only a path with a parent that is not empty leads through anything. -/
theorem LeadsThrough.exists_parent (h : p.LeadsThrough workingDirectory place) :
    ∃ q, p.parent? = some q ∧ q.isEmpty = false := by
  obtain ⟨k, positive, below, -⟩ := h
  cases parent : p.parent? with
  | none =>
    rw [components_eq_nil_of_parent?_eq_none parent] at below
    cases below
  | some q =>
    refine ⟨q, rfl, ?_⟩
    by_contra empty
    have length := (isParent_of_parent? parent).length_components
    rw [components_of_isEmpty (by simpa using empty), List.length_nil] at length
    omega

end Path

namespace Host

variable {w after : Host} {output directory : Path}

/-- What becomes of a host when the directory of an output has been made. The parent of the output
is there. Nothing is lost, and directories are new wherever there was nothing on the way to the
output, but not at its own place. It is reported if anything was missing, and then nothing is. -/
structure Prepared (w : Host) (output : Path) (after : Host) : Prop where
  parent : ∀ directory, output.parent? = some directory → directory.isEmpty = false →
    after.files.pathExists w.workingDirectory directory = true
  kept : ∀ place node, w.files.node? place = some node → after.files.node? place = some node
  new : ∀ place node, w.files.node? place = none →
    (after.files.node? place = some node ↔
      node = .directory ∧ output.LeadsThrough w.workingDirectory place)
  itself : after.files.node? (output.place w.workingDirectory) =
    w.files.node? (output.place w.workingDirectory)
  silent : (∀ place, output.LeadsThrough w.workingDirectory place → w.files.node? place ≠ none) →
    after = w
  reported : ∀ place, output.LeadsThrough w.workingDirectory place → w.files.node? place = none →
    ∃ directory, output.parent? = some directory ∧
      after = (w.reporting [.creatingDirectory directory]).withFiles after.files
  again : after.run (makeOutputDirectory output) = (.ok (), after)

/-- If nothing is missing, nothing is done. -/
theorem run_makeOutputDirectory_of_present (present : w.missingDirectory? output = none) :
    w.run (makeOutputDirectory output) = (.ok (), w) := by
  rw [run_makeOutputDirectory, directoryFailure?, preparedFiles, present]
  simp [ending]

theorem missingDirectory?_eq_some_iff : w.missingDirectory? output = some directory ↔
    output.parent? = some directory ∧ directory.isEmpty = false ∧
      w.files.pathExists w.workingDirectory directory = false := by
  simp [missingDirectory?, Option.filter_eq_some_iff]

theorem missingDirectory?_eq_none_iff : w.missingDirectory? output = none ↔
    ∀ directory, output.parent? = some directory → directory.isEmpty = false →
      w.files.pathExists w.workingDirectory directory = true := by
  simp [missingDirectory?, Option.filter_eq_none_iff]

theorem run_makeOutputDirectory_of_missing (missing : w.missingDirectory? output = some directory) :
    w.run (makeOutputDirectory output) =
      (ending ((w.files.makeDirectories w.workingDirectory directory).2.map
          (.outputDirectory directory)),
        (w.reporting [.creatingDirectory directory]).withFiles
          (w.files.makeDirectories w.workingDirectory directory).1) := by
  rw [run_makeOutputDirectory, directoryFailure?, preparedFiles, missing]
  rfl

/-- What leads through existing places only has nothing to be made. -/
theorem present_of_leadsThrough (plain : output.IsPlain)
    (present : w.missingDirectory? output = none) {place : Location}
    (h : output.LeadsThrough w.workingDirectory place) : w.files.node? place ≠ none := by
  obtain ⟨q, parent, named⟩ := h.exists_parent
  have isParent := Path.isParent_of_parent? parent
  have there := missingDirectory?_eq_none_iff.1 present q parent named
  obtain ⟨directories, node, last⟩ :=
    nodes_of_pathExists (plain.of_isPrefix isParent.components_isPrefix) there
  obtain ⟨k, -, inside, rfl⟩ := isParent.passes_iff.2 h
  obtain below | rfl := inside.lt_or_eq
  · simp [directories k below]
  · simp [last]

theorem prepared_of_present (plain : output.IsPlain)
    (present : w.missingDirectory? output = none) : Prepared w output w where
  parent := missingDirectory?_eq_none_iff.1 present
  kept := fun _ _ there => there
  new := by
    intro place node free
    have elsewhere : ¬output.LeadsThrough w.workingDirectory place := fun through =>
      present_of_leadsThrough plain present through free
    simp [free, elsewhere]
  itself := rfl
  silent := fun _ => rfl
  reported := fun place through free =>
    absurd free (present_of_leadsThrough plain present through)
  again := run_makeOutputDirectory_of_present present

/-- Some place on the way to a directory was missing if the directory was and now is there. -/
theorem exists_missing (missing : w.missingDirectory? output = some directory) {made : FileTree}
    (grows : Grows w.files made (output.LeadsThrough w.workingDirectory))
    (there : made.isDirectory w.workingDirectory directory = true) :
    ∃ place, output.LeadsThrough w.workingDirectory place ∧ w.files.node? place = none := by
  by_contra complete
  have same : ∀ place, made.node? place = w.files.node? place := by
    intro place
    obtain same | ⟨free, -, through⟩ := grows place
    · exact same
    · exact absurd ⟨place, through, free⟩ complete
  obtain ⟨place, found⟩ := isDirectory_iff.1 there
  rw [resolve_congr same] at found
  have present := pathExists_iff.2 ⟨place, _, found⟩
  rw [(missingDirectory?_eq_some_iff.1 missing).2.2] at present
  cases present

theorem prepared_of_made (plain : output.IsPlain)
    (missing : w.missingDirectory? output = some directory) {made : FileTree}
    (grows : Grows w.files made (output.LeadsThrough w.workingDirectory))
    (there : made.isDirectory w.workingDirectory directory = true) :
    Prepared w output ((w.reporting [.creatingDirectory directory]).withFiles made) := by
  obtain ⟨parent, -, -⟩ := missingDirectory?_eq_some_iff.1 missing
  have isParent := Path.isParent_of_parent? parent
  have exists_parent : ∀ q, output.parent? = some q → q.isEmpty = false →
      made.pathExists w.workingDirectory q = true := by
    intro q other _
    obtain rfl := Option.some.inj (parent.symm.trans other)
    obtain ⟨place, found⟩ := isDirectory_iff.1 there
    exact pathExists_iff.2 ⟨place, _, found⟩
  constructor
  case parent => exact exists_parent
  case kept =>
    intro place node present
    obtain same | ⟨free, -⟩ := grows place
    · exact same.trans present
    · rw [free] at present
      cases present
  case new =>
    intro place node free
    have directories := directories_of_isDirectory
      (plain.of_isPrefix isParent.components_isPrefix) there
    constructor
    · intro (now : made.node? place = some node)
      obtain same | ⟨-, made, through⟩ := grows place
      · rw [same, free] at now
        cases now
      · exact ⟨Option.some.inj (now.symm.trans made), through⟩
    · rintro ⟨rfl, through⟩
      obtain ⟨k, -, inside, rfl⟩ := isParent.passes_iff.2 through
      exact directories k inside
  case itself =>
    obtain same | ⟨-, -, through⟩ := grows (output.place w.workingDirectory)
    · exact same
    · exact absurd through Path.not_leadsThrough_place
  case silent =>
    intro complete
    obtain ⟨place, through, free⟩ := exists_missing missing grows there
    exact absurd free (complete place through)
  case reported => exact fun _ _ _ => ⟨directory, parent, rfl⟩
  case again =>
    exact run_makeOutputDirectory_of_present (missingDirectory?_eq_none_iff.2 exists_parent)

/-- The directory of an output is made, or that fails because something is in its way. Also then,
nothing becomes of what there was. -/
theorem prepared_of_makeOutputDirectory (w : Host) (plain : output.IsPlain) :
    (∃ after, w.run (makeOutputDirectory output) = (.ok (), after) ∧ Prepared w output after) ∨
      ∃ directory fault after, output.parent? = some directory ∧
        w.run (makeOutputDirectory output) = (.error (.outputDirectory directory fault), after) ∧
        ¬Clear w.files w.workingDirectory directory ∧
        Grows w.files after.files (output.LeadsThrough w.workingDirectory) := by
  cases missing : w.missingDirectory? output with
  | none =>
    exact .inl ⟨w, run_makeOutputDirectory_of_present missing, prepared_of_present plain missing⟩
  | some directory =>
    have run := run_makeOutputDirectory_of_missing missing
    obtain ⟨parent, named, -⟩ := missingDirectory?_eq_some_iff.1 missing
    have isParent := Path.isParent_of_parent? parent
    have directoryPlain := plain.of_isPrefix isParent.components_isPrefix
    have grows := (makeDirectories_grows directoryPlain w.files w.workingDirectory).mono
      fun _ => isParent.passes_iff.1
    cases outcome : (w.files.makeDirectories w.workingDirectory directory).2 with
    | none =>
      rw [outcome] at run
      have there := isDirectory_makeDirectories directoryPlain named outcome
      exact .inl ⟨_, run, prepared_of_made plain missing grows there⟩
    | some fault =>
      rw [outcome] at run
      refine .inr ⟨directory, fault, _, parent, run, ?_, grows⟩
      intro clear
      rw [makeDirectories_of_clear directoryPlain isParent.trimmed clear] at outcome
      cases outcome

/-- Two directories are made in one that is there and has a file in it. -/
theorem prepared_of_makeOutputDirectory_nested :
    let name := Utf8.encode
    let w : Host :=
      { files := ⟨[([name "out"], .directory), ([name "out", name "old.svg"], .file [])]⟩
        workingDirectory := []
        imageDirectory := []
        rasteriser := fun _ _ _ => .ok []
        viewerFault := none
        events := []
        output := []
        diagnostics := [] }
    let output := Path.ofString "out/nested/./deep/chart.svg"
    output.IsPlain ∧ ∃ after, w.run (makeOutputDirectory output) = (.ok (), after) ∧
      Prepared w output after ∧
      after.files.node? [name "out", name "nested", name "deep"] = some .directory := by
  intro name w output
  have plain : output.IsPlain := by
    unfold Path.IsPlain
    decide +kernel
  have made : (w.run (makeOutputDirectory output)).1.isOk = true := by decide +kernel
  have through : output.LeadsThrough w.workingDirectory [name "out", name "nested", name "deep"] :=
    ⟨3, by decide, by decide +kernel, by decide +kernel⟩
  obtain ⟨after, run, prepared⟩ | ⟨_, _, _, _, run, -⟩ := w.prepared_of_makeOutputDirectory plain
  · exact ⟨plain, after, run, prepared, (prepared.new _ _ (by decide +kernel)).2 ⟨rfl, through⟩⟩
  · rw [run] at made
    cases made

end Host

end ContentionChart
