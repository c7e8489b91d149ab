import ContentionChart.CommandLine.Arguments
import ContentionChart.Proofs.OptionTexts

/-!
# Matched arguments

The values of a command line are read twice. Matching reads them as text in which broken encodings
are replaced, and the arguments are made of them by a strict reading. A value that matching lets
through has nothing to replace, so that the second reading never fails where the first did not.

## Main definitions

* `ValueOption.LetsThrough`, `Matches.Checked` — what matching lets through.
* `Matches.Means` — the arguments that matched values stand for.

## Main statements

* `Matches.exists_means` — matched values stand for arguments.
* `checked_of_matchArguments` — what is matched has been checked.
* `Arguments.ofCommandLine_cases` — what becomes of a command line.
-/

namespace ContentionChart

open Utf8 (Bytes)

/-! ## What matching lets through -/

/-- A value of an option is the standard one, or a good one as a text in which broken encodings are
replaced. -/
def ValueOption.LetsThrough (o : ValueOption) (value : Bytes) : Prop :=
  o.standard?.map Utf8.encode = some value ∨ o.problem? (Utf8.decodeLossy value) = none

/-- Where values must be of some form, those that are let through are texts. -/
theorem ValueOption.LetsThrough.exists_text {o : ValueOption} {value : Bytes}
    (through : o.LetsThrough value) (standing : o.standard? ≠ none) :
    ∃ text, Utf8.decode? value = some text ∧ o.problem? text = none := by
  rcases through with standard | good
  · obtain ⟨text, own, rfl⟩ := Option.map_eq_some_iff.1 standard
    exact ⟨text, Utf8.decode?_encode text, ValueOption.problem?_standard own⟩
  · have unbroken := ValueOption.replacement_notMem standing good
    exact ⟨_, Utf8.decode?_of_replacement_notMem unbroken, good⟩

namespace Matches

/-- All values that must be of some form were let through. -/
structure Checked (m : Matches) : Prop where
  scale : ValueOption.scale.LetsThrough m.scale
  threadTicks : ValueOption.threadTicks.LetsThrough m.threadTicks
  figure : ValueOption.figure.LetsThrough m.figure

/-- Matched values are texts that stand for the arguments. The sides of the figure are positive and
no longer than a hundred inches. -/
structure Means (m : Matches) (arguments : Arguments) : Prop where
  csvIn : arguments.csvIn = ⟨m.csvIn⟩
  output : arguments.output = m.output.map Path.mk
  scale : ∃ text, Utf8.decode? m.scale = some text ∧
    Scale.ofName? text = some arguments.options.scale
  threadTicks : ∃ text, Utf8.decode? m.threadTicks = some text ∧
    parseCount text = .ok arguments.options.threadTicks
  figure : ∃ text, Utf8.decode? m.figure = some text ∧
    FigureSize.parse? text = some arguments.options.figure
  width : ∃ q : ℚ, Binary64.toRat? arguments.options.figure.width = some q ∧ 0 < q ∧ q ≤ 100
  height : ∃ q : ℚ, Binary64.toRat? arguments.options.figure.height = some q ∧ 0 < q ∧ q ≤ 100
  verbose : arguments.verbose = m.verbose

end Matches

/-! ## Reading once more -/

theorem Arguments.readOption_of_texts {β : Type} {parse? : String → Option β} {value : Bytes}
    {text : String} {b : β} (o : ValueOption) (decoded : Utf8.decode? value = some text)
    (read : parse? text = some b) : readOption o parse? value = .ok b := by
  rw [readOption, read?, decoded, Option.bind_some, read]

/-- Matched values stand for arguments if they were let through. -/
theorem Matches.exists_means {m : Matches} (checked : m.Checked) :
    ∃ arguments, m.Means arguments ∧ Arguments.ofMatches m = .ok arguments := by
  obtain ⟨scaleText, scaleBytes, good⟩ := checked.scale.exists_text (by decide)
  obtain ⟨countText, countBytes, good'⟩ := checked.threadTicks.exists_text (by decide)
  obtain ⟨sizeText, sizeBytes, good''⟩ := checked.figure.exists_text (by decide)
  obtain ⟨scale, named⟩ := ValueOption.problem?_scale_eq_none_iff.1 good
  obtain ⟨count, counted⟩ := ValueOption.problem?_threadTicks_eq_none_iff.1 good'
  obtain ⟨size, sized⟩ := ValueOption.problem?_figure_eq_none_iff.1 good''
  obtain ⟨_, _, _, _, _, left, right⟩ := FigureSize.exists_of_parse? sized
  have counted' : Arguments.count? countText = some count := by
    rw [Arguments.count?, counted]
    rfl
  refine ⟨⟨⟨m.csvIn⟩, m.output.map Path.mk, ⟨scale, count, size⟩, m.verbose⟩, ?_, ?_⟩
  · exact {
      csvIn := rfl
      output := rfl
      scale := ⟨scaleText, scaleBytes, named⟩
      threadTicks := ⟨countText, countBytes, counted⟩
      figure := ⟨sizeText, sizeBytes, sized⟩
      width := FigureSize.isSide_iff.1 (FigureSize.side?_eq_some_iff.1 left).2
      height := FigureSize.isSide_iff.1 (FigureSize.side?_eq_some_iff.1 right).2
      verbose := rfl }
  · rw [Arguments.ofMatches, Arguments.readOption_of_texts .scale scaleBytes named,
      Arguments.readOption_of_texts .threadTicks countBytes counted',
      Arguments.readOption_of_texts .figure sizeBytes sized]
    rfl

/-! ## The end of matching -/

theorem ValueOption.mem_all (o : ValueOption) : o ∈ all := by
  cases o <;> decide

namespace Matching

variable {m : Matching} {o : ValueOption} {value : Bytes} {matched : Matches}

/-- Where there is no error, no option has one. -/
theorem optionError?_eq_none (passed : m.error? = none) (o : ValueOption) :
    m.optionError? o = none := by
  unfold error? at passed
  split at passed
  case isTrue => cases passed
  case isFalse =>
    rw [Option.orElse_eq_none, Option.orElse_eq_none] at passed
    exact List.findSome?_eq_none_iff.1 passed.2.1 o o.mem_all

theorem problem?_of_mem_valuesOf (passed : m.optionError? o = none) (mem : value ∈ m.valuesOf o) :
    o.problem? (Utf8.decodeLossy value) = none := by
  unfold optionError? at passed
  split at passed
  case isTrue => cases passed
  case isFalse =>
    rw [Option.orElse_eq_none] at passed
    have good := List.findSome?_eq_none_iff.1 passed.1 value mem
    rwa [valueError?, Option.map_eq_none_iff] at good

/-- The value of an option that has a standard one is let through. -/
theorem letsThrough_value? (passed : m.optionError? o = none) (standing : o.standard? ≠ none) :
    o.LetsThrough ((m.value? o).getD []) := by
  obtain ⟨standard, own⟩ := Option.ne_none_iff_exists'.1 standing
  unfold value?
  cases values : m.valuesOf o with
  | nil =>
    left
    simp [own]
  | cons value others =>
    right
    have mem : value ∈ m.valuesOf o := values ▸ List.mem_cons_self
    exact problem?_of_mem_valuesOf passed mem

theorem checked_of_finish (finished : m.finish = .ok matched) : matched.Checked := by
  unfold finish at finished
  split at finished
  case h_1 => cases finished
  case h_2 passed =>
    cases finished
    exact {
      scale := letsThrough_value? (optionError?_eq_none passed _) (by decide)
      threadTicks := letsThrough_value? (optionError?_eq_none passed _) (by decide)
      figure := letsThrough_value? (optionError?_eq_none passed _) (by decide) }

end Matching

/-! ## Faults -/

/-- A fault that is found before the values are read once more. -/
def UsageError.IsOfMatching (fault : UsageError) : Prop :=
  ∀ option value, fault ≠ .unusableValue option value

namespace Matching

variable {called : String} {m : Matching} {word : Bytes} {fault : UsageError}

theorem isOfMatching_of_longWord (found : longWord called m word = .error fault) :
    fault.IsOfMatching := by
  unfold longWord at found
  grind [UsageError.IsOfMatching]

theorem isOfMatching_of_shortWord (found : shortWord called m word = .error fault) :
    fault.IsOfMatching := by
  fun_induction shortWord called m word <;> grind [UsageError.IsOfMatching]

theorem isOfMatching_of_step (found : step called m word = .error fault) :
    fault.IsOfMatching := by
  unfold step at found
  split_ifs at found
  · cases found
    nofun
  · exact isOfMatching_of_longWord found
  · exact isOfMatching_of_shortWord found
  · split at found <;> cases found
    nofun

theorem isOfMatching_of_steps {words : List Bytes}
    (found : words.foldlM (step called) m = .error fault) : fault.IsOfMatching := by
  induction words generalizing m with
  | nil => cases found
  | cons word words ih =>
    rw [List.foldlM_cons] at found
    cases first : step called m word with
    | error early =>
      rw [first] at found
      cases found
      exact isOfMatching_of_step first
    | ok next =>
      rw [first] at found
      exact ih found

theorem isOfMatching_of_valueError? {o : ValueOption} {value : Bytes}
    (found : valueError? o value = some fault) : fault.IsOfMatching := by
  obtain ⟨problem, -, rfl⟩ := Option.map_eq_some_iff.1 found
  cases problem <;> nofun

theorem isOfMatching_of_optionError? {o : ValueOption} (found : m.optionError? o = some fault) :
    fault.IsOfMatching := by
  unfold optionError? at found
  split at found
  case isTrue =>
    cases found
    nofun
  case isFalse =>
    rcases (Option.orElse_eq_some _ _ _).1 found with value | ⟨-, twice⟩
    · obtain ⟨bytes, -, bad⟩ := List.exists_of_findSome?_eq_some value
      exact isOfMatching_of_valueError? bad
    · split at twice <;> cases twice
      nofun

theorem isOfMatching_of_error? (found : m.error? = some fault) : fault.IsOfMatching := by
  unfold error? at found
  split at found
  case isTrue =>
    cases found
    nofun
  case isFalse =>
    rcases (Option.orElse_eq_some _ _ _).1 found with last | ⟨-, found⟩
    · grind [UsageError.IsOfMatching]
    rcases (Option.orElse_eq_some _ _ _).1 found with option | ⟨-, twice⟩
    · obtain ⟨o, -, bad⟩ := List.exists_of_findSome?_eq_some option
      exact isOfMatching_of_optionError? bad
    · split at twice <;> cases twice
      nofun

theorem isOfMatching_of_finish (found : m.finish = .error fault) : fault.IsOfMatching := by
  unfold finish at found
  split at found
  case h_1 bad =>
    cases found
    exact isOfMatching_of_error? bad
  case h_2 => cases found

end Matching

/-! ## Command lines -/

/-- Matching stops at some word, or it goes on to the end. -/
theorem matchArguments_cases (argv : List Bytes) :
    (∃ fault : UsageError, fault.IsOfMatching ∧ matchArguments argv = .error fault) ∨
      ∃ last : Matching, matchArguments argv = last.finish := by
  unfold matchArguments
  split
  case h_1 => exact .inr ⟨_, rfl⟩
  case h_2 program words =>
    dsimp only
    cases run : words.foldlM (Matching.step (((Path.fileName? ⟨program⟩).bind Utf8.decode?).getD
        Help.programName)) .initial with
    | error fault => exact .inl ⟨fault, Matching.isOfMatching_of_steps run, rfl⟩
    | ok last => exact .inr ⟨last, rfl⟩

/-- What is matched has been checked. -/
theorem checked_of_matchArguments {argv : List Bytes} {m : Matches}
    (matched : matchArguments argv = .ok m) : m.Checked := by
  rcases matchArguments_cases argv with ⟨fault, -, stopped⟩ | ⟨last, ended⟩
  · rw [stopped] at matched
    cases matched
  · exact Matching.checked_of_finish (ended.symm.trans matched)

theorem isOfMatching_of_matchArguments {argv : List Bytes} {fault : UsageError}
    (found : matchArguments argv = .error fault) : fault.IsOfMatching := by
  rcases matchArguments_cases argv with ⟨early, ofMatching, stopped⟩ | ⟨last, ended⟩
  · rw [stopped] at found
    cases found
    exact ofMatching
  · exact Matching.isOfMatching_of_finish (ended.symm.trans found)

namespace Arguments

/-- Values that were let through are texts that stand for arguments, whichever command line they are
of. So a command line that is matched has arguments, with a figure of positive sides up to a hundred
inches, and all its faults are found before the values are read once more. -/
theorem ofCommandLine_cases :
    (∀ m : Matches, m.Checked → ∃ arguments, m.Means arguments ∧ ofMatches m = .ok arguments) ∧
    ∀ argv : List Bytes,
      (∃ fault : UsageError, fault.IsOfMatching ∧ matchArguments argv = .error fault ∧
        ofCommandLine argv = .error fault) ∨
      ∃ m arguments, matchArguments argv = .ok m ∧ m.Checked ∧ m.Means arguments ∧
        ofCommandLine argv = .ok arguments := by
  refine ⟨fun m => Matches.exists_means, fun argv => ?_⟩
  rw [ofCommandLine]
  cases result : matchArguments argv with
  | error fault => exact .inl ⟨fault, isOfMatching_of_matchArguments result, rfl, rfl⟩
  | ok m =>
    have checked := checked_of_matchArguments result
    obtain ⟨arguments, means, read⟩ := Matches.exists_means checked
    exact .inr ⟨m, arguments, rfl, checked, means, read⟩

/-- A command line with a size of its own, and standard values otherwise. -/
theorem ofCommandLine_cases_size :
    let argv := ["lock_plot", "--csv-in", "runs.csv", "--figsize= 8.5X4"].map Utf8.encode
    ∃ m arguments, matchArguments argv = .ok m ∧ m.scale = Utf8.encode "log" ∧
      m.threadTicks = Utf8.encode "12" ∧ m.figure = Utf8.encode " 8.5X4" ∧ m.Checked ∧
      m.Means arguments ∧ ofMatches m = .ok arguments ∧ ofCommandLine argv = .ok arguments := by
  intro argv
  have values : (matchArguments argv).toOption.map (fun m => (m.scale, m.threadTicks, m.figure)) =
      some (Utf8.encode "log", Utf8.encode "12", Utf8.encode " 8.5X4") := by decide +kernel
  rcases ofCommandLine_cases.2 argv with ⟨fault, -, stopped, -⟩ |
    ⟨m, arguments, matched, checked, means, read⟩
  · rw [stopped] at values
    cases values
  · have same : ofMatches m = ofCommandLine argv := by
      rw [ofCommandLine, matched]
      rfl
    rw [matched] at values
    obtain ⟨scale, others⟩ := Prod.mk.inj (Option.some.inj values)
    obtain ⟨threadTicks, figure⟩ := Prod.mk.inj others
    exact ⟨m, arguments, matched, scale, threadTicks, figure, checked, means, same.trans read,
      read⟩

end Arguments

end ContentionChart
