import ContentionChart.Proofs.NumberTexts
import ContentionChart.Proofs.RowOrder
import ContentionChart.Proofs.Skipped
import ContentionChart.Proofs.WrittenTables

/-!
# Reading rendered results

Results that were read and rendered as comma-separated text are read back from it. Labels are
written as they are, so that this is not so for all of them.

## Main definitions

* `Results.samples` — the samples that results hold, lock by lock.
* `Results.Renderable` — a sample that can be rendered and read back.

## Main statements

* `Results.series_ofSamples_samples` — grouping what was grouped changes nothing.
* `Results.encode_render` — rendered results are a written table.
* `Results.ofBytes_render` — and are read back from it.
-/

namespace ContentionChart.Results

/-! ## Samples of results -/

variable {α : Type}

/-- The samples of a series under a label. -/
def samplesUnder (lock : String) (points : List (ℕ × α)) : List (Sample α) :=
  points.map fun p => ⟨lock, p.1, p.2, none⟩

/-- All samples, lock by lock. -/
def samples (r : Results α) : List (Sample α) :=
  r.series.entries.flatMap fun e => samplesUnder e.1 e.2.points

theorem mem_samples_iff {r : Results α} {s : Sample α} :
    s ∈ r.samples ↔ ∃ series, r.find? s.lock = some series ∧
      (s.threads, s.throughput) ∈ series.points ∧ s.task = none := by
  simp only [samples, samplesUnder, List.mem_flatMap, List.mem_map]
  constructor
  · rintro ⟨⟨lock, series⟩, inEntries, p, inPoints, rfl⟩
    exact ⟨series, LabelMap.find?_eq_some_iff.2 inEntries, inPoints, rfl⟩
  · rintro ⟨series, found, inPoints, none⟩
    obtain ⟨lock, threads, throughput, task⟩ := s
    obtain rfl : task = .none := none
    exact ⟨(lock, series), LabelMap.find?_eq_some_iff.1 found, (threads, throughput), inPoints, rfl⟩

theorem pointsOf_samplesUnder (lock other : String) (points : List (ℕ × α)) :
    pointsOf lock (samplesUnder other points) = if other = lock then points else [] := by
  rw [pointsOf, samplesUnder, List.filter_map, List.map_map]
  split
  case isTrue same => simp [Function.comp_def, same]
  case isFalse different => simp [Function.comp_def, different]

/-- A lock has the points of its series again. -/
theorem pointsOf_samples (r : Results α) (lock : String) :
    pointsOf lock r.samples = ((r.find? lock).getD .empty).points := by
  obtain ⟨⟨entries, ascending⟩, task⟩ := r
  simp only [samples, find?, LabelMap.find?]
  induction entries with
  | nil => rfl
  | cons first rest ih =>
    obtain ⟨label, series⟩ := first
    obtain ⟨least, tail⟩ := List.pairwise_cons.1 ascending
    rw [List.flatMap_cons, pointsOf_append, ih tail, pointsOf_samplesUnder, List.lookup_cons]
    by_cases same : label = lock
    · subst same
      have absent : rest.lookup label = none := by
        rw [List.lookup_eq_none_iff]
        intro e mem
        simpa using Std.ne_of_lt (least e mem)
      simp [absent]
    · have different : (lock == label) = false := by simpa using Ne.symm same
      simp [same, different]

theorem firstTask?_samples (r : Results α) : firstTask? r.samples = none := by
  have none : r.samples.filterMap Sample.task = [] := by
    rw [List.filterMap_eq_nil_iff]
    intro s mem
    obtain ⟨_, -, -, none⟩ := mem_samples_iff.1 mem
    exact none
  rw [firstTask?, none]
  rfl

/-- What was grouped and sorted is grouped and sorted in the same way again. -/
theorem series_ofSamples_samples (xs : List (Sample α)) :
    (ofSamples (ofSamples xs).sorted.samples).sorted.series = (ofSamples xs).sorted.series := by
  rw [series_ofSamples_eq_iff]
  intro lock threads
  have order := (holds_ofSamples xs).stableOrder lock
  rw [← map_pair_inj threads, ← filter_pointsOf, ← filter_pointsOf, pointsOf_samples, order.ties]

/-! ## Rows -/

/-- The names over rendered samples. -/
def renderedHeader : List String := ["lock", "threads", "ops_s"]

/-- The fields that a sample is rendered as. -/
def renderedRow (s : Sample Float) : List String :=
  [s.lock, toString s.threads, Notation.plain s.throughput]

/-- A sample that can be rendered and read back: its label is a plain field, and its numbers are in
the ranges of what is read. -/
structure Renderable (s : Sample Float) : Prop where
  label : Csv.PlainField s.lock
  threads : s.threads < 2 ^ 32
  finite : Binary64.isFinite s.throughput = true
  task : s.task = none

theorem encode_renderPoint (s : Sample Float) :
    Utf8.encode (renderPoint s.lock (s.threads, s.throughput)) =
      Csv.writtenLine (renderedRow s) ++ [Csv.lineFeed] := by
  have comma : Utf8.encode "," = [Csv.comma] := by decide +kernel
  have lineFeed : Utf8.encode "\n" = [Csv.lineFeed] := by decide +kernel
  rw [renderPoint, Csv.writtenLine, renderedRow]
  simp only [Utf8.encode_append, comma, lineFeed, List.map_cons, List.map_nil,
    List.intercalate_cons_cons, List.intercalate_singleton, List.append_assoc]

theorem encode_join (texts : List String) :
    Utf8.encode (String.join texts) = texts.flatMap Utf8.encode := by
  induction texts with
  | nil => rfl
  | cons text texts ih => rw [String.join_cons, Utf8.encode_append, ih, List.flatMap_cons]

/-- Rendered results are the bytes of a table, with one row for each sample. -/
theorem encode_render (r : Results Float) :
    Utf8.encode r.render = Csv.written (renderedHeader :: r.samples.map renderedRow) := by
  have header : Utf8.encode "lock,threads,ops_s\n" =
      Csv.writtenLine renderedHeader ++ [Csv.lineFeed] := by
    decide +kernel
  have lines : (r.series.entries.flatMap fun e => e.2.points.map (renderPoint e.1)).flatMap
      Utf8.encode = Csv.written (r.samples.map renderedRow) := by
    rw [Csv.written, samples, List.flatMap_map, List.flatMap_assoc, List.flatMap_assoc]
    refine congrArg (List.flatMap · r.series.entries) (funext fun e => ?_)
    rw [List.flatMap_map, samplesUnder, List.flatMap_map]
    refine congrArg (List.flatMap · e.2.points) (funext fun p => ?_)
    exact encode_renderPoint ⟨e.1, p.1, p.2, none⟩
  unfold render
  rw [Utf8.encode_append, header, encode_join, lines, Csv.written_cons]

/-- Numbers are plain fields. -/
theorem plainField_of_isNumberChar {text : String} (all : ∀ c ∈ text.toList, IsNumberChar c) :
    Csv.PlainField text := by
  have other {c : Char} (different : ¬ IsNumberChar c) : c ∉ text.toList :=
    fun mem => different (all c mem)
  refine ⟨⟨other (by decide), other (by decide), other (by decide), ?_⟩, ?_⟩
  · intro begins
    exact other (c := '"') (by decide) (List.mem_of_head? begins)
  · refine .of_forall fun c mem => ?_
    have number := all c mem
    rw [IsNumberChar] at number
    simp only [Text.isBlank, Bool.or_eq_false_iff, Bool.and_eq_false_iff, decide_eq_false_iff_not,
      beq_eq_false_iff_ne]
    omega

namespace Renderable

variable {s : Sample Float}

theorem plainRow (h : Renderable s) : Csv.PlainRow (renderedRow s) := by
  refine ⟨?_, List.cons_ne_nil _ _, by simp [renderedRow]⟩
  simp only [renderedRow, List.forall_mem_cons]
  exact ⟨h.label, plainField_of_isNumberChar fun c => isNumberChar_of_mem_toString,
    plainField_of_isNumberChar fun c => isNumberChar_of_mem_plain h.finite, nofun⟩

theorem sample?_renderedRow (h : Renderable s) :
    (⟨0, 1, 2, none⟩ : Columns).sample? (renderedRow s) = some s := by
  obtain ⟨lock, threads, throughput, task⟩ := s
  obtain ⟨-, lt, finite, rfl⟩ := h
  have count := threadCount?_toString lt
  have number := parseFloat?_plain finite
  simp only [Columns.sample?, renderedRow, List.getElem?_cons_zero, List.getElem?_cons_succ,
    Option.bind_eq_bind, Option.bind_some, count, number, if_pos finite, Option.bind_none]

theorem ofFields_renderedRow (h : Renderable s) :
    Entry.ofFields ⟨0, 1, 2, none⟩ (renderedRow s) = .accepted s := by
  have found := h.sample?_renderedRow
  unfold Entry.ofFields
  split
  case isTrue blank =>
    rw [Columns.sample?_of_blank _ blank] at found
    cases found
  case isFalse => rw [found]

end Renderable

/-! ## Reading back -/

/-- Rendered samples are read back, and nothing is skipped. -/
theorem ofTable_renderedRows {xs : List (Sample Float)} (renderable : ∀ s ∈ xs, Renderable s)
    (nonempty : xs ≠ []) :
    ofTable ⟨.ok renderedHeader, (xs.map renderedRow).map .fields⟩ =
      ⟨[], .ok (ofSamples xs).sorted⟩ := by
  have located : Columns.ofHeader renderedHeader = .ok ⟨0, 1, 2, none⟩ :=
    Columns.ofHeader_eq_ok_iff.2 (by decide)
  have complete : Csv.brokenOff? ((xs.map renderedRow).map .fields) = none := by
    rw [Csv.brokenOff?_eq_none_iff]
    intro cause mem
    obtain ⟨_, -, other⟩ := List.mem_map.1 mem
    cases other
  have entries : Entry.ofRows ⟨0, 1, 2, none⟩ ((xs.map renderedRow).map .fields) =
      xs.map .accepted := by
    rw [Entry.ofRows_eq_filterMap _ (Csv.brokenOff?_eq_none_iff.1 complete), List.filterMap_map,
      List.filterMap_map, ← List.filterMap_eq_map]
    refine List.filterMap_congr fun s mem => ?_
    exact congrArg some (renderable s mem).ofFields_renderedRow
  have noSkips : Entry.skipEvents (xs.map .accepted) = [] := by
    rw [← List.length_eq_zero_iff, Entry.length_skipEvents, List.countP_map, List.countP_eq_zero]
    intro s _
    exact Bool.false_ne_true
  have samples : (xs.map Entry.accepted).filterMap Entry.sample? = xs := by
    rw [List.filterMap_map]
    exact List.filterMap_some
  have someSample : xs.isEmpty = false := by simpa using nonempty
  simp only [ofTable, located, complete, entries, ofEntries, noSkips, samples, someSample]
  rfl

/-- The samples of results that were read can be rendered, if the labels are plain. -/
theorem renderable_of_mem_samples {source : Csv.Source} {r : Results Float}
    (read : (ofTable (.ofSource source)).value = .ok r)
    (plain : ∀ lock ∈ r.series.labels, Csv.PlainText lock) : ∀ s ∈ r.samples, Renderable s := by
  intro s mem
  obtain ⟨series, found, inPoints, none⟩ := mem_samples_iff.1 mem
  have label := plain s.lock (LabelMap.mem_labels_iff.2 ⟨series, found⟩)
  -- The point was that of an accepted measurement, which gives the ranges of the numbers.
  obtain ⟨header, xs, -, accepted, -, rfl⟩ := exists_accepted_of_value_ofTable_eq_ok read
  have order := (holds_ofSamples xs).stableOrder s.lock
  rw [found] at order
  obtain ⟨x, inSamples, sameLock, samePoint⟩ := mem_pointsOf_iff.1 (order.perm.mem_iff.1 inPoints)
  obtain ⟨_, inRows, fields, rfl, measures⟩ := accepted.exists_of_mem inSamples
  obtain ⟨⟨column, -, -, isLock⟩, ⟨text, -, count⟩, -, finite, -⟩ := measures
  have trimmed := Csv.trimmed_of_mem_rows inRows _ (List.mem_of_getElem? isLock)
  obtain ⟨sameThreads, sameThroughput⟩ := Prod.mk.inj samePoint
  rw [sameLock] at trimmed
  rw [sameThreads] at count
  rw [sameThroughput] at finite
  exact ⟨⟨label, trimmed⟩, lt_of_threadCount? count, finite, none⟩

theorem samples_ne_nil {xs : List (Sample α)} (nonempty : xs ≠ []) :
    (ofSamples xs).sorted.samples ≠ [] := by
  intro none
  have same := series_ofSamples_samples xs
  rw [none, series_ofSamples_eq_iff] at same
  obtain ⟨s, mem⟩ := List.exists_mem_of_ne_nil xs nonempty
  exact throughputsOf_ne_nil mem (same s.lock s.threads).symm

theorem plainRow_renderedHeader : Csv.PlainRow renderedHeader := by
  refine ⟨?_, List.cons_ne_nil _ _, by decide⟩
  simp only [renderedHeader, List.forall_mem_cons]
  refine ⟨⟨⟨?_, ?_, ?_, ?_⟩, .of_any ?_⟩, ⟨⟨?_, ?_, ?_, ?_⟩, .of_any ?_⟩,
    ⟨⟨?_, ?_, ?_, ?_⟩, .of_any ?_⟩, nofun⟩ <;> decide +kernel

/-- Results that were read and rendered are read back from the text without any event: the series
are the same, and so is the text that they are rendered as. Only the task is not known any more. -/
theorem ofBytes_render {source : Csv.Source} {r : Results Float}
    (read : (ofTable (.ofSource source)).value = .ok r)
    (plain : ∀ lock ∈ r.series.labels, Csv.PlainText lock) :
    ∃ reread, ofTable (.ofBytes (Utf8.encode r.render)) = ⟨[], .ok reread⟩ ∧
      reread.series = r.series ∧ reread.task = none ∧ reread.render = r.render := by
  have renderable := renderable_of_mem_samples read plain
  obtain ⟨header, xs, -, -, nonempty, rfl⟩ := exists_accepted_of_value_ofTable_eq_ok read
  have rows : ∀ row ∈ renderedHeader :: (ofSamples xs).sorted.samples.map renderedRow,
      Csv.PlainRow row := by
    refine List.forall_mem_cons.2 ⟨plainRow_renderedHeader, ?_⟩
    intro row mem
    obtain ⟨s, inSamples, rfl⟩ := List.mem_map.1 mem
    exact (renderable s inSamples).plainRow
  have table := Csv.Table.ofBytes_written rows (by decide +kernel)
  have series := series_ofSamples_samples xs
  have task := (holds_ofSamples (ofSamples xs).sorted.samples).task
  rw [firstTask?_samples] at task
  refine ⟨_, ?_, series, task, ?_⟩
  · rw [encode_render, table]
    exact ofTable_renderedRows renderable (samples_ne_nil nonempty)
  · unfold render
    rw [series]

/-- Blanks around a label and quotes within it, an empty label, ties, a negative zero, the least
positive number and a large one, and a row that is skipped. -/
theorem ofBytes_render_quotes :
    let source : Csv.Source :=
      ⟨Utf8.encode ("task,ops_s,lock,threads\nsum,1e300, say \"hi\" ,4\n,-0,,2\n,5e-324,é,1\n" ++
        "x,2.5,é,1\nbad\n,0.1,say \"hi\",1.9"), none⟩
    ∃ r, (ofTable (.ofSource source)).value = .ok r ∧
      (∀ lock ∈ r.series.labels, Csv.PlainText lock) ∧
      ∃ reread, ofTable (.ofBytes (Utf8.encode r.render)) = ⟨[], .ok reread⟩ ∧
        reread.series = r.series ∧ reread.task = none ∧ reread.render = r.render := by
  intro source
  have labels : (ofTable (.ofSource source)).value.toOption.map (fun r => r.series.labels) =
      some ["", "say \"hi\"", "é"] := by
    decide +kernel
  cases read : (ofTable (.ofSource source)).value with
  | error failure =>
    rw [read] at labels
    cases labels
  | ok r =>
    rw [read] at labels
    have known : r.series.labels = ["", "say \"hi\"", "é"] := Option.some.inj labels
    have plain : ∀ lock ∈ r.series.labels, Csv.PlainText lock := by
      rw [known]
      simp only [List.forall_mem_cons]
      refine ⟨⟨?_, ?_, ?_, ?_⟩, ⟨?_, ?_, ?_, ?_⟩, ⟨?_, ?_, ?_, ?_⟩, nofun⟩ <;> decide +kernel
    exact ⟨r, rfl, plain, ofBytes_render read plain⟩

end ContentionChart.Results
