import ContentionChart.Csv.Table

/-!
# Text without quoted fields

Unless a quote is the first byte of a field, a text is read line by line: a record is a line, and
its fields are what commas separate in it. How the lines are ended, and how many line ends there are
between them, has no effect on the records but for the places where they are said to begin.

## Main definitions

* `Csv.runs`, `Csv.lines` — the stretches of bytes between line ends.
* `Csv.Separates` — line ends between one part of a text and the next.
* `Csv.Unquoted` — no field of a line begins with a quote.
* `Csv.Scanner.Within` — a reader stands within a line and has read its first bytes.

## Main statements

* `Csv.lines_append_of_separates` — the lines of a text are those of its parts.
* `Csv.Scanner.Within.step`, `Csv.Scanner.Within.step_lineEnd` — reading one byte of a line, or the
  byte that ends it.
* `Csv.Scanner.Within.exists_allRecords_foldl` — reading on adds one record for each line.
* `Csv.fields_records` — the records of a text without quoted fields are its lines.
-/

namespace ContentionChart.Csv

open Utf8 (Bytes)

/-! ## Lines -/

/-- The stretches of bytes between line ends, without the empty ones. -/
def runs (bytes : Bytes) : List Bytes :=
  (bytes.splitOnP isLineEnd).filter fun run => !run.isEmpty

/-- A text without the mark at its beginning. -/
def withoutMark (bytes : Bytes) : Bytes := (byteOrderMark.isPrefixOf? bytes).getD bytes

/-- The lines of a text, without the empty ones. -/
def lines (bytes : Bytes) : List Bytes := runs (withoutMark bytes)

/-- Line ends between one part of a text and the next. At the end of a text none is needed. -/
structure Separates (ends after : Bytes) : Prop where
  allEnd : ∀ b ∈ ends, isLineEnd b = true
  atEnd : ends = [] → after = []

/-- The bytes that commas separate. -/
def splitFields (line : Bytes) : List Bytes := line.splitOn comma

theorem splitFields_cons (b : UInt8) (line : Bytes) :
    splitFields (b :: line) =
      if b = comma then [] :: splitFields line else (splitFields line).modifyHead (b :: ·) := by
  rw [splitFields, List.splitOn_cons_eq_if_modifyHead]
  simp only [beq_iff_eq]
  rfl

/-- No field of a line begins with a quote. Quotes within a field have no meaning. -/
def Unquoted (line : Bytes) : Prop := ∀ field ∈ splitFields line, field.head? ≠ some quote

/-- Splitting makes no elements. -/
theorem mem_of_mem_splitOnP {α : Type} {p : α → Bool} {x : α} {xs part : List α}
    (inParts : part ∈ xs.splitOnP p) (inPart : x ∈ part) : x ∈ xs := by
  induction xs generalizing part with
  | nil =>
    rw [List.splitOnP_nil, List.mem_singleton] at inParts
    rwa [inParts] at inPart
  | cons y xs ih =>
    obtain ⟨first, others, parts⟩ := List.exists_cons_of_ne_nil (List.splitOnP_ne_nil p xs)
    rw [parts] at ih
    rw [List.splitOnP_cons_eq_if_modifyHead, parts] at inParts
    split at inParts
    case isTrue =>
      rcases List.mem_cons.1 inParts with rfl | inRest
      · cases inPart
      · exact List.mem_cons_of_mem y (ih inRest inPart)
    case isFalse =>
      rcases List.mem_cons.1 inParts with rfl | inOthers
      · rcases List.mem_cons.1 inPart with rfl | inFirst
        · exact List.mem_cons_self
        · exact List.mem_cons_of_mem y (ih List.mem_cons_self inFirst)
      · exact List.mem_cons_of_mem y (ih (List.mem_cons_of_mem first inOthers) inPart)

theorem mem_of_mem_runs {bytes line : Bytes} {b : UInt8} (inRuns : line ∈ runs bytes)
    (inLine : b ∈ line) : b ∈ bytes :=
  mem_of_mem_splitOnP (List.mem_filter.1 inRuns).1 inLine

theorem unquoted_of_notMem {line : Bytes} (none : quote ∉ line) : Unquoted line := by
  intro field inLine begins
  rw [splitFields, List.splitOn_eq_splitOnP] at inLine
  exact none (mem_of_mem_splitOnP inLine (List.mem_of_head? begins))

theorem modifyHead_nil_append (fields : List Bytes) : fields.modifyHead ([] ++ ·) = fields :=
  congrFun List.modifyHead_id fields

@[simp] theorem runs_nil : runs [] = [] := rfl

theorem runs_of_unbroken {line : Bytes} (unbroken : ∀ b ∈ line, isLineEnd b = false) :
    runs line = if line.isEmpty then [] else [line] := by
  rw [runs, List.splitOnP_eq_singleton unbroken]
  cases line <;> rfl

theorem runs_append_lineEnd {b : UInt8} (ends : isLineEnd b = true) (before after : Bytes) :
    runs (before ++ b :: after) = runs before ++ runs after := by
  rw [runs, List.splitOnP_append_cons _ _ ends, List.filter_append, runs, runs]

/-- What a line begins with is the beginning of a line, whatever follows. -/
theorem exists_append_mem_runs {line : Bytes} (unbroken : ∀ b ∈ line, isLineEnd b = false)
    (begun : line ≠ []) (after : Bytes) : ∃ rest, line ++ rest ∈ runs (line ++ after) := by
  induction after generalizing line with
  | nil =>
    refine ⟨[], ?_⟩
    rw [List.append_nil, runs_of_unbroken unbroken, if_neg (by simpa using begun)]
    exact List.mem_singleton_self line
  | cons b after ih =>
    cases ends : isLineEnd b with
    | true =>
      refine ⟨[], ?_⟩
      rw [List.append_nil, runs_append_lineEnd ends, runs_of_unbroken unbroken,
        if_neg (by simpa using begun)]
      exact List.mem_cons_self
    | false =>
      have goesOn : ∀ c ∈ line ++ [b], isLineEnd c = false := by
        simpa [or_imp, forall_and] using ⟨unbroken, ends⟩
      obtain ⟨rest, mem⟩ := ih goesOn (by simp)
      rw [List.append_assoc, List.append_assoc, List.singleton_append] at mem
      exact ⟨b :: rest, mem⟩

theorem runs_lineEnds_append {ends : Bytes} (allEnd : ∀ b ∈ ends, isLineEnd b = true)
    (after : Bytes) : runs (ends ++ after) = runs after := by
  induction ends with
  | nil => rfl
  | cons b ends ih =>
    obtain ⟨endsLine, rest⟩ := List.forall_mem_cons.1 allEnd
    have skip := runs_append_lineEnd endsLine [] (ends ++ after)
    rw [List.cons_append]
    simpa [ih rest] using skip

theorem runs_append_of_separates {ends after : Bytes} (h : Separates ends after) (before : Bytes) :
    runs (before ++ (ends ++ after)) = runs before ++ runs after := by
  cases ends with
  | nil => simp [h.atEnd rfl]
  | cons b ends =>
    obtain ⟨endsLine, rest⟩ := List.forall_mem_cons.1 h.allEnd
    rw [List.cons_append, runs_append_lineEnd endsLine, runs_lineEnds_append rest]

theorem isPrefixOf?_cons_cons (m b : UInt8) (mark bytes : Bytes) :
    (m :: mark).isPrefixOf? (b :: bytes) = if m = b then mark.isPrefixOf? bytes else none := by
  by_cases same : m = b
  · rw [if_pos same]
    exact if_pos (beq_iff_eq.2 same)
  · rw [if_neg same]
    exact if_neg (mt beq_iff_eq.1 same)

theorem suffix_of_isPrefixOf?_eq_some {mark bytes rest : Bytes}
    (h : mark.isPrefixOf? bytes = some rest) : rest <:+ bytes := by
  induction mark generalizing bytes with
  | nil =>
    cases h
    exact List.suffix_refl rest
  | cons m mark ih =>
    cases bytes with
    | nil => cases h
    | cons b bytes =>
      rw [isPrefixOf?_cons_cons] at h
      obtain ⟨-, more⟩ : m = b ∧ mark.isPrefixOf? bytes = some rest := by simpa using h
      exact (ih more).trans (List.suffix_cons b bytes)

theorem withoutMark_suffix (bytes : Bytes) : withoutMark bytes <:+ bytes := by
  rw [withoutMark]
  cases marked : byteOrderMark.isPrefixOf? bytes with
  | none => exact List.suffix_refl bytes
  | some rest => exact suffix_of_isPrefixOf?_eq_some marked

/-- What begins a text stands before any byte that is not part of it. -/
theorem isPrefixOf?_append_of_notMem {mark : Bytes} {b : UInt8} (other : b ∉ mark)
    (before after : Bytes) :
    mark.isPrefixOf? (before ++ b :: after) =
      (mark.isPrefixOf? before).map (· ++ b :: after) := by
  induction mark generalizing before with
  | nil => rfl
  | cons m mark ih =>
    obtain ⟨different, rest⟩ := not_or.1 (mt List.mem_cons.2 other)
    cases before with
    | nil =>
      rw [List.nil_append, isPrefixOf?_cons_cons, if_neg (Ne.symm different)]
      rfl
    | cons c before =>
      rw [List.cons_append, isPrefixOf?_cons_cons, isPrefixOf?_cons_cons]
      by_cases same : m = c
      · rw [if_pos same, if_pos same, ih rest]
      · rw [if_neg same, if_neg same]
        rfl

theorem withoutMark_append_lineEnd {b : UInt8} (ends : isLineEnd b = true) (before after : Bytes) :
    withoutMark (before ++ b :: after) = withoutMark before ++ b :: after := by
  have goOn : ∀ c ∈ byteOrderMark, isLineEnd c = false := by decide +kernel
  have notInMark : b ∉ byteOrderMark := by
    intro mem
    rw [goOn b mem] at ends
    cases ends
  rw [withoutMark, withoutMark, isPrefixOf?_append_of_notMem notInMark]
  cases byteOrderMark.isPrefixOf? before <;> rfl

/-- The lines of a text are those of its parts. -/
theorem lines_append_of_separates {ends after : Bytes} (h : Separates ends after) (before : Bytes) :
    lines (before ++ (ends ++ after)) = lines before ++ runs after := by
  cases ends with
  | nil => simp [h.atEnd rfl]
  | cons b rest =>
    rw [List.cons_append, lines, withoutMark_append_lineEnd (h.allEnd b List.mem_cons_self),
      ← List.cons_append, runs_append_of_separates h, lines]

/-- In a text without any quote no field begins with one. -/
theorem unquoted_lines {text : Bytes} (none : quote ∉ text) :
    ∀ line ∈ lines text, Unquoted line := by
  intro line inLines
  refine unquoted_of_notMem fun inLine => none ?_
  exact (withoutMark_suffix text).subset (mem_of_mem_runs inLines inLine)

namespace Scanner

/-- All records of a text that ends where the reader stands. -/
def allRecords (s : Scanner) : List RawRecord := s.records.reverse ++ s.openRecord?.toList

@[simp] theorem start_record (s : Scanner) : s.record.start = s.start := rfl

/-- A reader stands within a line of which it has read the given bytes, or ahead of a line if there
are none. What it holds are the fields of these bytes, the last of which may go on. -/
structure Within (line : Bytes) (s : Scanner) : Prop where
  unbroken : ∀ b ∈ line, isLineEnd b = false
  ahead : line = [] → s.place = .between
  inside : line ≠ [] → s.place = .fieldStart ∨ s.place = .bare
  begun : s.field ≠ [] → s.place = .bare
  fields : ∀ rest, splitFields (line ++ rest) =
    s.fields.reverse ++ (splitFields rest).modifyHead (s.field.reverse ++ ·)

theorem within_of_empty {s : Scanner} (place : s.place = .between) (field : s.field = [])
    (fields : s.fields = []) : Within [] s where
  unbroken := by simp
  ahead _ := place
  inside h := absurd rfl h
  begun h := absurd field h
  fields rest := by
    have same := modifyHead_nil_append (splitFields rest)
    rw [field, fields]
    exact same.symm

namespace Within

variable {line : Bytes} {s : Scanner} {b : UInt8}

/-- The record that would end here is that of the line read so far. -/
theorem fields_record (h : Within line s) : s.record.fields = splitFields line := by
  have here := h.fields []
  simp only [List.append_nil, splitFields, List.splitOn_nil, List.modifyHead_cons] at here
  rw [record, splitFields, here, List.reverse_cons]

theorem openRecord?_eq (h : Within line s) :
    s.openRecord? = if line.isEmpty then none else some s.record := by
  rw [openRecord?]
  cases line with
  | nil => simp [h.ahead rfl]
  | cons b line =>
    rcases h.inside (List.cons_ne_nil b line) with place | place <;> simp [place]

/-- Where the fields of a line do not begin with a quote, a quote is read in an unquoted stretch of
a field only. -/
theorem bare_of_unquoted (h : Within line s) {rest : Bytes}
    (unquoted : Unquoted (line ++ b :: rest)) (isQuote : b = quote) : s.place = .bare := by
  refine h.begun fun none => ?_
  obtain ⟨first, others, split⟩ : ∃ first others, splitFields rest = first :: others :=
    List.exists_cons_of_ne_nil (List.splitOn_ne_nil comma rest)
  have fields := h.fields (b :: rest)
  rw [splitFields_cons, if_neg (by rw [isQuote]; decide), split, none] at fields
  refine unquoted (b :: first) ?_ (by rw [isQuote]; rfl)
  rw [fields]
  exact List.mem_append_right _ List.mem_cons_self

/-- Inside a line and ahead of one, a byte that opens no quoted stretch is read in the same way. -/
theorem step_eq_bareByte (h : Within line s) (bare : b = quote → s.place = .bare)
    (goesOn : isLineEnd b = false) : s.step b = (s.advance b).bareByte b := by
  by_cases isQuote : b = quote
  · simp [Scanner.step, advance, bare isQuote]
  · cases line with
    | nil => simp [Scanner.step, advance, h.ahead rfl, goesOn, isQuote]
    | cons c line =>
      rcases h.inside (List.cons_ne_nil c line) with place | place <;>
        simp [Scanner.step, advance, place, isQuote]

/-- One more byte of the line. -/
theorem step (h : Within line s) (bare : b = quote → s.place = .bare)
    (goesOn : isLineEnd b = false) :
    Within (line ++ [b]) (s.step b) ∧ (s.step b).records = s.records ∧
      (s.step b).start = s.start := by
  rw [h.step_eq_bareByte bare goesOn, bareByte]
  have unbroken : ∀ c ∈ line ++ [b], isLineEnd c = false := by
    simpa [or_imp, forall_and] using ⟨h.unbroken, goesOn⟩
  have more (rest : Bytes) := h.fields (b :: rest)
  by_cases separates : b = comma
  case pos =>
    rw [if_pos separates]
    refine ⟨⟨unbroken, by simp, fun _ => .inl rfl, absurd rfl, fun rest => ?_⟩, rfl, rfl⟩
    rw [List.append_assoc, List.singleton_append, more, splitFields_cons, if_pos separates]
    simp only [endField, advance, List.modifyHead_cons, List.append_nil, List.reverse_cons,
      List.append_assoc, List.singleton_append, List.reverse_nil, modifyHead_nil_append]
  case neg =>
    rw [if_neg separates, goesOn, if_neg Bool.false_ne_true]
    refine ⟨⟨unbroken, by simp, fun _ => .inr rfl, fun _ => rfl, fun rest => ?_⟩, rfl, rfl⟩
    rw [List.append_assoc, List.singleton_append, more, splitFields_cons, if_neg separates]
    simp only [append, advance, List.modifyHead_modifyHead, List.reverse_cons, List.append_assoc,
      List.singleton_append]
    rfl

/-- A line end ahead of a line is passed over. -/
theorem step_between (h : Within [] s) (ends : isLineEnd b = true) :
    Within [] (s.step b) ∧ (s.step b).records = s.records ∧ (s.step b).start = s.start := by
  have passed : s.step b = s.advance b := by
    simp [Scanner.step, advance, h.ahead rfl, ends]
  rw [passed]
  exact ⟨⟨h.unbroken, h.ahead, h.inside, h.begun, h.fields⟩, rfl, rfl⟩

/-- The byte that ends a line closes its record. -/
theorem step_lineEnd (h : Within line s) (begun : line ≠ []) (ends : isLineEnd b = true) :
    Within [] (s.step b) ∧ (s.step b).records = s.record :: s.records := by
  have notQuote : b ≠ quote := by
    rintro rfl
    cases ends
  have notComma : b ≠ comma := by
    rintro rfl
    cases ends
  have closed : s.step b = (s.advance b).endRecord := by
    rcases h.inside begun with place | place <;>
      simp [Scanner.step, advance, place, notQuote, bareByte, notComma, ends]
  rw [closed]
  exact ⟨within_of_empty rfl rfl rfl, rfl⟩

/-- Reading on adds one record for each line, the first of which may have begun before. -/
theorem exists_allRecords_foldl (h : Within line s) {bytes : Bytes}
    (unquoted : ∀ run ∈ runs (line ++ bytes), Unquoted run) :
    ∃ more, (bytes.foldl Scanner.step s).allRecords = s.records.reverse ++ more ∧
      more.map RawRecord.fields = (runs (line ++ bytes)).map splitFields ∧
      ∀ r ∈ more.head?, r.start = s.start := by
  -- What has been read of the line is left open, as it is empty again after each line end.
  induction bytes generalizing line s with
  | nil =>
    refine ⟨s.openRecord?.toList, rfl, ?_⟩
    rw [List.append_nil, runs_of_unbroken h.unbroken, h.openRecord?_eq]
    cases line with
    | nil => simp
    | cons => simp [h.fields_record]
  | cons b bytes ih =>
    cases ends : isLineEnd b with
    | false =>
      have goesOn : ∀ c ∈ line ++ [b], isLineEnd c = false := by
        simpa [or_imp, forall_and] using ⟨h.unbroken, ends⟩
      have same : line ++ b :: bytes = line ++ [b] ++ bytes := by simp
      rw [same] at unquoted
      obtain ⟨rest, inRuns⟩ := exists_append_mem_runs goesOn (by simp) bytes
      have run := unquoted _ inRuns
      rw [List.append_assoc, List.singleton_append] at run
      obtain ⟨within, records, start⟩ := h.step (h.bare_of_unquoted run) ends
      obtain ⟨more, all, fields, first⟩ := ih within unquoted
      refine ⟨more, by rw [List.foldl_cons, all, records], ?_, start ▸ first⟩
      rw [fields, List.append_assoc, List.singleton_append]
    | true =>
      rw [runs_append_lineEnd ends, runs_of_unbroken h.unbroken] at unquoted ⊢
      have rest : ∀ run ∈ runs ([] ++ bytes), Unquoted run :=
        fun run inRest => unquoted run (List.mem_append_right _ inRest)
      cases line with
      | nil =>
        obtain ⟨within, records, start⟩ := h.step_between ends
        obtain ⟨more, all, fields, first⟩ := ih within rest
        exact ⟨more, by rw [List.foldl_cons, all, records], fields, start ▸ first⟩
      | cons c line =>
        obtain ⟨within, records⟩ := h.step_lineEnd (List.cons_ne_nil c line) ends
        obtain ⟨more, all, fields, -⟩ := ih within rest
        refine ⟨s.record :: more, ?_, ?_, by simp⟩
        · rw [List.foldl_cons, all, records]
          simp
        · simpa [h.fields_record] using fields

end Within

end Scanner

/-- A text is read from its mark on. -/
theorem exists_scan_eq (bytes : Bytes) :
    ∃ skipped, scan bytes = (withoutMark bytes).foldl Scanner.step (.initial skipped) := by
  rw [scan, withoutMark]
  cases byteOrderMark.isPrefixOf? bytes with
  | none => exact ⟨0, rfl⟩
  | some rest => exact ⟨byteOrderMark.length, rfl⟩

/-- The records of a text without quoted fields are its lines. The first one begins where the text
does. -/
theorem fields_records {bytes : Bytes} (unquoted : ∀ line ∈ lines bytes, Unquoted line) :
    (records bytes).map RawRecord.fields = (lines bytes).map splitFields ∧
      ∀ r ∈ (records bytes).head?, r.start = ⟨0, 1⟩ := by
  obtain ⟨skipped, read⟩ := exists_scan_eq bytes
  have atStart : Scanner.Within [] (.initial skipped) := Scanner.within_of_empty rfl rfl rfl
  have proper : ∀ run ∈ runs ([] ++ withoutMark bytes), Unquoted run := unquoted
  obtain ⟨more, all, fields, first⟩ := atStart.exists_allRecords_foldl proper
  have same : records bytes = more := by
    rw [← read] at all
    exact all
  rw [same]
  exact ⟨fields, first⟩

end ContentionChart.Csv
