import ContentionChart.Proofs.Reading
import Mathlib.Logic.Relation

/-!
# The order of columns

A table is read by the names of its columns. Columns may be moved about, and columns of other names
may be put in or taken out, without any effect on what the table comes to. Single rows may well be
reported differently: a row is blank only if the other columns are empty in it too.

## Main definitions

* `Column` — a name, and a text for each row.
* `Csv.Table.ofColumns` — the table with the given columns.
* `ColumnChange` — one change to the columns of a table.

## Main statements

* `ColumnChange.known_perm` — a change leaves the known columns, up to their order.
* `Results.value_ofColumns` — the known columns decide what a table comes to.
* `Results.ofTable_rearranged` — no number of changes has an effect on what a table comes to.
-/

namespace ContentionChart

/-- A column of a table with a number of rows: a name, and a text for each row. -/
structure Column (rows : Nat) where
  name : String
  texts : Fin rows → String

variable {n : Nat}

namespace Csv.Table

/-- The fields of one row. -/
def rowOf (columns : List (Column n)) (row : Fin n) : List String :=
  columns.map fun c => c.texts row

/-- The table with the given columns. -/
def ofColumns (columns : List (Column n)) : Table where
  header := .ok (columns.map Column.name)
  rows := (List.finRange n).map fun row => .fields (rowOf columns row)

/-- The columns of a table. A field that a row lacks is empty in them. -/
def columnsOf (header : List String) (records : List (List String)) :
    List (Column records.length) :=
  header.mapIdx fun i name => ⟨name, fun row => records[row.val][i]?.getD ""⟩

@[simp] theorem names_columnsOf (header : List String) (records : List (List String)) :
    (columnsOf header records).map Column.name = header := by
  refine List.ext_getElem (by simp [columnsOf]) fun i _ _ => ?_
  simp [columnsOf]

/-- A table with as many fields in each row as in its header is made of its columns. -/
theorem ofColumns_columnsOf {header : List String} {records : List (List String)}
    (rectangular : ∀ fields ∈ records, fields.length = header.length) :
    ofColumns (columnsOf header records) = ⟨.ok header, records.map .fields⟩ := by
  have fields (row : Fin records.length) :
      rowOf (columnsOf header records) row = records[row.val] := by
    have width : records[row.val].length = header.length := rectangular _ (List.getElem_mem _)
    refine List.ext_getElem (by simp [rowOf, columnsOf, width]) fun i _ inRow => ?_
    simp [rowOf, columnsOf, List.getElem?_eq_getElem inRow]
  have rows : (List.finRange records.length).map (fun row => Row.fields records[row.val]) =
      records.map .fields := by
    refine List.ext_getElem (by simp) fun i _ _ => ?_
    simp
  simp only [ofColumns, names_columnsOf, fields, rows]

/-- Made of columns, a table is complete. -/
theorem brokenOff?_ofColumns (columns : List (Column n)) :
    brokenOff? (ofColumns columns).rows = none := by
  simp [brokenOff?_eq_none_iff, ofColumns]

end Csv.Table

/-! ## Changes -/

def Column.isKnown (c : Column n) : Bool := c.name ∈ knownNames

/-- One change to the columns of a table: they change their places, or a column of a name that the
table is not read by is put in or taken out. -/
inductive ColumnChange : List (Column n) → List (Column n) → Prop where
  | move {columns others : List (Column n)} : columns.Perm others → ColumnChange columns others
  | insert {c : Column n} {before after : List (Column n)} :
      c.name ∉ ["lock", "threads", "ops_s", "task"] →
      ColumnChange (before ++ after) (before ++ c :: after)
  | remove {c : Column n} {before after : List (Column n)} :
      c.name ∉ ["lock", "threads", "ops_s", "task"] →
      ColumnChange (before ++ c :: after) (before ++ after)

variable {columns others : List (Column n)}

theorem filter_isKnown_append_cons {c : Column n} (other : c.name ∉ knownNames)
    (before after : List (Column n)) :
    (before ++ c :: after).filter Column.isKnown = (before ++ after).filter Column.isKnown := by
  simp [Column.isKnown, other]

/-- A change leaves the known columns, up to their order. -/
theorem ColumnChange.known_perm (change : ColumnChange columns others) :
    (columns.filter Column.isKnown).Perm (others.filter Column.isKnown) := by
  cases change with
  | move perm => exact perm.filter _
  | insert other => rw [filter_isKnown_append_cons other]
  | remove other => rw [filter_isKnown_append_cons other]

theorem known_perm_of_changes (changes : Relation.ReflTransGen ColumnChange columns others) :
    (columns.filter Column.isKnown).Perm (others.filter Column.isKnown) := by
  induction changes with
  | refl => exact .refl _
  | tail _ change ih => exact ih.trans change.known_perm

/-! ## Fields by name -/

/-- Where a name stands only once, the field under it is that of any column of this name. -/
theorem fieldUnder_rowOf_iff {name value : String} {row : Fin n}
    (once : (columns.map Column.name).count name ≤ 1) :
    FieldUnder (columns.map Column.name) name (Csv.Table.rowOf columns row) value ↔
      ∃ c ∈ columns, c.name = name ∧ c.texts row = value := by
  induction columns with
  | nil => simp [not_fieldUnder_nil]
  | cons c columns ih =>
    rw [List.map_cons, List.count_cons] at once
    rw [List.map_cons, Csv.Table.rowOf, List.map_cons]
    simp only [List.mem_cons, or_and_right, exists_or, exists_eq_left]
    by_cases here : c.name = name
    · have none : name ∉ columns.map Column.name := by
        rw [← List.count_eq_zero]
        simpa [here] using once
      have later : ¬ ∃ d ∈ columns, d.name = name ∧ d.texts row = value := by
        rintro ⟨d, mem, rfl, -⟩
        exact none (List.mem_map_of_mem mem)
      simp only [here, fieldUnder_cons_self, true_and, later, or_false]
    · have rest := ih (by omega)
      rw [fieldUnder_cons_of_ne here, ← Csv.Table.rowOf, rest]
      simp only [here, false_and, false_or]

/-! ## Tables with the same known columns -/

theorem exists_named_of_known_perm {name : String} (known : name ∈ knownNames)
    (perm : (columns.filter Column.isKnown).Perm (others.filter Column.isKnown))
    {p : Column n → Prop} (h : ∃ c ∈ columns, c.name = name ∧ p c) :
    ∃ c ∈ others, c.name = name ∧ p c := by
  obtain ⟨c, mem, rfl, holds⟩ := h
  have kept : c ∈ columns.filter Column.isKnown :=
    List.mem_filter.2 ⟨mem, by simpa [Column.isKnown] using known⟩
  exact ⟨c, (List.mem_filter.1 (perm.mem_iff.1 kept)).1, rfl, holds⟩

theorem count_name_filter_isKnown {name : String} (known : name ∈ knownNames)
    (columns : List (Column n)) :
    ((columns.filter Column.isKnown).map Column.name).count name =
      (columns.map Column.name).count name := by
  simp only [List.count, List.countP_map, List.countP_filter]
  refine List.countP_congr fun c _ => ?_
  have ofName : c.name = name → c.isKnown = true := by
    rintro rfl
    simpa [Column.isKnown] using known
  simpa using ofName

namespace Results

/-- The known columns decide what a table comes to. -/
theorem value_ofColumns
    (once : ∀ name ∈ knownNames, (columns.map Column.name).count name ≤ 1)
    (perm : (columns.filter Column.isKnown).Perm (others.filter Column.isKnown)) :
    (ofTable (.ofColumns others)).value = (ofTable (.ofColumns columns)).value := by
  have once' : ∀ name ∈ knownNames, (others.map Column.name).count name ≤ 1 := by
    intro name known
    rw [← count_name_filter_isKnown known, ← (perm.map _).count_eq, count_name_filter_isKnown known]
    exact once name known
  have fields {name : String} (known : name ∈ knownNames) (row : Fin n) (value : String) :
      FieldUnder (others.map Column.name) name (Csv.Table.rowOf others row) value ↔
        FieldUnder (columns.map Column.name) name (Csv.Table.rowOf columns row) value := by
    rw [fieldUnder_rowOf_iff (once name known), fieldUnder_rowOf_iff (once' name known)]
    exact ⟨exists_named_of_known_perm known perm.symm, exists_named_of_known_perm known perm⟩
  have named {name : String} (known : name ∈ knownNames) :
      name ∈ others.map Column.name ↔ name ∈ columns.map Column.name := by
    rw [← List.count_pos_iff, ← List.count_pos_iff, ← count_name_filter_isKnown known,
      ← count_name_filter_isKnown known columns, (perm.map _).count_eq]
  have missing : Columns.missingNames (others.map Column.name) =
      Columns.missingNames (columns.map Column.name) := by
    refine List.filter_congr fun name required => ?_
    rw [decide_eq_decide, named (List.mem_append_left ["task"] required)]
  have measures (row : Fin n) (s : Sample Float) :
      Gives (others.map Column.name) (.fields (Csv.Table.rowOf others row)) s ↔
        Gives (columns.map Column.name) (.fields (Csv.Table.rowOf columns row)) s := by
    simp only [Gives, Csv.Row.fields.injEq, exists_eq_left']
    exact ⟨.congr fun _ known => fields known row,
      .congr fun _ known value => (fields known row value).symm⟩
  have broken : Csv.brokenOff? (Csv.Table.ofColumns others).rows =
      Csv.brokenOff? (Csv.Table.ofColumns columns).rows := by
    rw [Csv.Table.brokenOff?_ofColumns, Csv.Table.brokenOff?_ofColumns]
  exact value_ofTable_congr missing broken fun _ _ => Accepted.map_congr measures

/-- Columns may change their places, and columns that the table is not read by may come and go. If
each name that it is read by stands at most once, the table comes to the same: the same results, the
same missing names, or no data. -/
theorem ofTable_rearranged {header : List String} {records : List (List String)}
    (once : ∀ name ∈ ["lock", "threads", "ops_s", "task"], header.count name ≤ 1)
    (rectangular : ∀ fields ∈ records, fields.length = header.length) :
    let columns := Csv.Table.columnsOf header records
    Csv.Table.ofColumns columns = ⟨.ok header, records.map .fields⟩ ∧
      ∀ others, Relation.ReflTransGen ColumnChange columns others →
        (ofTable (.ofColumns others)).value = (ofTable ⟨.ok header, records.map .fields⟩).value := by
  intro columns
  have made := Csv.Table.ofColumns_columnsOf rectangular
  refine ⟨made, fun others changes => ?_⟩
  rw [← made]
  refine value_ofColumns (fun name known => ?_) (known_perm_of_changes changes)
  rw [Csv.Table.names_columnsOf]
  exact once name known

/-- With a further column a blank row is no longer blank, but the table comes to the same. -/
theorem ofTable_rearranged_remark :
    let header := ["lock", "threads", "ops_s"]
    let records := [["A", "4", "9"], ["", "", ""], ["B", "two", "5"], ["A", "2", "7"]]
    let header' := ["remark", "ops_s", "lock", "threads"]
    let records' := [["", "9", "A", "4"], ["noise", "", "", ""], ["", "5", "B", "two"],
      ["late", "7", "A", "2"]]
    (∀ name ∈ ["lock", "threads", "ops_s", "task"], header.count name ≤ 1) ∧
      (∀ fields ∈ records, fields.length = header.length) ∧
      (ofTable ⟨.ok header', records'.map .fields⟩).value =
        (ofTable ⟨.ok header, records.map .fields⟩).value := by
  intro header records header' records'
  have once : ∀ name ∈ ["lock", "threads", "ops_s", "task"], header.count name ≤ 1 := by decide
  have rectangular : ∀ fields ∈ records, fields.length = header.length := by decide
  obtain ⟨-, same⟩ := ofTable_rearranged once rectangular
  let lock : Column 4 := ⟨"lock", fun row => records[row.val][0]?.getD ""⟩
  let threads : Column 4 := ⟨"threads", fun row => records[row.val][1]?.getD ""⟩
  let throughput : Column 4 := ⟨"ops_s", fun row => records[row.val][2]?.getD ""⟩
  let remark : Column 4 := ⟨"remark", fun row => records'[row.val][0]?.getD ""⟩
  have moved : ColumnChange [lock, threads, throughput] [throughput, lock, threads] :=
    .move (@List.perm_append_comm _ [lock, threads] [throughput])
  have inserted : ColumnChange [throughput, lock, threads] [remark, throughput, lock, threads] :=
    @ColumnChange.insert 4 remark [] _ (by decide)
  exact ⟨once, rectangular, same _ (.tail (.single moved) inserted)⟩

end Results

end ContentionChart
