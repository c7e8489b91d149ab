/-!
# Values by label

A map from labels to values that is kept in ascending order of the labels. Labels are compared
character by character, which is also the order of their bytes in UTF-8.

## Main definitions

* `LabelMap` — the entries, with the proof that their labels ascend.
* `LabelMap.alter` — make or change the value of a label.
* `LabelMap.find?` — the value of a label.
* `LabelMap.map`, `LabelMap.filterMap` — change every value, or drop it.
-/

namespace ContentionChart

/-- Values by label, in strictly ascending order of the labels. -/
structure LabelMap (β : Type) where
  entries : List (String × β)
  ascending : entries.Pairwise fun a b => a.1 < b.1
  deriving DecidableEq

namespace LabelMap

variable {β γ : Type}

def empty : LabelMap β := ⟨[], .nil⟩

def isEmpty (m : LabelMap β) : Bool := m.entries.isEmpty

/-- The number of labels. -/
def size (m : LabelMap β) : Nat := m.entries.length

def labels (m : LabelMap β) : List String := m.entries.map Prod.fst

/-- The values in the order of their labels. -/
def values (m : LabelMap β) : List β := m.entries.map Prod.snd

def find? (m : LabelMap β) (label : String) : Option β := m.entries.lookup label

/-- Labels ascend, so that none stands twice and each entry is the one that is found. -/
theorem lookup_eq_some_iff {label : String} {value : β} {entries : List (String × β)}
    (h : entries.Pairwise fun a b => a.1 < b.1) :
    entries.lookup label = some value ↔ (label, value) ∈ entries := by
  induction entries with
  | nil => simp
  | cons first rest ih =>
    obtain ⟨l, b⟩ := first
    obtain ⟨least, tail⟩ := List.pairwise_cons.1 h
    by_cases same : label = l
    · subst same
      have absent : (label, value) ∉ rest := fun mem => Std.ne_of_lt (least _ mem) rfl
      simp only [List.lookup_cons_self, Option.some.injEq, List.mem_cons, Prod.mk.injEq, true_and,
        absent, or_false]
      exact eq_comm
    · have different : (label == l) = false := by simpa using same
      simp only [List.lookup_cons, different, ih tail]
      simp [same]

theorem find?_eq_some_iff {m : LabelMap β} {label : String} {value : β} :
    m.find? label = some value ↔ (label, value) ∈ m.entries :=
  lookup_eq_some_iff m.ascending

theorem mem_labels_iff {m : LabelMap β} {label : String} :
    label ∈ m.labels ↔ ∃ value, m.find? label = some value := by
  simp [labels, find?_eq_some_iff]

/-- There is one order for the entries, so that maps in which the same is found are one. -/
theorem eq_of_find?_eq {m n : LabelMap β} (h : ∀ label, m.find? label = n.find? label) :
    m = n := by
  have distinct (m : LabelMap β) : m.entries.Nodup :=
    m.ascending.imp fun before same => Std.ne_of_lt before (congrArg Prod.fst same)
  have perm : m.entries.Perm n.entries := by
    refine (List.perm_ext_iff_of_nodup (distinct m) (distinct n)).2 fun e => ?_
    have found (m : LabelMap β) : e ∈ m.entries ↔ m.find? e.1 = some e.2 :=
      find?_eq_some_iff.symm
    rw [found, found, h]
  have same : m.entries = n.entries :=
    List.Perm.eq_of_pairwise
      (fun a b _ _ before after => absurd (String.lt_trans before after) (String.lt_irrefl a.1))
      m.ascending n.ascending perm
  cases m
  cases n
  simpa using same

/-- One pass down ascending entries, changing the entry of the label or making it where it
belongs. -/
def alterEntries (label : String) (change : Option β → β) :
    List (String × β) → List (String × β)
  | [] => [(label, change none)]
  | (l, b) :: rest =>
    if label < l then (label, change none) :: (l, b) :: rest
    else if label = l then (l, change (some b)) :: rest
    else (l, b) :: alterEntries label change rest

theorem label_of_mem_alterEntries {label : String} {change : Option β → β} {e : String × β}
    {entries : List (String × β)} (h : e ∈ alterEntries label change entries) :
    e.1 = label ∨ e.1 ∈ entries.map Prod.fst := by
  induction entries with
  | nil => simp_all [alterEntries]
  | cons first rest ih =>
    obtain ⟨l, b⟩ := first
    rw [alterEntries] at h
    split at h
    · rcases List.mem_cons.1 h with rfl | h
      · exact .inl rfl
      · exact .inr (List.mem_map_of_mem h)
    · split at h
      · rcases List.mem_cons.1 h with rfl | h
        · exact .inr (by simp)
        · exact .inr (List.mem_map_of_mem (List.mem_cons_of_mem _ h))
      · rcases List.mem_cons.1 h with rfl | h
        · exact .inr (by simp)
        · rcases ih h with h | h
          · exact .inl h
          · exact .inr (by simp_all)

theorem ascending_alterEntries (label : String) (change : Option β → β)
    {entries : List (String × β)} (h : entries.Pairwise fun a b => a.1 < b.1) :
    (alterEntries label change entries).Pairwise fun a b => a.1 < b.1 := by
  induction entries with
  | nil => simp [alterEntries]
  | cons first rest ih =>
    obtain ⟨l, b⟩ := first
    obtain ⟨least, tail⟩ := List.pairwise_cons.1 h
    rw [alterEntries]
    split
    · rename_i before
      refine List.pairwise_cons.2 ⟨fun e he => ?_, h⟩
      rcases List.mem_cons.1 he with rfl | he
      · exact before
      · exact String.lt_trans before (least e he)
    · rename_i notBefore
      split
      · exact List.pairwise_cons.2 ⟨least, tail⟩
      · rename_i other
        have after : l < label := by
          rcases Std.le_total (a := label) (b := l) with le | le
          · exact absurd (Std.lt_of_le_of_ne le other) notBefore
          · exact Std.lt_of_le_of_ne le (Ne.symm other)
        refine List.pairwise_cons.2 ⟨fun e he => ?_, ih tail⟩
        rcases label_of_mem_alterEntries he with same | old
        · exact same ▸ after
        · obtain ⟨e', he', same⟩ := List.mem_map.1 old
          exact same ▸ least e' he'

theorem lookup_alterEntries_self (label : String) (change : Option β → β)
    {entries : List (String × β)} (h : entries.Pairwise fun a b => a.1 < b.1) :
    (alterEntries label change entries).lookup label = some (change (entries.lookup label)) := by
  induction entries with
  | nil => simp [alterEntries]
  | cons first rest ih =>
    obtain ⟨l, b⟩ := first
    obtain ⟨least, tail⟩ := List.pairwise_cons.1 h
    rw [alterEntries]
    split
    · rename_i before
      have absent : ((l, b) :: rest).lookup label = none := by
        refine List.lookup_eq_none_iff.2 fun e he => ?_
        rcases List.mem_cons.1 he with rfl | he
        · simpa using Std.ne_of_lt before
        · simpa using Std.ne_of_lt (String.lt_trans before (least e he))
      simp [absent]
    · split
      · simp_all
      · rename_i other
        have different : (label == l) = false := by simpa using other
        simp only [List.lookup_cons, different, ih tail]

theorem lookup_alterEntries_of_ne {label other : String} (change : Option β → β)
    (entries : List (String × β)) (h : other ≠ label) :
    (alterEntries label change entries).lookup other = entries.lookup other := by
  have different : (other == label) = false := by simpa using h
  induction entries with
  | nil => simp only [alterEntries, List.lookup_cons, different]
  | cons first rest ih =>
    obtain ⟨l, b⟩ := first
    rw [alterEntries]
    split
    · simp only [List.lookup_cons, different]
    · split
      · rename_i same
        simp only [List.lookup_cons, ← same, different]
      · simp only [List.lookup_cons, ih]

/-- Change the value of a label, or make one. -/
def alter (m : LabelMap β) (label : String) (change : Option β → β) : LabelMap β :=
  ⟨alterEntries label change m.entries, ascending_alterEntries label change m.ascending⟩

@[simp] theorem find?_alter_self (m : LabelMap β) (label : String) (change : Option β → β) :
    (m.alter label change).find? label = some (change (m.find? label)) :=
  lookup_alterEntries_self label change m.ascending

theorem find?_alter_of_ne (m : LabelMap β) {label other : String} (change : Option β → β)
    (h : other ≠ label) : (m.alter label change).find? other = m.find? other :=
  lookup_alterEntries_of_ne change m.entries h

@[simp] theorem mem_labels_alter {m : LabelMap β} {label other : String}
    {change : Option β → β} :
    other ∈ (m.alter label change).labels ↔ other = label ∨ other ∈ m.labels := by
  by_cases same : other = label
  · simp [mem_labels_iff, same]
  · simp [mem_labels_iff, find?_alter_of_ne m change same, same]

/-- Change every value. -/
def map (f : β → γ) (m : LabelMap β) : LabelMap γ :=
  ⟨m.entries.map fun e => (e.1, f e.2), List.pairwise_map.2 m.ascending⟩

@[simp] theorem labels_map (f : β → γ) (m : LabelMap β) : (m.map f).labels = m.labels := by
  simp [labels, map]

@[simp] theorem values_map (f : β → γ) (m : LabelMap β) : (m.map f).values = m.values.map f := by
  simp [values, map]

@[simp] theorem find?_map (f : β → γ) (m : LabelMap β) (label : String) :
    (m.map f).find? label = (m.find? label).map f := by
  obtain ⟨entries, ascending⟩ := m
  simp only [find?, map]
  clear ascending
  induction entries with
  | nil => rfl
  | cons first rest ih =>
    obtain ⟨l, b⟩ := first
    simp only [List.map_cons, List.lookup_cons, ih]
    cases label == l <;> rfl

/-- Change every value, and drop the labels of those that come to nothing. -/
def filterMap (f : β → Option γ) (m : LabelMap β) : LabelMap γ where
  entries := m.entries.filterMap fun e => (f e.2).map fun value => (e.1, value)
  ascending := by
    refine List.pairwise_filterMap.2 (m.ascending.imp fun before a ha b hb => ?_)
    simp only [Option.map_eq_some_iff] at ha hb
    obtain ⟨_, -, rfl⟩ := ha
    obtain ⟨_, -, rfl⟩ := hb
    exact before

end LabelMap

end ContentionChart
