import ContentionChart.Proofs.RegularTicks

/-!
# Ticks at powers of ten

On the scales that are logarithmic the ticks stand at powers of ten, if there are two or more of
these in range. They are ascending, and every so many of them are ticked where there are more than
eight. Which of them stay is counted from the least of them on: zero is one of the places on the
symmetric scale, and stays only if the number of places below it is a multiple of the stride.

## Main definitions

* `Ticks.ComparedBy` — numbers of a list compare as real numbers or others that they stand for.
* `Scale.placesBetween` — the places in a range of the symmetric scale, before repeats are left out.

## Main statements

* `Scale.ordered_symmetricPowers` — zero and the powers of ten on both sides of it are in order.
* `Scale.exists_mem_ticks_iff` — whether zero stays among the places.
* `RoundedScale.ascending_decades_symlog` — the places of rounded numbers.
* `RoundedScale.exists_zero_mem_ticks_symlog_iff` — when zero is ticked among rounded numbers.
-/

namespace ContentionChart

open ChartNumber Ticks

variable {α : Type} [ChartNumber α] {round : ℝ → ℝ} {value : α → ℝ}

/-! ## Thinning -/

namespace Scale

variable {scale : Scale} {lo hi : α}

theorem ticks_of_several (several : 2 ≤ (scale.decades lo hi).length) :
    scale.ticks lo hi =
      everyNth (strideFor (scale.decades lo hi).length throughputTarget) (scale.decades lo hi) :=
  if_pos several

theorem ticks_sublist_decades (several : 2 ≤ (scale.decades lo hi).length) :
    (scale.ticks lo hi).Sublist (scale.decades lo hi) := by
  rw [ticks_of_several several]
  exact everyNth_sublist _ _

end Scale

/-! ## Repeats -/

/-- The numbers of a list compare as their keys do. -/
def Ticks.ComparedBy {γ : Type} [LE γ] (key : α → γ) (xs : List α) : Prop :=
  ∀ a ∈ xs, ∀ b ∈ xs, a ≤ b ↔ key a ≤ key b

section

variable {γ : Type} [LinearOrder γ] {key : α → γ} {kept a b x : α} {xs ys : List α}

theorem Ticks.ComparedBy.mono (h : ComparedBy key xs) (sub : ys ⊆ xs) : ComparedBy key ys :=
  fun a ha b hb => h a (sub ha) b (sub hb)

theorem Ticks.ComparedBy.same_iff (h : ComparedBy key xs) (ha : a ∈ xs) (hb : b ∈ xs) :
    Same a b ↔ key a = key b := by
  rw [Same, h a ha b hb, h b hb a ha, le_antisymm_iff]

/-- What is left out equals what was kept, so that the rest is strictly greater. -/
theorem ascending_dropRepeatsAfter (compared : ComparedBy key (kept :: xs))
    (ordered : (kept :: xs).Pairwise fun a b => key a ≤ key b) :
    (kept :: dropRepeatsAfter kept xs).Pairwise fun a b => key a < key b := by
  induction xs generalizing kept with
  | nil => exact List.pairwise_singleton _ _
  | cons b bs ih =>
    obtain ⟨least, rest⟩ := List.pairwise_cons.1 ordered
    rw [dropRepeatsAfter]
    split
    case isTrue =>
      have fewer := List.Sublist.cons_cons kept (List.sublist_cons_self b bs)
      exact ih (compared.mono fewer.subset) (ordered.sublist fewer)
    case isFalse differ =>
      rw [compared.same_iff (by simp) (by simp)] at differ
      have less := (least b List.mem_cons_self).lt_of_ne differ
      have following := ih (compared.mono (List.subset_cons_self _ _)) rest
      refine List.pairwise_cons.2 ⟨?_, following⟩
      intro c mem
      rcases List.mem_cons.1 mem with rfl | later
      · exact less
      · exact less.trans ((List.pairwise_cons.1 following).1 c later)

theorem ascending_dropRepeats (compared : ComparedBy key xs)
    (ordered : xs.Pairwise fun a b => key a ≤ key b) :
    (dropRepeats xs).Pairwise fun a b => key a < key b := by
  cases xs with
  | nil => exact .nil
  | cons x xs => exact ascending_dropRepeatsAfter compared ordered

theorem exists_mem_dropRepeatsAfter (compared : ComparedBy key (kept :: xs)) (mem : x ∈ xs) :
    ∃ y ∈ kept :: dropRepeatsAfter kept xs, key y = key x := by
  induction xs generalizing kept with
  | nil => cases mem
  | cons b bs ih =>
    rw [dropRepeatsAfter]
    rcases List.mem_cons.1 mem with rfl | later
    · split
      case isTrue same =>
        exact ⟨kept, List.mem_cons_self, (compared.same_iff (by simp) (by simp)).1 same⟩
      case isFalse => exact ⟨x, List.mem_cons_of_mem _ List.mem_cons_self, rfl⟩
    · split
      case isTrue =>
        have fewer := List.Sublist.cons_cons kept (List.sublist_cons_self b bs)
        exact ih (compared.mono fewer.subset) later
      case isFalse =>
        obtain ⟨y, inRest, same⟩ : ∃ y ∈ b :: dropRepeatsAfter b bs, key y = key x :=
          ih (compared.mono (List.subset_cons_self _ _)) later
        exact ⟨y, List.mem_cons_of_mem _ inRest, same⟩

/-- Nothing is lost but repeats. -/
theorem exists_mem_dropRepeats (compared : ComparedBy key xs) (mem : x ∈ xs) :
    ∃ y ∈ dropRepeats xs, key y = key x := by
  cases xs with
  | nil => cases mem
  | cons a as =>
    rcases List.mem_cons.1 mem with rfl | later
    · exact ⟨x, List.mem_cons_self, rfl⟩
    · exact exists_mem_dropRepeatsAfter compared later

end

theorem Rounded.comparedBy (h : Rounded α round value) (xs : List α) : ComparedBy value xs :=
  fun _ _ _ _ => h.le_iff _ _

theorem dropRepeatsAfter_sublist (kept : α) (xs : List α) :
    (dropRepeatsAfter kept xs).Sublist xs := by
  induction xs generalizing kept with
  | nil => exact .slnil
  | cons b bs ih =>
    rw [dropRepeatsAfter]
    split
    · exact (ih kept).cons b
    · exact (ih b).cons_cons b

theorem dropRepeats_sublist (xs : List α) : (dropRepeats xs).Sublist xs := by
  cases xs with
  | nil => exact .slnil
  | cons a as => exact (dropRepeatsAfter_sublist a as).cons_cons a

/-! ## The symmetric scale -/

namespace Scale

variable {γ : Type} [LinearOrder γ] {key : α → γ} {origin : γ} {lo hi : α} {top : ℕ}

/-- The negative powers of ten come first, the greatest of them before all others, then zero and
then the powers of ten. -/
theorem ordered_symmetricPowers
    (ascending : ∀ j k : ℕ, j ≤ k → k ≤ top →
      key (ChartNumber.exp10 (ofInt j)) ≤ key (ChartNumber.exp10 (ofInt k)))
    (mirrored : ∀ j k : ℕ, j ≤ k → k ≤ top →
      key (-ChartNumber.exp10 (ofInt k)) ≤ key (-ChartNumber.exp10 (ofInt j)))
    (below : key (-ChartNumber.exp10 (ofInt 0)) ≤ key 0.0)
    (above : key 0.0 ≤ key (ChartNumber.exp10 (ofInt 0))) :
    (symmetricPowers top : List α).Pairwise fun a b => key a ≤ key b := by
  have bounded : (List.range (top + 1)).Pairwise fun j k => j ≤ k ∧ k ≤ top :=
    List.pairwise_lt_range.imp_of_mem fun _ mem lt =>
      ⟨lt.le, Nat.le_of_lt_succ (List.mem_range.1 mem)⟩
  have power {a : α} (mem : a ∈ (List.range (top + 1)).map fun k : ℕ =>
      ChartNumber.exp10 (ofInt k : α)) : key 0.0 ≤ key a ∧ key (-a) ≤ key 0.0 := by
    obtain ⟨k, below_top, rfl⟩ := List.mem_map.1 mem
    have le := Nat.le_of_lt_succ (List.mem_range.1 below_top)
    exact ⟨above.trans (ascending 0 k k.zero_le le), (mirrored 0 k k.zero_le le).trans below⟩
  simp only [symmetricPowers]
  refine List.pairwise_append.2 ⟨?negative, List.pairwise_cons.2 ⟨?zero, ?positive⟩, ?across⟩
  case negative =>
    refine List.pairwise_map.2 (List.pairwise_reverse.2 (List.pairwise_map.2 ?_))
    exact bounded.imp fun between => mirrored _ _ between.1 between.2
  case zero => exact fun a mem => (power mem).1
  case positive =>
    exact List.pairwise_map.2 (bounded.imp fun between => ascending _ _ between.1 between.2)
  case across =>
    intro a mem b mem'
    obtain ⟨c, inPowers, rfl⟩ := List.mem_map.1 mem
    refine (power (List.mem_reverse.1 inPowers)).2.trans ?_
    rcases List.mem_cons.1 mem' with rfl | inPowers'
    · exact le_rfl
    · exact (power inPowers').1

/-- The places of powers of ten in a range of the symmetric scale, repeated ones too. -/
def placesBetween (lo hi : α) : List α :=
  ((symmetricPowers (topExponent lo hi)).map symlog.position).filter fun v => lo ≤ v ∧ v ≤ hi

theorem mem_placesBetween_iff {v : α} :
    v ∈ placesBetween lo hi ↔
      (∃ y ∈ symmetricPowers (topExponent lo hi), symlog.position y = v) ∧ lo ≤ v ∧ v ≤ hi := by
  rw [placesBetween, List.mem_filter, List.mem_map, decide_eq_true_eq]

theorem zero_mem_symmetricPowers (top : ℕ) : (0.0 : α) ∈ symmetricPowers top :=
  List.mem_append_right _ List.mem_cons_self

theorem between_of_mem_decades_symlog {v : α} (mem : v ∈ symlog.decades lo hi) :
    lo ≤ v ∧ v ≤ hi :=
  (mem_placesBetween_iff.1 ((dropRepeats_sublist _).mem mem)).2

theorem ascending_decades_symlog (compared : ComparedBy key (placesBetween lo hi))
    (ordered : (symmetricPowers (topExponent lo hi)).Pairwise fun a b =>
      key (symlog.position a) ≤ key (symlog.position b)) :
    (symlog.decades lo hi).Pairwise fun a b => key a < key b :=
  ascending_dropRepeats compared (List.Pairwise.filter _ (List.pairwise_map.2 ordered))

/-- Where there are several places, that of zero is kept if as many places as a multiple of the
stride are below it. -/
theorem exists_mem_ticks_iff (several : 2 ≤ (symlog.decades lo hi).length)
    (ascending : (symlog.decades lo hi).Pairwise fun a b => key a < key b)
    (found : ∃ v ∈ symlog.decades lo hi, key v = origin)
    (below : ∀ v ∈ symlog.decades lo hi, v < 0.0 ↔ key v < origin) :
    (∃ t ∈ symlog.ticks lo hi, key t = origin) ↔
      (symlog.decades lo hi).length ⌈/⌉ throughputTarget ∣
        (symlog.decades lo hi).countP fun v => v < 0.0 := by
  have stride : 0 < strideFor (symlog.decades lo hi).length throughputTarget :=
    strideFor_pos (by decide) (two_pos.trans_le several)
  have count : (symlog.decades lo hi).countP (fun v => v < 0.0) =
      (symlog.decades lo hi).countP fun v => key v < origin :=
    List.countP_congr fun v mem => by rw [decide_eq_true_eq, decide_eq_true_eq, below v mem]
  rw [ticks_of_several several, count, ← strideFor_eq]
  constructor
  · rintro ⟨t, ticked, rfl⟩
    have inDecades := (everyNth_sublist _ _).mem ticked
    exact (mem_everyNth_iff_dvd_countP stride ascending inDecades).1 ticked
  · intro multiple
    obtain ⟨v, inDecades, rfl⟩ := found
    exact ⟨v, (mem_everyNth_iff_dvd_countP stride ascending inDecades).2 multiple, rfl⟩

end Scale

/-! ## With rounding -/

namespace RoundedScale

variable {lo hi : α}

theorem value_exp10_ofInt_le (h : RoundedScale α round value) {j k : ℤ} (le : j ≤ k) :
    value (ChartNumber.exp10 (ofInt j)) ≤ value (ChartNumber.exp10 (ofInt k)) := by
  rw [h.exp10, h.exp10, h.ofInt, h.ofInt]
  refine h.monotone (Real.rpow_le_rpow_of_exponent_le (by norm_num) (h.monotone ?_))
  exact Int.cast_le.2 le

/-- The powers of ten and zero are in order, on both sides of zero. -/
theorem ordered_symmetricPowers (h : RoundedScale α round value) (top : ℕ) :
    (Scale.symmetricPowers top : List α).Pairwise fun a b => value a ≤ value b := by
  refine Scale.ordered_symmetricPowers (fun j k le _ => h.value_exp10_ofInt_le (by omega))
    (fun j k le _ => ?_) ?_ ?_
  · rw [h.neg, h.neg]
    exact neg_le_neg (h.value_exp10_ofInt_le (by omega))
  · rw [h.neg, h.value_zero]
    exact neg_nonpos.2 (h.value_exp10_nonneg _)
  · rw [h.value_zero]
    exact h.value_exp10_nonneg _

/-- The places of powers of ten on the symmetric scale are in ascending order, and in range. -/
theorem ascending_decades_symlog (h : RoundedScale α round value) (lo hi : α) :
    (Scale.symlog.decades lo hi).Pairwise (fun a b => value a < value b) ∧
      ∀ v ∈ Scale.symlog.decades lo hi, value lo ≤ value v ∧ value v ≤ value hi := by
  constructor
  · exact Scale.ascending_decades_symlog (h.comparedBy _)
      ((h.ordered_symmetricPowers _).imp fun le => h.symlog_position_le le)
  · intro v mem
    have between := Scale.between_of_mem_decades_symlog mem
    rwa [h.le_iff, h.le_iff] at between

/-- Zero is one of them if it is in range. -/
theorem exists_zero_mem_decades_symlog (h : RoundedScale α round value) (low : value lo ≤ 0)
    (high : 0 ≤ value hi) : ∃ v ∈ Scale.symlog.decades lo hi, value v = 0 := by
  have origin : value (Scale.symlog.position (0.0 : α)) = 0 := h.symlog_position_zero h.value_zero
  have place : Scale.symlog.position (0.0 : α) ∈ Scale.placesBetween lo hi := by
    refine Scale.mem_placesBetween_iff.2 ⟨⟨_, Scale.zero_mem_symmetricPowers _, rfl⟩, ?_⟩
    rw [h.le_iff, h.le_iff, origin]
    exact ⟨low, high⟩
  obtain ⟨v, mem, same⟩ := exists_mem_dropRepeats (h.comparedBy _) place
  exact ⟨v, mem, same.trans origin⟩

/-- On a symmetric axis that spans zero, zero is ticked where regular ticks are used, and otherwise
only if as many places as a multiple of the stride are below it. -/
theorem exists_zero_mem_ticks_symlog_iff (h : RoundedScale α round value) (low : value lo ≤ 0)
    (high : 0 ≤ value hi) (ordered : value lo < value hi) :
    let decades := Scale.symlog.decades lo hi
    (∃ t ∈ Scale.symlog.ticks lo hi, value t = 0) ↔
      decades.length < 2 ∨ decades.length ⌈/⌉ 8 ∣ decades.countP fun v => v < (0.0 : α) := by
  intro decades
  by_cases several : 2 ≤ decades.length
  case neg =>
    have regular : Scale.symlog.ticks lo hi = regular lo hi throughputTarget := if_neg several
    rw [regular]
    exact iff_of_true (h.exists_zero_mem_regular low high ordered (by decide))
      (.inl (not_le.1 several))
  case pos =>
    rw [or_iff_right (not_lt.2 several)]
    refine Scale.exists_mem_ticks_iff several (h.ascending_decades_symlog lo hi).1
      (h.exists_zero_mem_decades_symlog low high) fun v _ => ?_
    rw [h.lt_iff, h.value_zero]

end RoundedScale

end ContentionChart
