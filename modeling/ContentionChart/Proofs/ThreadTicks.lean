import ContentionChart.Proofs.Strides
import Mathlib.Data.List.Chain
import Mathlib.Data.List.Pairwise

/-!
# Ticks among thread counts

If there are more thread counts than are to be ticked, every so many of them are, and the largest in
any case. Everything rests on one equation: the largest comes after every so many of the others,
whether it is on the stride itself or not.

## Main definitions

* `Ticks.Thinned` — every so many of some thread counts, and the last.
* `Ticks.ofThreads?` — the ticks, computed in 64 bits.

## Main statements

* `Ticks.ofThreads_concat` — the ticks of more thread counts than are asked for.
* `Ticks.ofThreads_ends` — the least and the greatest are ticked.
* `Ticks.ofThreads_thinned` — the ticks among ascending thread counts.
-/

namespace ContentionChart.Ticks

variable {counts ticks : List ℕ} {limit : ℕ}

/-- Ticks at every `stride`-th of some thread counts and at the last of them, which are at most one
more than a limit. -/
structure Thinned (counts : List ℕ) (stride limit : ℕ) (ticks : List ℕ) : Prop where
  ascending : ticks.Pairwise (· < ·)
  sublist : ticks.Sublist counts
  first : ticks.head? = counts.head?
  last : ticks.getLast? = counts.getLast?
  mem_iff : ∀ (i : ℕ) (h : i < counts.length),
    counts[i] ∈ ticks ↔ stride ∣ i ∨ i = counts.length - 1
  near : ticks.IsChain fun a b =>
    ∃ i j, counts[i]? = some a ∧ counts[j]? = some b ∧ i < j ∧ j ≤ i + stride
  length : ticks.length = (counts.length - 1) ⌈/⌉ stride + 1
  length_le : ticks.length ≤ limit + 1
  extra : limit < ticks.length → ¬ stride ∣ counts.length - 1

/-- The ticks with the largest thread count added, unless it is the last of them. -/
def withLargest (counts ticks : List ℕ) : List ℕ :=
  match counts.getLast?, ticks.getLast? with
  | some largest, some last => if largest ≠ last then ticks ++ [largest] else ticks
  | _, _ => ticks

theorem ofThreads_of_lt (positive : 0 < limit) (more : limit < counts.length) :
    ofThreads counts limit =
      withLargest counts (everyNth (strideFor counts.length limit) counts) := by
  rw [ofThreads, if_neg positive.ne', if_neg (not_le.2 more)]
  rfl

/-- The largest thread count comes after every so many of the others, whether it was on the stride
or not. -/
theorem withLargest_everyNth {stride largest : ℕ} {others : List ℕ} (positive : 0 < stride)
    (nonempty : others ≠ []) (ascending : (others ++ [largest]).Pairwise (· < ·)) :
    withLargest (others ++ [largest]) (everyNth stride (others ++ [largest])) =
      everyNth stride others ++ [largest] := by
  have last : (others ++ [largest]).getLast? = some largest := List.getLast?_concat
  rw [everyNth_append_singleton]
  by_cases onStride : stride ∣ others.length
  · have lastTick : (everyNth stride others ++ [largest]).getLast? = some largest :=
      List.getLast?_concat
    rw [if_pos onStride, withLargest, last, lastTick]
    exact if_neg (not_not.2 rfl)
  · obtain ⟨tick, lastTick⟩ : ∃ tick, (everyNth stride others).getLast? = some tick := by
      refine Option.ne_none_iff_exists'.1 fun unticked => ?_
      have ticked := (getElem?_everyNth positive others 0).symm
      rw [List.getLast?_eq_none_iff.1 unticked, Nat.mul_zero] at ticked
      exact nonempty (List.length_eq_zero_iff.1 (by simpa using ticked))
    have tickLess : tick < largest := by
      have mem := (everyNth_sublist stride others).mem (List.mem_of_getLast? lastTick)
      exact (List.pairwise_append.1 ascending).2.2 tick mem largest (List.mem_singleton_self _)
    rw [if_neg onStride, List.append_nil, withLargest, last, lastTick]
    exact if_pos tickLess.ne'

/-- The ticks of more thread counts than are asked for. -/
theorem ofThreads_concat {largest : ℕ} {others : List ℕ} (positive : 0 < limit)
    (more : limit ≤ others.length) (ascending : (others ++ [largest]).Pairwise (· < ·)) :
    ofThreads (others ++ [largest]) limit =
      everyNth (strideFor (others.length + 1) limit) others ++ [largest] := by
  have nonempty : others ≠ [] := List.ne_nil_of_length_pos (positive.trans_le more)
  have stride : 0 < strideFor (others.length + 1) limit :=
    strideFor_pos positive (Nat.succ_pos _)
  have length : (others ++ [largest]).length = others.length + 1 := List.length_append
  rw [ofThreads_of_lt positive (by omega), length, withLargest_everyNth stride nonempty ascending]

/-- A tick stands among the thread counts where the stride leads to. -/
theorem getElem?_of_tick {stride k tick : ℕ} {others : List ℕ} (largest : ℕ) (positive : 0 < stride)
    (here : (everyNth stride others)[k]? = some tick) :
    (others ++ [largest])[stride * k]? = some tick ∧ stride * k < others.length := by
  rw [getElem?_everyNth positive] at here
  have below := (List.getElem?_eq_some_iff.1 here).1
  exact ⟨(List.getElem?_append_left below).trans here, below⟩

theorem mem_concat_iff {stride largest i : ℕ} {others : List ℕ} (positive : 0 < stride)
    (ascending : (others ++ [largest]).Pairwise (· < ·))
    (below : i < (others ++ [largest]).length) :
    (others ++ [largest])[i] ∈ everyNth stride others ++ [largest] ↔
      stride ∣ i ∨ i = (others ++ [largest]).length - 1 := by
  have length : (others ++ [largest]).length = others.length + 1 := List.length_append
  have distinct : (others ++ [largest]).Nodup := ascending.imp fun lt => ne_of_lt lt
  have here := List.getElem?_eq_getElem below
  have last : (others ++ [largest])[others.length]? = some largest := List.getElem?_concat_length
  rw [List.mem_append, List.mem_singleton, mem_everyNth_iff positive, length, Nat.add_sub_cancel]
  constructor
  · rintro (⟨j, there, multiple⟩ | isLargest)
    · have before := (List.getElem?_eq_some_iff.1 there).1
      rw [← List.getElem?_append_left before] at there
      obtain rfl := (List.getElem?_inj below distinct).1 (here.trans there.symm)
      exact .inl multiple
    · exact .inr ((List.getElem?_inj below distinct).1 (by rw [here, last, isLargest]))
  · rintro (multiple | rfl)
    · rcases Nat.lt_or_ge i others.length with before | after
      · rw [List.getElem?_append_left before] at here
        exact .inl ⟨i, here, multiple⟩
      · obtain rfl : i = others.length := by omega
        exact .inr (by simp)
    · exact .inr (by simp)

/-- From one tick to the next it is one stride, and from the last of them to the largest thread
count at most that. -/
theorem near_concat {stride largest : ℕ} {others : List ℕ} (positive : 0 < stride) :
    (everyNth stride others ++ [largest]).IsChain fun a b =>
      ∃ i j, (others ++ [largest])[i]? = some a ∧ (others ++ [largest])[j]? = some b ∧
        i < j ∧ j ≤ i + stride := by
  refine List.isChain_append.2 ⟨List.isChain_iff_getElem.2 ?between, .singleton _, ?toLargest⟩
  case between =>
    intro k below
    have tick := (getElem?_of_tick largest positive
      (List.getElem?_eq_getElem (Nat.lt_of_succ_lt below))).1
    have next := (getElem?_of_tick largest positive (List.getElem?_eq_getElem below)).1
    have step : stride * (k + 1) = stride * k + stride := Nat.mul_succ _ _
    exact ⟨stride * k, stride * (k + 1), tick, next, by omega, by omega⟩
  case toLargest =>
    intro tick isLast b isLargest
    obtain rfl : largest = b := by simpa using isLargest
    rw [Option.mem_def, List.getLast?_eq_getElem?] at isLast
    obtain ⟨here, before⟩ := getElem?_of_tick largest positive isLast
    have all : others.length ≤ stride * (everyNth stride others).length := by
      rw [length_everyNth positive, ← ceilDiv_le_iff_le_mul positive]
    have nonempty := (List.getElem?_eq_some_iff.1 isLast).1
    refine ⟨_, others.length, here, List.getElem?_concat_length, before, ?_⟩
    calc others.length ≤ stride * (everyNth stride others).length := all
      _ = stride * ((everyNth stride others).length - 1) + stride := by
        rw [← Nat.mul_succ]
        congr 1
        omega

theorem thinned_concat {stride largest : ℕ} {others : List ℕ} (positive : 0 < stride)
    (enough : others.length + 1 ≤ limit * stride)
    (ascending : (others ++ [largest]).Pairwise (· < ·)) :
    Thinned (others ++ [largest]) stride limit (everyNth stride others ++ [largest]) := by
  have sublist : (everyNth stride others ++ [largest]).Sublist (others ++ [largest]) :=
    (everyNth_sublist stride others).append (.refl _)
  have length : (everyNth stride others ++ [largest]).length =
      others.length ⌈/⌉ stride + 1 := by
    rw [List.length_append, length_everyNth positive, List.length_singleton]
  have count : (others ++ [largest]).length - 1 = others.length := by simp
  refine
    { ascending := ascending.sublist sublist
      sublist
      first := ?first
      last := by rw [List.getLast?_concat, List.getLast?_concat]
      mem_iff := fun i below => mem_concat_iff positive ascending below
      near := near_concat positive
      length := by rw [length, count]
      length_le := ?length_le
      extra := ?extra }
  case first =>
    have ticked := getElem?_everyNth positive others 0
    rw [Nat.mul_zero, ← List.head?_eq_getElem?, ← List.head?_eq_getElem?] at ticked
    rw [List.head?_append, List.head?_append, ticked]
  case length_le =>
    have most : others.length ⌈/⌉ stride ≤ limit := by
      rw [ceilDiv_le_iff_le_mul positive, Nat.mul_comm]
      omega
    omega
  case extra =>
    rintro more ⟨strides, onStride⟩
    rw [count] at onStride
    have fewer : strides < limit := by
      rw [← Nat.mul_lt_mul_left positive, ← onStride, Nat.mul_comm]
      omega
    have most : others.length ⌈/⌉ stride ≤ strides := by
      rw [ceilDiv_le_iff_le_mul positive, onStride]
    omega

/-! ## Ticks in 64 bits -/

/-- The ticks among distinct thread counts, unless a step on the way to them fails. -/
def ofThreads? (distinct : List ℕ) (limit : ℕ) : Option (List ℕ) :=
  if limit = 0 then some []
  else if distinct.length ≤ limit then some distinct
  else do
    let stride ← strideFor? distinct.length limit
    let ticks ← everyNth? stride distinct
    some (withLargest distinct ticks)

/-- No sum is too large, because one is computed only for lists that are longer than the limit. -/
theorem ofThreads?_eq_some (short : counts.length < 2 ^ 63) (limit : ℕ) :
    ofThreads? counts limit = some (ofThreads counts limit) := by
  rcases Nat.eq_zero_or_pos limit with rfl | positive
  · rfl
  rcases Nat.lt_or_ge limit counts.length with more | few
  · have stride := strideFor_pos positive (positive.trans more)
    have strideFor := strideFor?_eq_some positive (by omega : counts.length + limit < 2 ^ 64)
    simp [ofThreads?, ofThreads_of_lt positive more, positive.ne', more, strideFor,
      everyNth?_eq_some stride]
  · simp [ofThreads?, ofThreads, positive.ne', few]

/-! ## Few and many thread counts -/

theorem ofThreads_of_le (few : counts.length ≤ limit) : ofThreads counts limit = counts := by
  by_cases unasked : limit = 0
  · have empty : counts = [] := List.length_eq_zero_iff.1 (by omega)
    rw [ofThreads, if_pos unasked, empty]
  · rw [ofThreads, if_neg unasked, if_pos few]

theorem thinned_ofThreads (positive : 0 < limit) (more : limit < counts.length)
    (ascending : counts.Pairwise (· < ·)) :
    Thinned counts (counts.length ⌈/⌉ limit) limit (ofThreads counts limit) := by
  obtain ⟨others, largest, rfl⟩ := (List.eq_nil_or_concat' counts).resolve_left
    (List.ne_nil_of_length_pos (positive.trans more))
  have length : (others ++ [largest]).length = others.length + 1 := List.length_append
  have atLeast : limit ≤ others.length := by omega
  have stride := strideFor_pos positive (Nat.succ_pos others.length)
  rw [ofThreads_concat positive atLeast ascending, length, ← strideFor_eq]
  exact thinned_concat stride (le_strideFor_mul _ positive) ascending

/-- Whether they are thinned or not, the ticks are thread counts, with the least and the greatest
among them. -/
theorem ofThreads_ends (positive : 0 < limit) (ascending : counts.Pairwise (· < ·)) :
    (ofThreads counts limit).Sublist counts ∧ (ofThreads counts limit).head? = counts.head? ∧
      (ofThreads counts limit).getLast? = counts.getLast? ∧
      (ofThreads counts limit).length ≤ limit + 1 := by
  rcases Nat.lt_or_ge limit counts.length with more | few
  · have thinned := thinned_ofThreads positive more ascending
    exact ⟨thinned.sublist, thinned.first, thinned.last, thinned.length_le⟩
  · rw [ofThreads_of_le few]
    exact ⟨.refl _, rfl, rfl, by omega⟩

/-- Ticks that begin and end with ascending thread counts have all of these between them. -/
theorem exists_ends (ascending : counts.Pairwise (· < ·)) (nonempty : counts ≠ [])
    (first : ticks.head? = counts.head?) (last : ticks.getLast? = counts.getLast?) :
    ∃ least ∈ ticks, ∃ greatest ∈ ticks, ∀ t ∈ counts, least ≤ t ∧ t ≤ greatest := by
  have ordered : counts.Pairwise (· ≤ ·) := ascending.imp fun lt => lt.le
  refine ⟨counts.head nonempty, ?least, counts.getLast nonempty, ?greatest, ?between⟩
  case least =>
    rw [List.head?_eq_some_head nonempty] at first
    exact List.mem_of_head? first
  case greatest =>
    rw [List.getLast?_eq_some_getLast nonempty] at last
    exact List.mem_of_getLast? last
  case between =>
    intro t mem
    exact ⟨ordered.rel_head mem, ordered.rel_getLast mem⟩

/-- Without a limit there are no ticks, and up to the limit all thread counts are ticked. Past it
every so many are, and the last. All of it can be computed in 64 bits. -/
theorem ofThreads_thinned (ascending : counts.Pairwise (· < ·)) (limit : ℕ) :
    (limit = 0 → ofThreads counts limit = []) ∧
    (counts.length ≤ limit → ofThreads counts limit = counts) ∧
    (0 < limit → limit < counts.length →
      Thinned counts (counts.length ⌈/⌉ limit) limit (ofThreads counts limit)) ∧
    (counts.length < 2 ^ 63 → ofThreads? counts limit = some (ofThreads counts limit)) := by
  refine ⟨?hidden, ofThreads_of_le, ?thinned, fun short => ofThreads?_eq_some short limit⟩
  case hidden =>
    intro unasked
    rw [ofThreads, if_pos unasked]
  case thinned =>
    intro positive more
    exact thinned_ofThreads positive more ascending

/-- Fourteen thread counts, of which no more than twelve are to be ticked: every other one is, and
the last, which is not on the stride. -/
theorem ofThreads_thinned_fourteen :
    let counts := List.range' 1 14
    counts.Pairwise (· < ·) ∧ 0 < 12 ∧ 12 < counts.length ∧
      Thinned counts 2 12 [1, 3, 5, 7, 9, 11, 13, 14] ∧
      counts.length < 2 ^ 63 ∧ ofThreads? counts 12 = some [1, 3, 5, 7, 9, 11, 13, 14] := by
  intro counts
  have ascending : counts.Pairwise (· < ·) := by decide
  have stride : counts.length ⌈/⌉ 12 = 2 := by decide
  have ticks : ofThreads counts 12 = [1, 3, 5, 7, 9, 11, 13, 14] := by decide
  obtain ⟨-, -, thinned, computed⟩ := ofThreads_thinned ascending 12
  rw [stride, ticks] at thinned
  rw [ticks] at computed
  exact ⟨ascending, by decide, by decide, thinned (by decide) (by decide), by decide,
    computed (by decide)⟩

end ContentionChart.Ticks
