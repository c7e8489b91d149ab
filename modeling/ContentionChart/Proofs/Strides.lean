import ContentionChart.Chart.Ticks
import Mathlib.Algebra.Order.Floor.Div

/-!
# Every so many

Ticks are thinned by keeping every so many of them, from the first on. Where the ones that stay
stand in the list and how many they are follows from the stride alone.

## Main definitions

* `Ticks.strideFor?`, `Ticks.everyNth?` — the same steps in 64 bits, where a step may fail.

## Main statements

* `Ticks.getElem?_everyNth` — the place of an element that is kept.
* `Ticks.length_everyNth` — how many are kept.
* `Ticks.mem_everyNth_iff_dvd_countP` — whether an element of an ascending list is kept.
-/

namespace ContentionChart.Ticks

variable {β : Type} {stride count limit : ℕ} {xs : List β}

/-! ## Integers -/

@[simp] theorem length_integers (first last : ℤ) :
    (integers first last).length = (last + 1 - first).toNat := by
  simp [integers]

theorem getElem?_integers {first last : ℤ} {i : ℕ} {n : ℤ} :
    (integers first last)[i]? = some n ↔ n = first + i ∧ n ≤ last := by
  simp only [integers, List.getElem?_map, Option.map_eq_some_iff]
  grind

theorem mem_integers {first last n : ℤ} : n ∈ integers first last ↔ first ≤ n ∧ n ≤ last := by
  simp only [integers, List.mem_map, List.mem_range]
  constructor
  · rintro ⟨i, below, rfl⟩
    omega
  · intro between
    exact ⟨(n - first).toNat, by omega, by omega⟩

theorem getLast?_integers {first last : ℤ} (ordered : first ≤ last) :
    (integers first last).getLast? = some last := by
  rw [List.getLast?_eq_getElem?, getElem?_integers, length_integers]
  omega

theorem ascending_integers (first last : ℤ) : (integers first last).Pairwise (· < ·) :=
  List.pairwise_map.2 (List.pairwise_lt_range.imp fun lt => by omega)

/-! ## Every so many of a list -/

/-- The elements numbered from `start` on whose number is a multiple of the stride: the first of
them is `skipped` further. -/
theorem getElem?_multiples (xs : List β) {start skipped : ℕ} (near : skipped < stride)
    (first : (start + skipped) % stride = 0) (k : ℕ) :
    (((xs.zipIdx start).filter fun x => x.2 % stride = 0).map Prod.fst)[k]? =
      xs[skipped + stride * k]? := by
  induction xs generalizing start skipped k with
  | nil => simp
  | cons x xs ih =>
    cases skipped with
    | zero =>
      cases k with
      | zero => simp_all
      | succ k =>
        have nextFirst : (start + 1 + (stride - 1)) % stride = 0 := by
          have around : start + 1 + (stride - 1) = start + stride := by omega
          rw [around, Nat.add_mod_right]
          exact first
        have next := ih (Nat.sub_lt near one_pos) nextFirst k
        have place : 0 + stride * (k + 1) = stride - 1 + stride * k + 1 := by
          rw [Nat.mul_succ]
          omega
        simp_all
    | succ skipped =>
      have nextFirst : (start + 1 + skipped) % stride = 0 := by
        rwa [Nat.add_right_comm, Nat.add_assoc]
      have next := ih (Nat.lt_of_succ_lt near) nextFirst k
      have between : start % stride ≠ 0 := by
        intro multiple
        rw [Nat.add_mod, multiple, Nat.zero_add, Nat.mod_mod, Nat.mod_eq_of_lt near] at first
        omega
      have place : skipped + 1 + stride * k = skipped + stride * k + 1 := by omega
      simp_all

theorem getElem?_everyNth (positive : 0 < stride) (xs : List β) (k : ℕ) :
    (everyNth stride xs)[k]? = xs[stride * k]? := by
  have first : (0 + 0) % stride = 0 := Nat.zero_mod stride
  have places := getElem?_multiples xs positive first k
  simpa [everyNth] using places

theorem mem_everyNth_iff (positive : 0 < stride) {x : β} :
    x ∈ everyNth stride xs ↔ ∃ i, xs[i]? = some x ∧ stride ∣ i := by
  rw [List.mem_iff_getElem?]
  constructor
  · rintro ⟨k, here⟩
    exact ⟨stride * k, getElem?_everyNth positive xs k ▸ here, Nat.dvd_mul_right _ _⟩
  · rintro ⟨_, here, k, rfl⟩
    exact ⟨k, (getElem?_everyNth positive xs k).trans here⟩

/-- Rounding up: as many are kept as there are strides begun. -/
theorem length_everyNth (positive : 0 < stride) (xs : List β) :
    (everyNth stride xs).length = xs.length ⌈/⌉ stride := by
  refine eq_of_forall_ge_iff fun k => ?_
  rw [ceilDiv_le_iff_le_mul positive, ← List.getElem?_eq_none_iff, getElem?_everyNth positive,
    List.getElem?_eq_none_iff]

theorem everyNth_map {γ : Type} (positive : 0 < stride) (f : β → γ) (xs : List β) :
    everyNth stride (xs.map f) = (everyNth stride xs).map f := by
  refine List.ext_getElem? fun k => ?_
  rw [getElem?_everyNth positive, List.getElem?_map, List.getElem?_map, getElem?_everyNth positive]

theorem everyNth_range (positive : 0 < stride) (count : ℕ) :
    everyNth stride (List.range count) = (List.range (count ⌈/⌉ stride)).map (stride * ·) := by
  refine List.ext_getElem? fun k => ?_
  have kept : k < count ⌈/⌉ stride ↔ stride * k < count := by
    rw [← not_le, ceilDiv_le_iff_le_mul positive, not_le]
  rw [getElem?_everyNth positive, List.getElem?_map]
  by_cases here : stride * k < count
  · rw [List.getElem?_range here, List.getElem?_range (kept.2 here)]
    rfl
  · rw [List.getElem?_eq_none (by simpa using here),
      List.getElem?_eq_none (by simpa using kept.not.2 here)]
    rfl

theorem everyNth_sublist (stride : ℕ) (xs : List β) : (everyNth stride xs).Sublist xs := by
  have kept := (List.filter_sublist (p := fun x : β × ℕ => x.2 % stride = 0)
    (l := xs.zipIdx)).map Prod.fst
  simpa [everyNth] using kept

theorem everyNth_append_singleton (stride : ℕ) (xs : List β) (x : β) :
    everyNth stride (xs ++ [x]) =
      everyNth stride xs ++ if stride ∣ xs.length then [x] else [] := by
  simp only [everyNth, List.zipIdx_append, List.filter_append, List.map_append]
  split <;> simp_all [Nat.dvd_iff_mod_eq_zero]

/-! ## Strides -/

theorem strideFor_eq (count limit : ℕ) : strideFor count limit = count ⌈/⌉ limit :=
  (Nat.ceilDiv_eq_add_pred_div count limit).symm

theorem le_strideFor_mul (count : ℕ) (positive : 0 < limit) :
    count ≤ limit * strideFor count limit := by
  rw [strideFor_eq, ← ceilDiv_le_iff_le_mul positive]

theorem strideFor_pos (positive : 0 < limit) (begun : 0 < count) : 0 < strideFor count limit := by
  have covered := le_strideFor_mul count positive
  exact Nat.pos_of_mul_pos_left (begun.trans_le covered)

/-- A stride is shorter than a list of two or more. -/
theorem strideFor_lt (several : 2 ≤ limit) (two : 2 ≤ count) : strideFor count limit < count := by
  have most : count ⌈/⌉ limit ≤ count - 1 := by
    rw [ceilDiv_le_iff_le_mul (by omega)]
    calc count ≤ 2 * (count - 1) := by omega
      _ ≤ limit * (count - 1) := Nat.mul_le_mul_right _ several
  rw [strideFor_eq]
  omega

theorem length_everyNth_strideFor_le (positive : 0 < limit) (xs : List β) :
    (everyNth (strideFor xs.length limit) xs).length ≤ limit := by
  rcases Nat.eq_zero_or_pos xs.length with empty | nonempty
  · have nothing := (everyNth_sublist (strideFor xs.length limit) xs).length_le
    omega
  · have stride := strideFor_pos positive nonempty
    rw [length_everyNth stride, ceilDiv_le_iff_le_mul stride, Nat.mul_comm]
    exact le_strideFor_mul _ positive

/-! ## Ascending lists -/

section

variable {γ : Type} [LinearOrder γ] {value : β → γ}

/-- In an ascending list there are as many lesser elements as stand before. -/
theorem countP_lt_of_getElem? (ascending : xs.Pairwise fun a b => value a < value b) {i : ℕ} {x : β}
    (here : xs[i]? = some x) : xs.countP (fun a => value a < value x) = i := by
  induction xs generalizing i with
  | nil => simp at here
  | cons a xs ih =>
    obtain ⟨least, rest⟩ := List.pairwise_cons.1 ascending
    cases i with
    | zero =>
      obtain rfl : a = x := by simpa using here
      have noneLess : xs.countP (fun b => value b < value a) = 0 :=
        List.countP_eq_zero.2 fun b mem => by simpa using (least b mem).le
      simp [noneLess]
    | succ i =>
      have later : xs[i]? = some x := by simpa using here
      have less : value a < value x := least x (List.mem_of_getElem? later)
      simp [ih rest later, less]

/-- An element of an ascending list is kept if the number of lesser ones is a multiple of the
stride. -/
theorem mem_everyNth_iff_dvd_countP (positive : 0 < stride)
    (ascending : xs.Pairwise fun a b => value a < value b) {x : β} (mem : x ∈ xs) :
    x ∈ everyNth stride xs ↔ stride ∣ xs.countP fun a => value a < value x := by
  rw [mem_everyNth_iff positive]
  constructor
  · rintro ⟨i, here, multiple⟩
    rwa [countP_lt_of_getElem? ascending here]
  · obtain ⟨i, here⟩ := List.mem_iff_getElem?.1 mem
    rw [countP_lt_of_getElem? ascending here]
    exact fun multiple => ⟨i, here, multiple⟩

end

/-! ## Strides in 64 bits -/

/-- The sum of two numbers, unless it needs more than 64 bits. -/
def sum? (a b : ℕ) : Option ℕ := if a + b < 2 ^ 64 then some (a + b) else none

/-- The difference of two numbers, unless it is negative. -/
def difference? (a b : ℕ) : Option ℕ := if b ≤ a then some (a - b) else none

/-- The quotient of two numbers, unless the divisor is zero. -/
def quotient? (a b : ℕ) : Option ℕ := if b = 0 then none else some (a / b)

/-- The stride, unless a step on the way to it fails. -/
def strideFor? (count limit : ℕ) : Option ℕ := do
  let sum ← sum? count limit
  let dividend ← difference? sum 1
  quotient? dividend limit

/-- Every `stride`-th element. There is no stride of zero. -/
def everyNth? (stride : ℕ) (xs : List β) : Option (List β) :=
  if stride = 0 then none else some (everyNth stride xs)

theorem strideFor?_eq_some (positive : 0 < limit) (fits : count + limit < 2 ^ 64) :
    strideFor? count limit = some (strideFor count limit) := by
  have one : 1 ≤ count + limit := by omega
  rw [strideFor?, sum?, if_pos fits]
  simp [difference?, quotient?, strideFor, one, positive.ne']

theorem everyNth?_eq_some (positive : 0 < stride) (xs : List β) :
    everyNth? stride xs = some (everyNth stride xs) := by
  simp [everyNth?, positive.ne']

end ContentionChart.Ticks
