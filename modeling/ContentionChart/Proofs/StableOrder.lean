import ContentionChart.Results.Series

/-!
# Stable order

A series is drawn by ascending thread count. What was measured several times with one thread count
stays in the order in which it was measured.

## Main statements

* `StableOrder` — one list is another in the stable order of a key.
* `stableOrder_byThreads` — so are the points of a series by thread count.
* `StableOrder.eq_of_ties` — lists that agree key by key have the same stable order.
-/

namespace ContentionChart

/-- `after` is `before` in the stable order of a key: nothing is lost or made up, the keys ascend,
and elements with one key stand as they stood before. -/
structure StableOrder {β : Type} (key : β → Nat) (before after : List β) : Prop where
  perm : after.Perm before
  ascending : after.Pairwise fun a b => key a ≤ key b
  ties : ∀ k, after.filter (fun b => key b = k) = before.filter fun b => key b = k

variable {α β : Type}

theorem stableOrder_mergeSort (key : β → Nat) (xs : List β) :
    StableOrder key xs (xs.mergeSort fun a b => key a ≤ key b) := by
  have trans : ∀ a b c : β, decide (key a ≤ key b) = true → decide (key b ≤ key c) = true →
      decide (key a ≤ key c) = true := by
    intro a b c
    simpa using Nat.le_trans
  have total : ∀ a b : β, (decide (key a ≤ key b) || decide (key b ≤ key a)) = true := by
    intro a b
    simpa using Nat.le_total (key a) (key b)
  have perm := List.mergeSort_perm xs fun a b => decide (key a ≤ key b)
  refine ⟨perm, by simpa using List.pairwise_mergeSort trans total xs, fun k => ?_⟩
  -- Elements of one key are in order already, so that sorting keeps them as a sublist.
  have tied : (xs.filter fun b => key b = k).Pairwise fun a b => decide (key a ≤ key b) = true := by
    refine List.pairwise_filter.2 (List.pairwise_of_forall fun a b ha hb => ?_)
    simp only [decide_eq_true_eq] at ha hb ⊢
    omega
  have kept := List.sublist_mergeSort trans total tied List.filter_sublist
  have within := kept.filter fun b => decide (key b = k)
  simp only [List.filter_filter, Bool.and_self] at within
  exact (within.eq_of_length (perm.filter _).length_eq.symm).symm

theorem head_le_of_mem {key : β → Nat} {x b : β} {xs : List β}
    (ascending : (x :: xs).Pairwise fun a b => key a ≤ key b) (mem : b ∈ x :: xs) :
    key x ≤ key b := by
  rcases List.mem_cons.1 mem with rfl | later
  · exact Nat.le_refl _
  · exact (List.pairwise_cons.1 ascending).1 b later

theorem mem_iff_of_ties {key : β → Nat} {xs ys : List β}
    (ties : ∀ k, xs.filter (fun b => key b = k) = ys.filter fun b => key b = k) (b : β) :
    b ∈ xs ↔ b ∈ ys := by
  have tied := congrArg (b ∈ ·) (ties (key b))
  simpa using tied

/-- Lists in ascending order are equal if they hold the same elements of each key in the same
order. -/
theorem eq_of_ascending_of_ties {key : β → Nat} {xs ys : List β}
    (ascending : xs.Pairwise fun a b => key a ≤ key b)
    (ascending' : ys.Pairwise fun a b => key a ≤ key b)
    (ties : ∀ k, xs.filter (fun b => key b = k) = ys.filter fun b => key b = k) : xs = ys := by
  induction xs generalizing ys with
  | nil =>
    refine (List.eq_nil_iff_forall_not_mem.2 fun b inYs => ?_).symm
    cases (mem_iff_of_ties ties b).2 inYs
  | cons x xs ih =>
    cases ys with
    | nil => cases (mem_iff_of_ties ties x).1 List.mem_cons_self
    | cons y ys =>
      -- Each first element stands in the other list too, so that neither key is the greater.
      have le : key x ≤ key y :=
        head_le_of_mem ascending ((mem_iff_of_ties ties y).2 List.mem_cons_self)
      have ge : key y ≤ key x :=
        head_le_of_mem ascending' ((mem_iff_of_ties ties x).1 List.mem_cons_self)
      have sameKey : key y = key x := Nat.le_antisymm ge le
      have heads := ties (key x)
      simp only [List.filter_cons, sameKey, decide_true, if_true, List.cons.injEq] at heads
      obtain ⟨rfl, -⟩ := heads
      have rest : ∀ k, xs.filter (fun b => key b = k) = ys.filter fun b => key b = k := by
        intro k
        have tied := ties k
        by_cases here : key x = k <;> simpa [List.filter_cons, here] using tied
      rw [ih (List.pairwise_cons.1 ascending).2 (List.pairwise_cons.1 ascending').2 rest]

/-- What is in stable order depends on nothing but the elements of each key in their order. -/
theorem StableOrder.eq_of_ties {key : β → Nat} {xs ys xs' ys' : List β}
    (order : StableOrder key xs xs') (order' : StableOrder key ys ys')
    (ties : ∀ k, xs.filter (fun b => key b = k) = ys.filter fun b => key b = k) : xs' = ys' := by
  refine eq_of_ascending_of_ties order.ascending order'.ascending fun k => ?_
  rw [order.ties, order'.ties, ties]

theorem stableOrder_byThreads (s : Series α) :
    StableOrder Prod.fst s.points s.byThreads.points := by
  rw [Series.points_byThreads]
  exact stableOrder_mergeSort Prod.fst s.points

end ContentionChart
