import ContentionChart.Decimal.Numeral

/-!
# Thread counts

Thread counts are whole numbers below `2 ^ 32`. A text may write one as any numeral: the part after
the point is cut off.

## Main definitions

* `threadCount?` — the thread count that a text denotes.
* `ascending` — the distinct counts of a list in ascending order.
-/

namespace ContentionChart

/-- Thread counts are below `2 ^ 32`. -/
def threadBound : Rat := 0x100000000

/-- The thread count that a text denotes. Negative numbers denote none, and neither do those that
are not finite or not below the bound. -/
def threadCount? (s : String) : Option Nat := do
  let count ← Binary64.toRat? (← parseFloat? s)
  if count < 0 ∨ threadBound ≤ count then none else some count.floor.toNat

namespace ThreadCounts

/-- Put a number in its place among ascending ones, unless it is there already. -/
def insert (n : Nat) : List Nat → List Nat
  | [] => [n]
  | m :: ms => if n < m then n :: m :: ms else if n = m then m :: ms else m :: insert n ms

/-- The distinct numbers of a list, ascending. -/
def ascending (ns : List Nat) : List Nat := ns.foldr insert []

theorem mem_insert {k n : Nat} {ns : List Nat} : k ∈ insert n ns ↔ k = n ∨ k ∈ ns := by
  induction ns with
  | nil => simp [insert]
  | cons m ms ih => rw [insert]; grind

theorem mem_ascending {k : Nat} {ns : List Nat} : k ∈ ascending ns ↔ k ∈ ns := by
  induction ns with
  | nil => simp [ascending]
  | cons n ns ih => rw [ascending, List.foldr_cons, mem_insert, ← ascending, ih, List.mem_cons]

theorem pairwise_insert {n : Nat} {ns : List Nat} (h : ns.Pairwise (· < ·)) :
    (insert n ns).Pairwise (· < ·) := by
  induction ns with
  | nil => simp [insert]
  | cons m ms ih =>
    obtain ⟨least, tail⟩ := List.pairwise_cons.1 h
    rw [insert]
    split
    · exact List.pairwise_cons.2 ⟨by grind, h⟩
    · split
      · exact h
      · refine List.pairwise_cons.2 ⟨fun k hk => ?_, ih tail⟩
        rcases mem_insert.1 hk with rfl | hk
        · omega
        · exact least k hk

theorem pairwise_ascending (ns : List Nat) : (ascending ns).Pairwise (· < ·) := by
  induction ns with
  | nil => exact .nil
  | cons n ns ih => exact pairwise_insert ih

end ThreadCounts

end ContentionChart
