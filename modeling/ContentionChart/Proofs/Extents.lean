import ContentionChart.Chart.Axis
import ContentionChart.Proofs.DoubleOrder

/-!
# Extents

The extent of some values is found by going on from the first of them. Values that are no numbers
compare as nothing, and so they are passed over, unless one stands at the front: it is never
replaced.

## Main definitions

* `ComparesNumbers` — values compare by the numbers that they stand for, if they stand for any.
* `IsExtent` — the least and the greatest of the numbers among some values.

## Main statements

* `IsExtent.foldl` — going on from an extent gives an extent.
* `isExtent_extent?_iff` — the extent is right if and only if the first value is a number.
-/

namespace ContentionChart

variable {α β : Type} [LinearOrder β]

/-- The ends are the least and the greatest of the numbers among some values. -/
structure IsExtent (number? : α → Option β) (xs : List α) (ends : α × α) : Prop where
  least_mem : ends.1 ∈ xs
  greatest_mem : ends.2 ∈ xs
  least : ∃ p, number? ends.1 = some p ∧ ∀ x ∈ xs, ∀ q, number? x = some q → p ≤ q
  greatest : ∃ p, number? ends.2 = some p ∧ ∀ x ∈ xs, ∀ q, number? x = some q → q ≤ p

variable {number? : α → Option β} {xs seen : List α} {ends : α × α} {x first : α}

theorem isExtent_singleton {p : β} (number : number? first = some p) :
    IsExtent number? [first] (first, first) :=
  ⟨by simp, by simp, ⟨p, number, by simp [number]⟩, ⟨p, number, by simp [number]⟩⟩

variable [LT α]

/-- Values compare by the numbers that they stand for. One that stands for none compares as
nothing. -/
structure ComparesNumbers (number? : α → Option β) : Prop where
  lt_iff : ∀ a b, a < b ↔ ∃ p q, number? a = some p ∧ number? b = some q ∧ p < q

variable [DecidableLT α]

/-- One more value is taken into an extent. -/
def widen (ends : α × α) (x : α) : α × α :=
  (if x < ends.1 then x else ends.1, if ends.2 < x then x else ends.2)

theorem extent?_cons (first : α) (rest : List α) :
    extent? (first :: rest) = some (rest.foldl widen (first, first)) := rfl

/-! ## What is no number -/

/-- What is no number is passed over. -/
theorem widen_of_none (h : ComparesNumbers number?) (none : number? x = none) (ends : α × α) :
    widen ends x = ends := by
  simp [widen, h.lt_iff, none]

/-- What is no number is never replaced. -/
theorem foldl_widen_of_none (h : ComparesNumbers number?) (none : number? first = none)
    (xs : List α) : xs.foldl widen (first, first) = (first, first) := by
  induction xs with
  | nil => rfl
  | cons x xs ih =>
    have kept : widen (first, first) x = (first, first) := by simp [widen, h.lt_iff, none]
    rw [List.foldl_cons, kept, ih]

/-! ## Numbers -/

/-- One more value, after those that were seen. -/
theorem IsExtent.widen (h : ComparesNumbers number?) (extent : IsExtent number? seen ends)
    (x : α) : IsExtent number? (seen ++ [x]) (widen ends x) := by
  obtain ⟨leastMem, greatestMem, ⟨p, least, below⟩, ⟨r, greatest, above⟩⟩ := extent
  cases number : number? x with
  | none =>
    rw [widen_of_none h number]
    exact ⟨by grind, by grind, ⟨p, least, by grind⟩, ⟨r, greatest, by grind⟩⟩
  | some q =>
    have less : x < ends.1 ↔ q < p := by simp [h.lt_iff, number, least]
    have more : ends.2 < x ↔ r < q := by simp [h.lt_iff, number, greatest]
    simp only [ContentionChart.widen, less, more]
    refine ⟨by grind, by grind, ⟨min q p, by grind, by grind⟩, ⟨max r q, by grind, by grind⟩⟩

/-- All further values. -/
theorem IsExtent.foldl (h : ComparesNumbers number?) (extent : IsExtent number? seen ends)
    (xs : List α) : IsExtent number? (seen ++ xs) (xs.foldl ContentionChart.widen ends) := by
  induction xs generalizing seen ends with
  | nil => rwa [List.append_nil]
  | cons x xs ih =>
    have further := ih (extent.widen h x)
    rwa [List.append_assoc, List.singleton_append] at further

/-- The extent of some values of which the first is a number. -/
theorem isExtent_extent?_of_some (h : ComparesNumbers number?) {p : β}
    (number : number? first = some p) (rest : List α) :
    ∃ ends, extent? (first :: rest) = some ends ∧ IsExtent number? (first :: rest) ends :=
  ⟨_, extent?_cons first rest, (isExtent_singleton number).foldl h rest⟩

/-- The extent of values that all are numbers. -/
theorem isExtent_of_forall_isSome (h : ComparesNumbers number?)
    (all : ∀ x ∈ xs, (number? x).isSome) (found : extent? xs = some ends) :
    IsExtent number? xs ends := by
  cases xs with
  | nil => cases found
  | cons first rest =>
    obtain ⟨p, number⟩ := Option.isSome_iff_exists.1 (all first List.mem_cons_self)
    obtain ⟨_, same, extent⟩ := isExtent_extent?_of_some h number rest
    obtain rfl := Option.some.inj (found.symm.trans same)
    exact extent

/-- Where each value stands for a number, the ends of an extent are among the values, and all of
these are between. -/
theorem extent?_spec {value : α → β} (lt_iff : ∀ a b : α, a < b ↔ value a < value b)
    (found : extent? xs = some ends) :
    ends.1 ∈ xs ∧ ends.2 ∈ xs ∧ ∀ x ∈ xs, value ends.1 ≤ value x ∧ value x ≤ value ends.2 := by
  have numbers : ComparesNumbers fun a => some (value a) := ⟨fun a b => by simp [lt_iff]⟩
  obtain ⟨leastMem, greatestMem, ⟨p, least, below⟩, ⟨r, greatest, above⟩⟩ :=
    isExtent_of_forall_isSome numbers (fun _ _ => rfl) found
  obtain rfl : value ends.1 = p := Option.some.inj least
  obtain rfl : value ends.2 = r := Option.some.inj greatest
  exact ⟨leastMem, greatestMem, fun x mem => ⟨below x mem _ rfl, above x mem _ rfl⟩⟩

/-- There is no extent of no values. Otherwise the ends that are found are the least and the
greatest of the numbers if and only if the first value is a number, and if it is none, both ends are
that value. -/
theorem isExtent_extent?_iff (h : ComparesNumbers number?) :
    extent? ([] : List α) = none ∧ ∀ (first : α) (rest : List α),
      ∃ ends, extent? (first :: rest) = some ends ∧
        (IsExtent number? (first :: rest) ends ↔ (number? first).isSome) ∧
        (number? first = none → ends = (first, first)) := by
  refine ⟨rfl, fun first rest => ?_⟩
  cases number : number? first with
  | some p =>
    obtain ⟨ends, found, extent⟩ := isExtent_extent?_of_some h number rest
    exact ⟨ends, found, by simp [extent], nofun⟩
  | none =>
    have kept := foldl_widen_of_none h number rest
    refine ⟨(first, first), kept ▸ extent?_cons first rest, ?_, fun _ => rfl⟩
    refine iff_of_false (fun extent => ?_) (by simp)
    obtain ⟨p, least, -⟩ := extent.least
    rw [number] at least
    cases least

/-! ## Doubles -/

theorem Binary64.comparesNumbers : ComparesNumbers Binary64.number? := ⟨fun _ _ => Binary64.lt_iff⟩

/-- What is no number stands between three and one, and is passed over. -/
theorem isExtent_extent?_iff_between :
    ComparesNumbers Binary64.number? ∧
      extent? [3.0, Binary64.undefined, 1.0] = some (1.0, 3.0) ∧
      IsExtent Binary64.number? [3.0, Binary64.undefined, 1.0] (1.0, 3.0) := by
  have found : extent? [3.0, Binary64.undefined, 1.0] = some (1.0, 3.0) := by decide +kernel
  have front : (Binary64.number? 3.0).isSome :=
    Binary64.isSome_number?_iff.2 (by decide +kernel)
  obtain ⟨ends, same, right, -⟩ :=
    (isExtent_extent?_iff Binary64.comparesNumbers).2 3.0 [Binary64.undefined, 1.0]
  obtain rfl := Option.some.inj (same.symm.trans found)
  exact ⟨Binary64.comparesNumbers, found, right.2 front⟩

/-- What is no number comes to be both ends if it stands at the front, and there is a number after
it. -/
theorem not_isExtent_extent? :
    ¬ ∀ xs : List Float, (∃ x ∈ xs, (Binary64.number? x).isSome) →
      ∃ ends, extent? xs = some ends ∧ IsExtent Binary64.number? xs ends := by
  intro always
  have one : (Binary64.number? 1.0).isSome :=
    Option.isSome_of_mem (Binary64.number?_of_toRat? Binary64.toRat?_literal_one)
  obtain ⟨ends, found, extent⟩ := always [Binary64.undefined, 1.0] ⟨1.0, by simp, one⟩
  have kept : extent? [Binary64.undefined, 1.0] = some (Binary64.undefined, Binary64.undefined) :=
    congrArg some (foldl_widen_of_none Binary64.comparesNumbers Binary64.number?_undefined [1.0])
  obtain rfl := Option.some.inj (kept.symm.trans found)
  obtain ⟨p, least, -⟩ := extent.least
  rw [Binary64.number?_undefined] at least
  cases least

end ContentionChart
