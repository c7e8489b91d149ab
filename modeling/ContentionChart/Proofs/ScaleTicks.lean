import ContentionChart.Proofs.DecadeTicks
import Mathlib.Order.Interval.Finset.Defs
import Mathlib.Data.Int.Interval

/-!
# Ticks of the throughput axis

On every scale a range has from two to nine ticks, in ascending order. They come from powers of ten
or from a round step, and both ways keep to the range, but for the last tick of the second one.

## Main statements

* `Exact.within_everyNth` — every so many of the places in a range.
* `Exact.decades_log_eq` — the places on the logarithmic scale.
* `Exact.ticks_within` — the ticks of a range on every scale.
-/

namespace ContentionChart.Exact

open ChartNumber Ticks

variable {lo hi : Exact}

/-- Every so many of some places in a range, if there are two or more. -/
theorem within_everyNth {places : List Exact} {low high : ℝ}
    (ascending : places.Pairwise fun a b => a.value < b.value) (several : 2 ≤ places.length)
    (inside : ∀ v ∈ places, low ≤ v.value ∧ v.value ≤ high) :
    Within low high 0 (everyNth (strideFor places.length throughputTarget) places) := by
  have stride : 0 < strideFor places.length throughputTarget :=
    strideFor_pos (by decide) (two_pos.trans_le several)
  have sublist := everyNth_sublist (strideFor places.length throughputTarget) places
  refine
    { ascending := ascending.sublist sublist
      several := ?several
      few := (length_everyNth_strideFor_le (by decide) places).trans (by decide)
      low := fun t mem => (inside t (sublist.mem mem)).1
      high := fun t mem => .inl (inside t (sublist.mem mem)).2 }
  case several =>
    have shorter : strideFor places.length throughputTarget < places.length :=
      strideFor_lt (by decide) several
    have two : ¬ places.length ⌈/⌉ strideFor places.length throughputTarget ≤ 1 := by
      rw [ceilDiv_le_iff_le_mul stride]
      omega
    rw [length_everyNth stride]
    omega

/-! ## The logarithmic scale -/

/-- The whole numbers in a range, but that no number past the 32-bit ones is a first one. -/
theorem decades_log_eq (low : |lo.value| < 2 ^ 31) (high : |hi.value| < 2 ^ 31) :
    Scale.log.decades lo hi =
      (integers (min (2 ^ 31 - 1) ⌈lo.value⌉) ⌊hi.value⌋).map ofInt := by
  rw [abs_lt] at low high
  have first : toInt32 (ChartNumber.ceil lo) = min (2 ^ 31 - 1) ⌈lo.value⌉ := by
    refine roundedScale.toIntWithin_ceil_of_le (by decide) ?_
    push_cast
    linarith
  have last : toInt32 (ChartNumber.floor hi) = ⌊hi.value⌋ := by
    have most : ⌊hi.value⌋ < 2 ^ 31 := Int.floor_lt.2 (by push_cast; linarith)
    rw [toInt32, roundedScale.toIntWithin_floor_of_le (by decide)]
    · omega
    · push_cast
      linarith
  rw [Scale.decades, first, last]

/-- Two or more whole numbers in a range are all found. -/
theorem decades_log_of_several (low : |lo.value| < 2 ^ 31) (high : |hi.value| < 2 ^ 31)
    (several : 2 ≤ (Scale.log.decades lo hi).length ∨
      2 ≤ (Finset.Icc ⌈lo.value⌉ ⌊hi.value⌋).card) :
    Scale.log.decades lo hi = (integers ⌈lo.value⌉ ⌊hi.value⌋).map ofInt := by
  have below := (abs_lt.1 high).2
  have most : ⌊hi.value⌋ < 2 ^ 31 := Int.floor_lt.2 (by push_cast; linarith)
  have decades := decades_log_eq low high
  rw [decades, List.length_map, length_integers, Int.card_Icc] at several
  have first : min (2 ^ 31 - 1) ⌈lo.value⌉ = ⌈lo.value⌉ := by omega
  rw [decades, first]

theorem ascending_decades_log (low : |lo.value| < 2 ^ 31) (high : |hi.value| < 2 ^ 31)
    (several : 2 ≤ (Scale.log.decades lo hi).length) :
    (Scale.log.decades lo hi).Pairwise (fun a b => a.value < b.value) ∧
      ∀ v ∈ Scale.log.decades lo hi, lo.value ≤ v.value ∧ v.value ≤ hi.value := by
  have place (n : ℤ) : (ofInt n : Exact).value = n := rfl
  rw [decades_log_of_several low high (.inl several)]
  constructor
  · refine List.pairwise_map.2 ((ascending_integers _ _).imp fun lt => ?_)
    rw [place, place]
    exact Int.cast_lt.2 lt
  · intro v mem
    obtain ⟨n, between, rfl⟩ := List.mem_map.1 mem
    rw [place, ← Int.ceil_le, ← Int.le_floor]
    exact mem_integers.1 between

/-- The ticks of a logarithmic axis with two or more whole numbers in its range. -/
theorem ticks_log (low : |lo.value| < 2 ^ 31) (high : |hi.value| < 2 ^ 31)
    (several : 2 ≤ (Finset.Icc ⌈lo.value⌉ ⌊hi.value⌋).card) :
    let count := (Finset.Icc ⌈lo.value⌉ ⌊hi.value⌋).card
    let stride := count ⌈/⌉ 8
    Scale.log.ticks lo hi =
      (List.range (count ⌈/⌉ stride)).map fun i : ℕ => Exact.mk (⌈lo.value⌉ + stride * i) := by
  intro count stride
  have decades := decades_log_of_several low high (.inr several)
  have length : (Scale.log.decades lo hi).length = count := by
    rw [decades, List.length_map, length_integers, ← Int.card_Icc]
  have thinned : Scale.log.ticks lo hi = everyNth stride (Scale.log.decades lo hi) := by
    have enough : 2 ≤ (Scale.log.decades lo hi).length := length ▸ several
    rw [Scale.ticks, if_pos enough, strideFor_eq, length]
    rfl
  have positive : 0 < stride := by
    have covered : count ≤ 8 * stride := (ceilDiv_le_iff_le_mul (by decide)).1 le_rfl
    omega
  rw [thinned, decades, integers, ← Int.card_Icc, everyNth_map positive, everyNth_map positive,
    everyNth_range positive, List.map_map, List.map_map]
  refine List.map_congr_left fun i _ => ?_
  have place (n : ℤ) : (ofInt n : Exact) = Exact.mk n := rfl
  simp only [Function.comp_apply, place]
  push_cast
  rfl

/-! ## All scales -/

/-- Every range has from two to nine ticks, ascending and in it, but that the last one may be past
its end by a billionth of a step if the ticks are regular. On the logarithmic scale the ticks are
whole numbers at equal distances from the least one on, if there are two or more in range. -/
theorem ticks_within (scale : Scale) (ordered : lo.value < hi.value)
    (low : |lo.value| < 2 ^ 31) (high : |hi.value| < 2 ^ 31)
    (lowSteps : |lo.value / (stepFor lo hi throughputTarget).value| < 2 ^ 63)
    (highSteps : |hi.value / (stepFor lo hi throughputTarget).value| < 2 ^ 63) :
    let slack : ℝ :=
      if (scale.decades lo hi).length < 2 then (stepFor lo hi throughputTarget).value / 10 ^ 9
      else 0
    Within lo.value hi.value slack (scale.ticks lo hi) ∧
    (scale = .log → 2 ≤ (Finset.Icc ⌈lo.value⌉ ⌊hi.value⌋).card →
      let count := (Finset.Icc ⌈lo.value⌉ ⌊hi.value⌋).card
      let stride := count ⌈/⌉ 8
      scale.ticks lo hi =
        (List.range (count ⌈/⌉ stride)).map fun i : ℕ => Exact.mk (⌈lo.value⌉ + stride * i)) := by
  intro slack
  constructor
  · by_cases several : 2 ≤ (scale.decades lo hi).length
    case neg =>
      have regular : scale.ticks lo hi = regular lo hi throughputTarget := if_neg several
      have billionth : slack = (stepFor lo hi throughputTarget).value / 10 ^ 9 :=
        if_pos (not_le.1 several)
      rw [regular, billionth]
      exact within_regular ordered lowSteps highSteps
    case pos =>
      have thinned : scale.ticks lo hi =
          everyNth (strideFor (scale.decades lo hi).length throughputTarget)
            (scale.decades lo hi) := if_pos several
      have noSlack : slack = 0 := if_neg (not_lt.2 several)
      rw [thinned, noSlack]
      cases scale with
      | linear => exact absurd several (Nat.not_succ_le_zero 1)
      | log =>
        obtain ⟨ascending, inside⟩ := ascending_decades_log low high several
        exact within_everyNth ascending several inside
      | symlog =>
        obtain ⟨ascending, inside⟩ := roundedScale.ascending_decades_symlog lo hi
        exact within_everyNth ascending several inside
  · rintro rfl several
    exact ticks_log low high several

/-- Twenty-one whole numbers, of which every third is ticked. -/
theorem ticks_within_decades :
    let lo := Exact.mk (-1 / 2)
    let hi := Exact.mk (41 / 2)
    lo.value < hi.value ∧ |lo.value| < 2 ^ 31 ∧ |hi.value| < 2 ^ 31 ∧
      |lo.value / (stepFor lo hi throughputTarget).value| < 2 ^ 63 ∧
      |hi.value / (stepFor lo hi throughputTarget).value| < 2 ^ 63 ∧
      Within lo.value hi.value 0 (Scale.log.ticks lo hi) ∧
      (Finset.Icc ⌈lo.value⌉ ⌊hi.value⌋).card = 21 ∧
      Scale.log.ticks lo hi = (List.range 7).map fun i : ℕ => Exact.mk (3 * i) := by
  intro lo hi
  have ordered : lo.value < hi.value := by norm_num [lo, hi]
  have low : |lo.value| < 2 ^ 31 := by norm_num [lo, abs_div]
  have high : |hi.value| < 2 ^ 31 := by norm_num [hi, abs_div]
  have step : 1 ≤ (stepFor lo hi throughputTarget).value := by
    refine le_trans ?_ (stepFor_bounds ordered).1
    norm_num [lo, hi]
  have shorter (x : ℝ) : |x / (stepFor lo hi throughputTarget).value| ≤ |x| := by
    rw [abs_div, abs_of_pos (one_pos.trans_le step)]
    exact div_le_self (abs_nonneg x) step
  have lowSteps := (shorter lo.value).trans_lt (low.trans (by norm_num : (2 : ℝ) ^ 31 < 2 ^ 63))
  have highSteps := (shorter hi.value).trans_lt (high.trans (by norm_num : (2 : ℝ) ^ 31 < 2 ^ 63))
  obtain ⟨within, places⟩ := ticks_within .log ordered low high lowSteps highSteps
  have first : ⌈lo.value⌉ = 0 := by norm_num [lo, Int.ceil_eq_iff]
  have last : ⌊hi.value⌋ = 20 := by norm_num [hi, Int.floor_eq_iff]
  have count : (Finset.Icc ⌈lo.value⌉ ⌊hi.value⌋).card = 21 := by
    rw [first, last]
    decide
  have several : 2 ≤ (Finset.Icc ⌈lo.value⌉ ⌊hi.value⌋).card := by
    rw [count]
    decide
  have decades : ¬ (Scale.log.decades lo hi).length < 2 := by
    rw [decades_log_of_several low high (.inr several), List.length_map, length_integers, first,
      last]
    decide
  have ticks := places rfl several
  have stride : 21 ⌈/⌉ 8 = 3 := by decide
  have kept : 21 ⌈/⌉ 3 = 7 := by decide
  simp only [count, stride, kept] at ticks
  simp only [first, Int.cast_zero, zero_add, Nat.cast_ofNat] at ticks
  rw [if_neg decades] at within
  exact ⟨ordered, low, high, lowSteps, highSteps, within, count, ticks⟩

end ContentionChart.Exact
