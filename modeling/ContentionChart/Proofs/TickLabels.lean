import ContentionChart.Proofs.DoubleLogarithms
import ContentionChart.Proofs.Labels
import ContentionChart.Proofs.LayoutRanges
import ContentionChart.Proofs.Strides
import ContentionChart.Proofs.SymmetricPlaces
import ContentionChart.Proofs.WholeDoubles

/-!
# Labels of ticks

Ticks are apart by a share of the range of the axis, and labels show a share of the throughput
itself. On an axis far from zero there are throughputs that labels do not tell apart. Powers of ten
are always told apart, but for those past the ends of the doubles.

## Main definitions

* `Binary64.IsNear` — a double that stands for a positive number.

## Main statements

* `Layout.labels_log`, `Exact.labels_symlog` — powers of ten have different labels.
* `Layout.tickLabels_differ` — which ticks of a layout have different labels.
-/

namespace ContentionChart

open Binary64 (number? number?_of_toRat? toRat?)
open ChartNumber Ticks

/-! ## Powers of ten as doubles -/

namespace Binary64

/-- A double stands for a positive number. It is infinite, zero, or off by half of itself at most.
-/
def IsNear (q : ℚ) (x : Float) : Prop :=
  number? x = some ⊤ ∨ toRat? x = some 0 ∨
    ∃ r, toRat? x = some r ∧ 0 < r ∧ r ≤ 2 * q ∧ 2 * q ≤ 3 * r

theorem isNear_exp10_ofInt {k : ℤ} (bound : k.natAbs < 2 * fractionCount) :
    IsNear (10 ^ k) (exp10 (ofInt k)) := by
  rw [exp10_ofInt bound]
  split_ifs
  · exact .inr (.inl (toRat?_zero false))
  · exact .inl number?_infinity
  · rcases ofRat_near (zpow_pos (by norm_num : (0 : ℚ) < 10) k) with infinite | finite
    · rw [infinite]
      exact .inl number?_infinity
    · exact .inr finite

end Binary64

namespace Label

variable {p q : ℚ} {x y : Float}

theorem Alike.symm (alike : Alike x y) : Alike y x :=
  ofThroughput_eq_iff.1 (ofThroughput_eq_iff.2 alike).symm

theorem Alike.infinite (alike : Alike x y) (infinite : number? x = some ⊤) :
    number? y = some ⊤ := by
  rcases alike with same | ⟨p, -, value, -⟩
  · rw [← same, infinite]
  · rw [number?_of_toRat? value] at infinite
    exact absurd (Option.some.inj infinite) (EReal.coe_ne_top _)

/-- Doubles that stand for numbers of different size are told apart, unless both numbers are too
small or both too large for a double. -/
theorem Alike.of_isNear (alike : Alike x y) (far : 10 * p ≤ q) (hx : Binary64.IsNear p x)
    (hy : Binary64.IsNear q y) :
    toRat? x = some 0 ∧ toRat? y = some 0 ∨ number? x = some ⊤ ∧ number? y = some ⊤ := by
  rcases hx with infinite | hx
  · exact .inr ⟨infinite, alike.infinite infinite⟩
  rcases hy with infinite | hy
  · exact .inr ⟨alike.symm.infinite infinite, infinite⟩
  -- Both are finite, and neither may be more than three times the other.
  have ratio {r s : ℚ} (hr : toRat? x = some r) (hs : toRat? y = some s) :
      |s| ≤ 3 * |r| ∧ |r| ≤ 3 * |s| := by
    have same := ofThroughput_eq_iff.2 alike
    rw [ofThroughput_of_toRat? hr, ofThroughput_of_toRat? hs] at same
    exact ⟨abs_le_three_mul_of_ofRat_eq same, abs_le_three_mul_of_ofRat_eq same.symm⟩
  rcases hx with zero | ⟨r, hr, positive, low, high⟩
  · rcases hy with zero' | ⟨s, hs, positive', -, -⟩
    · exact .inl ⟨zero, zero'⟩
    · have bound := (ratio zero hs).1
      rw [abs_of_pos positive', abs_zero] at bound
      linarith
  · rcases hy with zero' | ⟨s, hs, positive', -, high'⟩
    · have bound := (ratio hr zero').2
      rw [abs_of_pos positive, abs_zero] at bound
      linarith
    · have bound := (ratio hr hs).1
      rw [abs_of_pos positive, abs_of_pos positive'] at bound
      linarith

end Label

/-! ## Powers of ten as exact numbers -/

namespace Label

/-- Zero and the powers of ten on both sides of it are exact rationals with different labels. -/
theorem exists_ofRat_ne {y z : ℝ} (hy : Scale.IsSymmetricPower y) (hz : Scale.IsSymmetricPower z)
    (ne : y ≠ z) : ∃ p q : ℚ, y = p ∧ z = q ∧ ofRat p ≠ ofRat q := by
  have rational {y : ℝ} (power : Scale.IsSymmetricPower y) :
      ∃ p : ℚ, y = p ∧ (p = 0 ∨ ∃ k : ℕ, |p| = 10 ^ k) := by
    rcases power with rfl | ⟨k, rfl | rfl⟩
    · exact ⟨0, by simp, .inl rfl⟩
    · exact ⟨10 ^ k, by simp, .inr ⟨k, by simp⟩⟩
    · exact ⟨-10 ^ k, by simp, .inr ⟨k, by simp⟩⟩
  obtain ⟨p, rfl, hp⟩ := rational hy
  obtain ⟨q, rfl, hq⟩ := rational hz
  refine ⟨p, q, rfl, rfl, fun same => ne (congrArg _ ?_)⟩
  rcases ofRat_eq_iff.1 same with equal | ⟨sign, -⟩
  · exact equal
  obtain ⟨j, hj⟩ := hp.resolve_left (left_ne_zero_of_mul sign.ne')
  obtain ⟨k, hk⟩ := hq.resolve_left (right_ne_zero_of_mul sign.ne')
  have low := abs_le_three_mul_of_ofRat_eq same
  have high := abs_le_three_mul_of_ofRat_eq same.symm
  rw [hj, hk] at low high
  have apart {m n : ℕ} (near : (10 : ℚ) ^ n ≤ 3 * 10 ^ m) : n ≤ m := by
    by_contra! more
    have next : (10 : ℚ) ^ (m + 1) ≤ 10 ^ n := pow_le_pow_right₀ (by norm_num) more
    have positive : (0 : ℚ) < 10 ^ m := by positivity
    rw [pow_succ] at next
    linarith
  have size : |p| = |q| := by rw [hj, hk, le_antisymm (apart high) (apart low)]
  rcases abs_eq_abs.1 size with equal | opposite
  · exact equal
  · rw [opposite] at sign
    nlinarith [sq_nonneg q]

end Label

namespace Exact

/-- Where powers of ten are ticked on the symmetric scale, their labels are all different. -/
theorem labels_symlog {lo hi : Exact} (several : 2 ≤ (Scale.symlog.decades lo hi).length) :
    (Scale.symlog.ticks lo hi).Pairwise fun v w =>
      ∃ p q : ℚ, (Scale.symlog.throughput v).value = (p : ℝ) ∧
        (Scale.symlog.throughput w).value = (q : ℝ) ∧
        Label.ofRat p ≠ Label.ofRat q := by
  refine List.Pairwise.sublist (Scale.ticks_sublist_decades several) ?_
  refine (roundedScale.ascending_decades_symlog lo hi).1.imp_of_mem fun {v w} hv hw less => ?_
  obtain ⟨y, power, rfl⟩ := exists_power_of_mem_decades_symlog hv
  obtain ⟨z, power', rfl⟩ := exists_power_of_mem_decades_symlog hw
  rw [throughput_position_symlog, throughput_position_symlog]
  refine Label.exists_ofRat_ne power power' fun same => less.ne ?_
  rw [symlog_position, symlog_position, same]

end Exact

/-! ## The ticks of a layout -/

namespace Layout

variable {options : ChartSettings} {r : Results Float} {layout : Layout Float}

/-- Where powers of ten are ticked on the logarithmic scale, only powers that no double stands for
have the same label. -/
theorem labels_log {lo hi : Float} (several : 2 ≤ (Scale.log.decades lo hi).length) :
    (Scale.log.ticks lo hi).Pairwise fun v w =>
      Scale.log.tickLabel v = Scale.log.tickLabel w →
        toRat? (Scale.log.throughput v) = some 0 ∧ toRat? (Scale.log.throughput w) = some 0 ∨
          number? (Scale.log.throughput v) = some ⊤ ∧
            number? (Scale.log.throughput w) = some ⊤ := by
  -- Exponents are 32-bit numbers, which doubles hold without rounding.
  have short {k : ℤ} (mem : k ∈ integers (toInt32 (ChartNumber.ceil lo))
      (toInt32 (ChartNumber.floor hi))) : k.natAbs < 2 * Binary64.fractionCount := by
    have between := mem_integers.1 mem
    have first := (Binary64.toInt32_bounds (ChartNumber.ceil lo)).1
    have last := (Binary64.toInt32_bounds (ChartNumber.floor hi)).2
    rw [Binary64.fractionCount]
    omega
  refine List.Pairwise.sublist (Scale.ticks_sublist_decades several) ?_
  refine List.pairwise_map.2 ((ascending_integers _ _).imp_of_mem fun {j k} hj hk less same => ?_)
  have alike := Label.ofThroughput_eq_iff.1 same
  have far : (10 : ℚ) * 10 ^ j ≤ 10 ^ k := by
    rw [← zpow_one_add₀ (by norm_num)]
    exact zpow_le_zpow_right₀ (by norm_num) (by omega)
  exact alike.of_isNear far (Binary64.isNear_exp10_ofInt (short hj))
    (Binary64.isNear_exp10_ofInt (short hk))

/-- Two ticks of a layout have the same label if and only if their throughputs are alike, which they
are not if they are farther apart than one half of a step of the last digit of each. Where powers of
ten are ticked, no two that doubles stand for have the same label on the logarithmic scale, and no
two at all on the symmetric scale of exact numbers. -/
theorem tickLabels_differ (made : (ofResults options r).value = .ok layout) :
    (∀ v ∈ layout.yTicks, ∀ w ∈ layout.yTicks,
      layout.scale.tickLabel v = layout.scale.tickLabel w ↔
        Label.Alike (layout.scale.throughput v) (layout.scale.throughput w)) ∧
    (∀ v ∈ layout.yTicks, ∀ w ∈ layout.yTicks, ∀ p q,
      toRat? (layout.scale.throughput v) = some p → toRat? (layout.scale.throughput w) = some q →
        (Label.unit |p| + Label.unit |q|) / 2 < |p - q| →
          layout.scale.tickLabel v ≠ layout.scale.tickLabel w) ∧
    (options.scale = .log →
      2 ≤ (Scale.log.decades layout.yRange.start layout.yRange.stop).length →
        layout.yTicks.Pairwise fun v w => layout.scale.tickLabel v = layout.scale.tickLabel w →
          toRat? (layout.scale.throughput v) = some 0 ∧
              toRat? (layout.scale.throughput w) = some 0 ∨
            number? (layout.scale.throughput v) = some ⊤ ∧
              number? (layout.scale.throughput w) = some ⊤) ∧
    (∀ lo hi : Exact, 2 ≤ (Scale.symlog.decades lo hi).length →
      (Scale.symlog.ticks lo hi).Pairwise fun v w => ∃ p q : ℚ,
        (Scale.symlog.throughput v).value = (p : ℝ) ∧
          (Scale.symlog.throughput w).value = (q : ℝ) ∧ Label.ofRat p ≠ Label.ofRat q) := by
  obtain ⟨scale, ticks⟩ := yTicks_eq made
  refine ⟨fun v _ w _ => Label.ofThroughput_eq_iff, ?_, ?_, fun lo hi => Exact.labels_symlog⟩
  · intro v _ w _ p q hp hq far same
    rw [Scale.tickLabel, Scale.tickLabel, Label.ofThroughput_of_toRat? hp,
      Label.ofThroughput_of_toRat? hq] at same
    exact absurd far (not_lt.2 (Label.abs_sub_le_of_ofRat_eq same))
  · intro log several
    rw [ticks, scale, log]
    exact labels_log several

/-- A layout is made, as far as something is shown of it. -/
theorem exists_made_of_map {β : Type} {f : Layout Float → β} {b : β}
    (shown : (ofResults options r).value.toOption.map f = some b) :
    ∃ layout, (ofResults options r).value = .ok layout ∧ f layout = b := by
  obtain ⟨layout, some_layout, rfl⟩ := Option.map_eq_some_iff.1 shown
  cases made : (ofResults options r).value with
  | error failure => simp [made, Except.toOption] at some_layout
  | ok other =>
    simp only [made, Except.toOption, Option.some.injEq] at some_layout
    exact ⟨layout, congrArg _ some_layout, rfl⟩

/-- Ten, a hundred and a thousand are ticked between three and three thousand. -/
theorem tickLabels_differ_decades :
    let r : Results Float := .ofSamples [⟨"A", 1, 3.0, none⟩, ⟨"A", 2, 3000.0, none⟩]
    ∃ layout, (ofResults .standard r).value = .ok layout ∧ ChartSettings.standard.scale = .log ∧
      2 ≤ (Scale.log.decades layout.yRange.start layout.yRange.stop).length ∧
      (layout.yTicks.map fun v => toRat? (layout.scale.throughput v)) =
        [some 10, some 100, some 1000] ∧
      layout.yTicks.Pairwise fun v w => layout.scale.tickLabel v ≠ layout.scale.tickLabel w := by
  intro r
  have shown : ((ofResults .standard r).value.toOption.map fun layout =>
      ((Scale.log.decades layout.yRange.start layout.yRange.stop).length,
        layout.yTicks.map fun v => toRat? (layout.scale.throughput v))) =
      some (3, [some 10, some 100, some 1000]) := by decide +kernel
  obtain ⟨layout, made, parts⟩ := exists_made_of_map shown
  obtain ⟨count, values⟩ := Prod.mk.inj parts
  have several : 2 ≤ (Scale.log.decades layout.yRange.start layout.yRange.stop).length := by omega
  have finite : ∀ v ∈ layout.yTicks,
      ∃ q : ℚ, toRat? (layout.scale.throughput v) = some q ∧ q ≠ 0 := by
    intro v mem
    have value : toRat? (layout.scale.throughput v) ∈ [some 10, some 100, some 1000] :=
      values ▸ List.mem_map_of_mem mem
    simp only [List.mem_cons, List.not_mem_nil, or_false] at value
    rcases value with ten | hundred | thousand
    · exact ⟨10, ten, by norm_num⟩
    · exact ⟨100, hundred, by norm_num⟩
    · exact ⟨1000, thousand, by norm_num⟩
  refine ⟨layout, made, rfl, several, values, ?_⟩
  refine ((tickLabels_differ made).2.2.1 rfl several).imp_of_mem fun {v w} mem _ differ same => ?_
  obtain ⟨q, value, nonzero⟩ := finite v mem
  rcases differ same with ⟨zero, -⟩ | ⟨infinite, -⟩
  · rw [value] at zero
    exact nonzero (Option.some.inj zero)
  · rw [number?_of_toRat? value] at infinite
    exact EReal.coe_ne_top _ (Option.some.inj infinite)

/-- Labels do not always differ. Around a single throughput of a million all ticks of a linear axis
have the same one. -/
theorem not_tickLabels_differ :
    ¬ ∀ (options : ChartSettings) (r : Results Float) (layout : Layout Float),
      (ofResults options r).value = .ok layout →
        layout.yTicks.Pairwise fun v w =>
          layout.scale.tickLabel v ≠ layout.scale.tickLabel w := by
  intro always
  let options : ChartSettings := ⟨.linear, 12, .standard⟩
  let r : Results Float := .ofSamples [⟨"A", 1, 1000000.0, none⟩]
  have shown : ((ofResults options r).value.toOption.map fun layout =>
      layout.yTicks.map layout.scale.tickLabel) =
      some ["1.0e6", "1.0e6", "1.0e6", "1.0e6", "1.0e6"] := by decide +kernel
  obtain ⟨layout, made, labels⟩ := exists_made_of_map shown
  have differ := List.pairwise_map.2 (always options r layout made)
  rw [labels] at differ
  exact absurd differ (by decide)

end Layout

end ContentionChart
