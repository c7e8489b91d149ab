import ContentionChart.Proofs.Doubles
import ContentionChart.Proofs.PixelOrder

/-!
# Room around the points

The ranges of a layout are wider than its points, so that a marker is drawn whole even where a point
is one of the outermost. Numbers are exact here: with rounding, the room around positions far from
zero can be lost.

## Main definitions

* `Layout.Clear` — a point whose marker does not touch the edges of the plot.

## Main statements

* `Exact.around_margin` — the share of a range on either side of what it was made around.
* `Exact.toPixel_inside` — the pixels on either side of a position.
* `Layout.markers_clear` — the markers of a layout.
-/

namespace ContentionChart

open ChartNumber

namespace Exact

/-! ## Ranges -/

/-- Room is left on both sides of two values, in proportion to the range, as long as one is not lost
against the greater of them. -/
theorem around_margin {least greatest fraction x : Exact} {margin : ℝ}
    (bounded : |greatest.value| ≤ 2 ^ 53) (positive : 0 < margin) (quarter : margin ≤ 1 / 4)
    (part : margin * (1 + 2 * fraction.value) ≤ fraction.value)
    (low : least.value ≤ x.value) (high : x.value ≤ greatest.value) :
    let range := Interval.around least greatest fraction
    let length := range.stop.value - range.start.value
    0 < length ∧ margin * length ≤ x.value - range.start.value ∧
      margin * length ≤ range.stop.value - x.value := by
  intro range length
  have spacing : max |greatest.value| 1 / 2 ^ 52 ≤ (2 : ℝ) := by
    rw [div_le_iff₀ (by norm_num), max_le_iff]
    constructor <;> linarith
  have cases := rounded.around_exact (fun _ => rfl) least greatest fraction
  dsimp only at cases
  rcases cases with ⟨short, start, stop⟩ | ⟨long, start, stop⟩
  · -- The values lie within two of each other, so that one is a quarter of the range at least.
    have length_le : length ≤ 4 := by
      simp only [length, range, start, stop]
      linarith
    have one : margin * length ≤ 1 := by
      calc margin * length ≤ margin * 4 := mul_le_mul_of_nonneg_left length_le positive.le
        _ ≤ 1 := by linarith
    refine ⟨?_, one.trans ?_, one.trans ?_⟩ <;> simp only [length, range, start, stop] <;> linarith
  · have apart : 0 < greatest.value - least.value := by
      have : (0 : ℝ) < max |greatest.value| 1 / 2 ^ 52 := by positivity
      exact this.trans long
    have room : margin * length ≤ (greatest.value - least.value) * fraction.value := by
      have scaled := mul_le_mul_of_nonneg_left part apart.le
      simp only [length, range, start, stop]
      linarith
    have wider : 0 < fraction.value := by nlinarith
    have positive_room := mul_pos apart wider
    refine ⟨?_, room.trans ?_, room.trans ?_⟩ <;> simp only [length, range, start, stop] <;>
      linarith

/-! ## Pixels -/

theorem floor_between {a : ℝ} {m n : ℤ} (low : m ≤ a) (high : a ≤ n) :
    m ≤ ⌊a + 1 / 1000⌋ ∧ ⌊a + 1 / 1000⌋ ≤ n := by
  constructor
  · rw [Int.le_floor]
    linarith
  · rw [← Int.lt_add_one_iff, Int.floor_lt]
    push_cast
    linarith

/-- A position with some pixels' worth of an axis on both sides is drawn as many pixels inside. -/
theorem toPixel_inside {interval : Interval Exact} {limit : ℤ × ℤ} {x : Exact} {margin : ℝ} {n : ℕ}
    (stretch : IsStretch limit) (long : 0 < interval.stop.value - interval.start.value)
    (before : margin * (interval.stop.value - interval.start.value) ≤
      x.value - interval.start.value)
    (after : margin * (interval.stop.value - interval.start.value) ≤
      interval.stop.value - x.value)
    (nonneg : 0 ≤ margin) (enough : n ≤ margin * |((limit.2 - limit.1 : ℤ) : ℝ)|) :
    min limit.1 limit.2 + n ≤ interval.toPixel limit x ∧
      interval.toPixel limit x + n ≤ max limit.1 limit.2 := by
  have room := mul_nonneg nonneg long.le
  rw [rounded.toPixel_eq stretch (by linarith) (by linarith)]
  set length := limit.2 - limit.1 with length_eq
  set share := shareBefore id interval.start.value interval.stop.value x.value with share_eq
  simp only [shareBefore, id] at share_eq
  have low : margin ≤ share := by
    rwa [share_eq, le_div_iff₀ long]
  have high : margin ≤ 1 - share := by
    rw [share_eq, one_sub_div long.ne', le_div_iff₀ long]
    linarith
  have pixels : pixelsBefore id length share = ⌊length * share + 1 / 1000⌋ := rfl
  rw [pixels]
  rcases le_total 0 length with forward | backward
  · have size : (0 : ℝ) ≤ length := by exact_mod_cast forward
    rw [abs_of_nonneg size] at enough
    have left := mul_le_mul_of_nonneg_left low size
    have right := mul_le_mul_of_nonneg_left high size
    have between := floor_between (a := length * share) (m := n) (n := length - n)
      (by push_cast; linarith) (by push_cast; linarith)
    omega
  · have size : 0 ≤ -(length : ℝ) := by rw [neg_nonneg]; exact_mod_cast backward
    rw [abs_of_nonpos (neg_nonneg.1 size)] at enough
    have left := mul_le_mul_of_nonneg_left low size
    have right := mul_le_mul_of_nonneg_left high size
    have between := floor_between (a := length * share) (m := length + n) (n := -n)
      (by push_cast; linarith) (by push_cast; linarith)
    omega

/-- What a range was made around is strictly inside it, and is drawn inside the stretch of pixels
by a share of its length. -/
theorem inside_around (margin : ℝ) (n : ℕ) {least greatest fraction x : Exact} {limit : ℤ × ℤ}
    (bounded : |greatest.value| ≤ 2 ^ 53) (positive : 0 < margin) (quarter : margin ≤ 1 / 4)
    (part : margin * (1 + 2 * fraction.value) ≤ fraction.value)
    (low : least.value ≤ x.value) (high : x.value ≤ greatest.value) (stretch : IsStretch limit)
    (enough : n ≤ margin * |((limit.2 - limit.1 : ℤ) : ℝ)|) :
    let range := Interval.around least greatest fraction
    (range.start < x ∧ x < range.stop) ∧
      min limit.1 limit.2 + n ≤ range.toPixel limit x ∧
      range.toPixel limit x + n ≤ max limit.1 limit.2 := by
  intro range
  obtain ⟨long, before, after⟩ := around_margin bounded positive quarter part low high
  have room := mul_pos positive long
  refine ⟨⟨?_, ?_⟩, toPixel_inside stretch long before after positive.le enough⟩
  · exact (rounded.lt_iff _ _).2 (sub_pos.1 (room.trans_le before))
  · exact (rounded.lt_iff _ _).2 (sub_pos.1 (room.trans_le after))

/-! ## Positions of doubles -/

/-- A number that is the value of a finite double. -/
def IsDouble (y : Exact) : Prop := ∃ x q, Binary64.toRat? x = some q ∧ (q : ℝ) = y.value

theorem abs_logb_le {x : ℝ} {n : ℕ} (low : ((2 : ℝ) ^ n)⁻¹ ≤ x) (high : x ≤ 2 ^ n) :
    |Real.logb 10 x| ≤ n := by
  have two : Real.logb 10 2 ≤ 1 := by
    rw [Real.logb_le_iff_le_rpow (by norm_num) (by norm_num)]
    norm_num
  have power : Real.logb 10 ((2 : ℝ) ^ n) ≤ n := by
    rw [Real.logb_pow]
    exact mul_le_of_le_one_right (Nat.cast_nonneg n) two
  have positive : 0 < ((2 : ℝ) ^ n)⁻¹ := by positivity
  have least := Real.logb_le_logb_of_le (b := 10) (by norm_num) positive low
  have greatest := Real.logb_le_logb_of_le (b := 10) (by norm_num) (positive.trans_le low) high
  rw [Real.logb_inv] at least
  rw [abs_le]
  constructor <;> linarith

/-- On both logarithmic scales the positions of doubles are near zero. -/
theorem abs_position_le {scale : Scale} {y : Exact} (logarithmic : scale ≠ .linear)
    (admitted : scale.admits y = true) (double : IsDouble y) :
    |(scale.position y).value| ≤ 2 ^ 53 := by
  obtain ⟨x, q, exact, same⟩ := double
  obtain ⟨high, low⟩ := Binary64.abs_bounds_of_toRat? exact
  have highest : |y.value| < 2 ^ 1024 := by
    rw [← same]
    exact_mod_cast high
  have near {z : ℝ} (least : ((2 : ℝ) ^ 1074)⁻¹ ≤ z) (greatest : z ≤ 2 ^ 1024 + 2 ^ 1024) :
      |Real.logb 10 z| ≤ 2 ^ 53 := by
    have wide : (2 : ℝ) ^ 1024 + 2 ^ 1024 ≤ 2 ^ 1074 := by
      rw [← two_mul, ← pow_succ']
      exact pow_le_pow_right₀ one_le_two (by norm_num)
    exact (abs_logb_le least (greatest.trans wide)).trans (by norm_num)
  have one : (1 : ℝ) ≤ 2 ^ 1024 := one_le_pow₀ one_le_two
  cases scale with
  | linear => exact absurd rfl logarithmic
  | log =>
    have positive := admits_log_iff.1 admitted
    have nonzero : q ≠ 0 := by
      rintro rfl
      rw [← same, Rat.cast_zero] at positive
      exact lt_irrefl _ positive
    have lowest : ((2 : ℝ) ^ 1074)⁻¹ ≤ |y.value| := by
      have cast := (Rat.cast_le (K := ℝ)).2 (low nonzero)
      rwa [Rat.cast_inv, Rat.cast_pow, Rat.cast_ofNat, Rat.cast_abs, same] at cast
    rw [abs_of_pos positive] at highest lowest
    exact near lowest (highest.le.trans (le_add_of_nonneg_right (zero_le_one.trans one)))
  | symlog =>
    have magnitude : |(Scale.symlog.position y).value| = |Real.logb 10 (1 + |y.value|)| := by
      rw [symlog_position]
      split
      case isTrue negative => rw [abs_neg, abs_of_neg negative, sub_eq_add_neg]
      case isFalse nonneg => rw [abs_of_nonneg (not_lt.1 nonneg)]
    have nonneg := abs_nonneg y.value
    have least : ((2 : ℝ) ^ 1074)⁻¹ ≤ 1 := inv_le_one_of_one_le₀ (one_le_pow₀ one_le_two)
    rw [magnitude]
    exact near (least.trans (le_add_of_nonneg_right nonneg)) (add_le_add one highest.le)

end Exact

namespace Layout

variable {options : ChartSettings} {r : Results Exact} {layout : Layout Exact}

/-- A point lies strictly inside both ranges, and on an image a marker at its pixel ends before the
edges of the plot. -/
structure Clear (layout : Layout Exact) (width height : ℕ) (p : ℕ × Exact) : Prop where
  inX : layout.xRange.start < threadPosition p.1 ∧ threadPosition p.1 < layout.xRange.stop
  inY : layout.yRange.start < p.2 ∧ p.2 < layout.yRange.stop
  across : 130 + Drawing.markerRadius ≤ (layout.pixel width height p).1 ∧
    (layout.pixel width height p).1 + Drawing.markerRadius ≤ width - 21
  upward : 55 + Drawing.markerRadius ≤ (layout.pixel width height p).2 ∧
    (layout.pixel width height p).2 + Drawing.markerRadius ≤ height - 81

/-- No marker of a layout is cut off at an edge of the plot, on images of 300 pixels each way or
more, unless positions are farther from zero than `2 ^ 53`. On the logarithmic scales the positions
of doubles never are. Thread counts and pixels have 32 bits. -/
theorem markers_clear (made : (ofResults options r).value = .ok layout)
    (threads : ∀ p, IsDrawn options.scale r p → p.1 < 2 ^ 32) {width height : ℕ}
    (wide : 300 ≤ width) (high : 300 ≤ height) (across : IsStretch (xLimits width))
    (up : IsStretch (yLimits height)) :
    ((∀ p ∈ allPoints layout.lines, |p.2.value| ≤ 2 ^ 53) →
      ∀ p ∈ allPoints layout.lines, Clear layout width height p) ∧
    (options.scale ≠ .linear → (∀ p, IsDrawn options.scale r p → Exact.IsDouble p.2) →
      ∀ p ∈ allPoints layout.lines, |p.2.value| ≤ 2 ^ 53) := by
  constructor
  · intro moderate p mem
    obtain ⟨left, right, lowest, highest, -, inRight, -, inHighest, xRange, yRange, all⟩ :=
      exists_outermost Exact.rounded made
    obtain ⟨⟨xLow, xHigh⟩, yLow, yHigh⟩ := all p mem
    have xLength : 149 ≤ |(xLimits width).2 - (xLimits width).1| := by
      simp only [xLimits, le_abs]
      omega
    have yLength : 164 ≤ |(yLimits height).2 - (yLimits height).1| := by
      simp only [yLimits, le_abs]
      omega
    have few : |(threadPosition right.1 : Exact).value| ≤ 2 ^ 53 := by
      obtain ⟨q, drawn, rfl⟩ := (mem_allPoints_iff made).1 inRight
      have bound : (q.1 : ℝ) < 2 ^ 32 := by exact_mod_cast threads q drawn
      have position : (threadPosition q.1 : Exact).value = q.1 := Int.cast_natCast q.1
      rw [position, abs_of_nonneg (Nat.cast_nonneg _)]
      linarith
    have twentieth : (0.05 : Exact).value = 0.05 := rfl
    have tenth : (0.1 : Exact).value = 0.1 := rfl
    have radius : (Drawing.markerRadius : ℝ) = 5 := by norm_num [Drawing.markerRadius]
    rw [← Int.cast_le (R := ℝ), Int.cast_abs] at xLength yLength
    have x := Exact.inside_around (1 / 22) Drawing.markerRadius few (by norm_num)
      (by norm_num) (by rw [twentieth]; norm_num) xLow xHigh across
      (by rw [radius]; norm_num at xLength ⊢; linarith)
    have y := Exact.inside_around (1 / 12) Drawing.markerRadius
      (moderate _ inHighest) (by norm_num) (by norm_num) (by rw [tenth]; norm_num) yLow yHigh up
      (by rw [radius]; norm_num at yLength ⊢; linarith)
    rw [← xRange] at x
    rw [← yRange] at y
    have xLimit : (xLimits width).1 ≤ (xLimits width).2 := by simp only [xLimits]; omega
    have yLimit : (yLimits height).2 ≤ (yLimits height).1 := by simp only [yLimits]; omega
    rw [min_eq_left xLimit, max_eq_right xLimit] at x
    rw [min_eq_right yLimit, max_eq_left yLimit] at y
    exact ⟨x.1, y.1, x.2, y.2⟩
  · intro logarithmic doubles p mem
    obtain ⟨q, drawn, rfl⟩ := (mem_allPoints_iff made).1 mem
    obtain ⟨_, _, -, -, admitted⟩ := id drawn
    exact Exact.abs_position_le logarithmic admitted (doubles q drawn)

/-- One thread count, three throughputs and a small image, on the logarithmic scale. -/
theorem markers_clear_column :
    let options := ChartSettings.standard
    let r : Results Exact :=
      .ofSamples [⟨"A", 8, Exact.mk 1, none⟩, ⟨"B", 8, Exact.mk 1000, none⟩,
        ⟨"A", 8, Exact.mk 1000, none⟩]
    (∀ p, IsDrawn options.scale r p → p.1 < 2 ^ 32) ∧
      300 ≤ 300 ∧ 300 ≤ 301 ∧ IsStretch (xLimits 300) ∧ IsStretch (yLimits 301) ∧
      options.scale ≠ .linear ∧ (∀ p, IsDrawn options.scale r p → Exact.IsDouble p.2) ∧
      ∃ layout : Layout Exact, (ofResults options r).value = .ok layout ∧
        (∀ p ∈ allPoints layout.lines, |p.2.value| ≤ 2 ^ 53) ∧
        ∀ p ∈ allPoints layout.lines, Clear layout 300 301 p := by
  intro options r
  have samples {p : ℕ × Exact} (drawn : IsDrawn options.scale r p) :
      p = (8, Exact.mk 1) ∨ p = (8, Exact.mk 1000) := by
    obtain ⟨s, mem, -, rfl⟩ := isDrawn_ofSamples_iff.1 drawn
    simp only [List.mem_cons, List.not_mem_nil, or_false] at mem
    obtain rfl | rfl | rfl := mem
    · exact .inl rfl
    · exact .inr rfl
    · exact .inr rfl
  have threads : ∀ p, IsDrawn options.scale r p → p.1 < 2 ^ 32 := by
    intro p drawn
    obtain rfl | rfl := samples drawn <;> norm_num
  have doubles : ∀ p, IsDrawn options.scale r p → Exact.IsDouble p.2 := by
    intro p drawn
    obtain rfl | rfl := samples drawn
    · exact ⟨_, _, Binary64.toRat?_ofRat_natCast (n := 1) (by decide), by norm_num⟩
    · exact ⟨_, _, Binary64.toRat?_ofRat_natCast (n := 1000) (by decide), by norm_num⟩
  have wide : 300 ≤ 300 := by norm_num
  have high : 300 ≤ 301 := by norm_num
  have across : IsStretch (xLimits 300) := ⟨by decide, by decide, by decide⟩
  have up : IsStretch (yLimits 301) := ⟨by decide, by decide, by decide⟩
  have drawn : IsDrawn options.scale r (8, Exact.mk 1) :=
    isDrawn_ofSamples_iff.2 ⟨_, List.mem_cons_self, Exact.admits_log_iff.2 one_pos, rfl⟩
  obtain ⟨layout, made⟩ := exists_layout_of_isDrawn drawn
  obtain ⟨clear, near⟩ := markers_clear made threads wide high across up
  have moderate := near (by decide) doubles
  exact ⟨threads, wide, high, across, up, by decide, doubles, layout, made, moderate,
    clear moderate⟩

end Layout

end ContentionChart
