import ContentionChart.Proofs.DoubleArithmetic
import ContentionChart.Proofs.LayoutRanges
import ContentionChart.Proofs.SameData
import ContentionChart.Proofs.ThreadTicks

/-!
# The thread axis of a layout

A thread axis is ticked at thread counts that are drawn, and no tick is at an end of the axis. The
least distance between thread counts is one, so that the room around them is not lost by rounding
either.

## Main definitions

* `Layout.TicksDrawn` — the ticks of a layout stand at drawn thread counts.

## Main statements

* `Layout.around_threads` — the range around thread counts.
* `Layout.xTicks_ofResults` — the ticks of a layout.
-/

namespace ContentionChart.Layout

open Binary64 (fractionCount magnitude value read toRat? IsDouble IsNearest toRat?_eq_some_iff
  toRat?_literal_one toRat?_abs toRat?_ofInt toRat?_of_isDouble isDouble_div_two_pow
  isDouble_natCast isDouble_zero exists_nearest number?_add number?_mul number?_div number?_sub compare_iff_of_toRat?)

/-! ## Room around thread counts -/

theorem toRat?_threadPosition {threads : ℕ} (bound : threads < 2 ^ 32) :
    toRat? (threadPosition threads : Float) = some (threads : ℚ) := by
  have short : (threads : ℤ).natAbs < 2 * fractionCount := by
    rw [fractionCount]
    omega
  have whole := toRat?_ofInt short
  rwa [Int.cast_natCast] at whole

/-- Thirty-seconds of whole numbers are kept. -/
theorem isNearest_thirtysecond {i : ℤ} (bound : i.natAbs < 2 * fractionCount) :
    IsNearest (i / 32) (i / 32) := by
  have double := isDouble_div_two_pow (k := 5) bound (by decide)
  norm_num at double
  exact .refl double

/-- A twentieth of a distance of one or more is not lost by rounding. -/
theorem exists_twentieth {span : Float} {distance : ℕ} (number : toRat? span = some (distance : ℚ))
    (one : 1 ≤ distance) (bound : distance < 2 ^ 32) :
    ∃ t, toRat? (span * 0.05) = some t ∧ 1 / 32 ≤ t ∧ t ≤ 2 ^ 32 := by
  have fraction : toRat? 0.05 = some (3602879701896397 / 72057594037927936) := by
    have reading : read 0.05 = .finite false 0x1999999999999a (-57) := rfl
    exact toRat?_eq_some_iff.2 ⟨_, _, _, reading, by norm_num [value, magnitude]⟩
  have least : (1 : ℚ) ≤ distance := by exact_mod_cast one
  have most : (distance : ℚ) < 2 ^ 32 := by exact_mod_cast bound
  have moderate : |(distance : ℚ) * (3602879701896397 / 72057594037927936)| < 2 ^ 1023 := by
    rw [abs_of_pos (by positivity)]
    calc (distance : ℚ) * (3602879701896397 / 72057594037927936) ≤ 2 ^ 32 := by linarith
      _ < 2 ^ 1023 := pow_lt_pow_right₀ one_lt_two (by decide)
  obtain ⟨t, product, nearest⟩ := exists_nearest (number?_mul number fraction) moderate
  have low : IsNearest (1 / 32) (1 / 32) := by
    simpa using isNearest_thirtysecond (i := 1) (by decide)
  have high : IsNearest (2 ^ 32) (2 ^ 32) := by
    have kept := isNearest_thirtysecond (i := 2 ^ 37) (by decide)
    norm_num at kept ⊢
    exact kept
  exact ⟨t, product, low.mono nearest (by linarith), nearest.mono high (by linarith)⟩

/-- The length below which a range counts as empty is not negative. -/
theorem exists_threshold {greatest : ℕ} (bound : greatest < 2 ^ 32) :
    ∃ t, toRat? (Interval.epsilon * ChartNumber.larger
      (ChartNumber.abs (threadPosition greatest : Float)) 1.0) = some t ∧ 0 ≤ t := by
  have size : toRat? (ChartNumber.abs (threadPosition greatest : Float)) = some (greatest : ℚ) := by
    have absolute := toRat?_abs (toRat?_threadPosition bound)
    rwa [Nat.abs_cast] at absolute
  have one : toRat? 1.0 = some 1 := toRat?_literal_one
  have spacing : toRat? (Interval.epsilon : Float) = some (1 / 2 ^ 52) := by
    have whole : toRat? (ChartNumber.ofInt 0x10000000000000 : Float) = some (2 ^ 52) := by
      exact_mod_cast toRat?_ofInt (by decide)
    have double : IsDouble (1 / 2 ^ 52) := by
      simpa using isDouble_div_two_pow (i := 1) (k := 52) (by decide) (by decide)
    exact toRat?_of_isDouble (number?_div one whole (by norm_num)) double
  obtain ⟨s, larger, nonneg, small⟩ : ∃ s, toRat? (ChartNumber.larger
      (ChartNumber.abs (threadPosition greatest : Float)) 1.0) = some s ∧ 0 ≤ s ∧ s ≤ 2 ^ 32 := by
    unfold ChartNumber.larger
    split_ifs
    · exact ⟨1, one, zero_le_one, by norm_num⟩
    · exact ⟨greatest, size, by positivity, by exact_mod_cast bound.le⟩
    · exact ⟨1, one, zero_le_one, by norm_num⟩
  have moderate : |1 / 2 ^ 52 * s| < 2 ^ 1023 := by
    rw [abs_of_nonneg (by positivity)]
    calc 1 / 2 ^ 52 * s ≤ 2 ^ 32 := by linarith
      _ < 2 ^ 1023 := pow_lt_pow_right₀ one_lt_two (by decide)
  obtain ⟨t, product, nearest⟩ := exists_nearest (number?_mul spacing larger) moderate
  exact ⟨t, product, (IsNearest.refl isDouble_zero).mono nearest (by positivity)⟩

/-- What is more than a thirty-second before a thread count stays before it when it is rounded. -/
theorem exists_before {x room : Float} {threads : ℕ} {t : ℚ} (number : toRat? x = some (threads : ℚ))
    (bound : threads < 2 ^ 32) (width : toRat? room = some t) (enough : 1 / 32 ≤ t)
    (notMore : t ≤ 2 ^ 32) : ∃ start, toRat? (x - room) = some start ∧ start < threads := by
  have small : (threads : ℚ) < 2 ^ 32 := by exact_mod_cast bound
  have nonneg : (0 : ℚ) ≤ threads := Nat.cast_nonneg threads
  have large : (2 : ℚ) ^ 33 < 2 ^ 1023 := pow_lt_pow_right₀ one_lt_two (by decide)
  obtain ⟨start, before, nearest⟩ := exists_nearest (number?_sub number width)
    (lt_of_le_of_lt (abs_le.2 ⟨by linarith, by linarith⟩) large)
  have kept := isNearest_thirtysecond (i := 32 * threads - 1) (by rw [fractionCount]; omega)
  push_cast at kept
  have le := nearest.mono kept (by linarith)
  exact ⟨start, before, by linarith⟩

theorem exists_after {x room : Float} {threads : ℕ} {t : ℚ} (number : toRat? x = some (threads : ℚ))
    (bound : threads < 2 ^ 32) (width : toRat? room = some t) (enough : 1 / 32 ≤ t)
    (notMore : t ≤ 2 ^ 32) : ∃ stop, toRat? (x + room) = some stop ∧ threads < stop := by
  have small : (threads : ℚ) < 2 ^ 32 := by exact_mod_cast bound
  have nonneg : (0 : ℚ) ≤ threads := Nat.cast_nonneg threads
  have large : (2 : ℚ) ^ 33 < 2 ^ 1023 := pow_lt_pow_right₀ one_lt_two (by decide)
  obtain ⟨stop, after, nearest⟩ := exists_nearest (number?_add number width)
    (lt_of_le_of_lt (abs_le.2 ⟨by linarith, by linarith⟩) large)
  have kept := isNearest_thirtysecond (i := 32 * threads + 1) (by rw [fractionCount]; omega)
  push_cast at kept
  have le := kept.mono nearest (by linarith)
  exact ⟨stop, after, by linarith⟩

/-- There is room around thread counts, with rounding too. -/
theorem around_threads {least greatest : ℕ} (ordered : least ≤ greatest)
    (bound : greatest < 2 ^ 32) :
    let range : Interval Float := .around (threadPosition least) (threadPosition greatest) 0.05
    ∃ start stop, toRat? range.start = some start ∧ toRat? range.stop = some stop ∧
      start < least ∧ greatest < stop := by
  have bound' := ordered.trans_lt bound
  have left := toRat?_threadPosition bound'
  have right := toRat?_threadPosition bound
  have wide {room : Float} {t : ℚ} (width : toRat? room = some t) (enough : 1 / 32 ≤ t)
      (notMore : t ≤ 2 ^ 32) : ∃ start stop, toRat? (threadPosition least - room) = some start ∧
        toRat? (threadPosition greatest + room) = some stop ∧ start < least ∧ greatest < stop := by
    obtain ⟨start, before, less⟩ := exists_before left bound' width enough notMore
    obtain ⟨stop, after, more⟩ := exists_after right bound width enough notMore
    exact ⟨start, stop, before, after, less, more⟩
  simp only [Interval.around]
  split
  case isTrue => exact wide toRat?_literal_one (by norm_num) (by norm_num)
  case isFalse long =>
    have span : toRat? (threadPosition greatest - threadPosition least : Float) =
        some ((greatest - least : ℕ) : ℚ) := by
      have difference := number?_sub right left
      rw [← Nat.cast_sub ordered] at difference
      exact toRat?_of_isDouble difference (isDouble_natCast (by rw [fractionCount]; omega))
    have apart : 1 ≤ greatest - least := by
      obtain ⟨t, threshold, nonneg⟩ := exists_threshold bound
      have more : t < ((greatest - least : ℕ) : ℚ) :=
        not_le.1 fun le => long ((compare_iff_of_toRat? span threshold).2.2 le)
      exact Nat.cast_pos.1 (nonneg.trans_lt more)
    obtain ⟨t, room, enough, notMore⟩ := exists_twentieth span apart (by omega)
    exact wide room enough notMore

/-! ## Ticks of a layout -/

section

variable {α : Type} [ChartNumber α] {options : ChartSettings} {r : Results α} {layout : Layout α}

/-- Only the ticks of the thread axis depend on how many there may be. -/
theorem ofLines?_threadTicks {title : String} {lines : List (Line α)}
    (found : ofLines? options title lines = some layout) (limit : ℕ) :
    ofLines? { options with threadTicks := limit } title lines =
      some { layout with
        xTicks := Ticks.ofThreads (ThreadCounts.ascending (allThreads lines)) limit } := by
  simp only [ofLines?, Option.bind_eq_bind, Option.bind_eq_some_iff, Option.some.injEq] at found ⊢
  obtain ⟨x, hx, y, hy, rfl⟩ := found
  exact ⟨x, hx, y, hy, rfl⟩

theorem mem_allThreads_iff (made : (ofResults options r).value = .ok layout) {threads : ℕ} :
    threads ∈ allThreads layout.lines ↔ ∃ y, IsDrawn options.scale r (threads, y) := by
  simp only [allThreads, List.mem_map, mem_allPoints_iff made]
  constructor
  · rintro ⟨_, ⟨p, drawn, rfl⟩, rfl⟩
    exact ⟨p.2, drawn⟩
  · rintro ⟨y, drawn⟩
    exact ⟨_, ⟨_, drawn, rfl⟩, rfl⟩

/-- Where no sample is masked, all thread counts are drawn. -/
theorem ascending_allThreads (made : (ofResults options r).value = .ok layout)
    (all : ∀ lock s, r.find? lock = some s → ∀ p ∈ s.points, options.scale.admits p.2 = true) :
    ThreadCounts.ascending (allThreads layout.lines) = r.threadCounts := by
  refine (ThreadCounts.pairwise_ascending _).eq_of_mem_iff (ThreadCounts.pairwise_ascending _) ?_
  intro threads
  rw [ThreadCounts.mem_ascending, mem_allThreads_iff made, Results.mem_threadCounts_iff]
  constructor
  · rintro ⟨y, lock, s, found, mem, -⟩
    exact ⟨lock, s, found, (List.of_mem_zip mem).1⟩
  · rintro ⟨lock, s, found, mem⟩
    have columns : s.points.map Prod.fst = s.threads := List.map_fst_zip s.inStep.le
    rw [← columns, List.mem_map] at mem
    obtain ⟨⟨_, y⟩, inPoints, rfl⟩ := mem
    exact ⟨y, lock, s, found, inPoints, all lock s found _ inPoints⟩

end

section

variable {options : ChartSettings} {r : Results Float} {layout : Layout Float}

/-- The range of the axis is made around the least and the greatest of the drawn thread counts. -/
theorem exists_outermost_threads (made : (ofResults options r).value = .ok layout)
    (bound : ∀ t ∈ allThreads layout.lines, t < 2 ^ 32) :
    ∃ least ∈ allThreads layout.lines, ∃ greatest ∈ allThreads layout.lines,
      layout.xRange = .around (threadPosition least) (threadPosition greatest) 0.05 ∧
      ∀ t ∈ allThreads layout.lines, least ≤ t ∧ t ≤ greatest := by
  obtain ⟨-, ends, -, found, -, xRange, -⟩ := exists_extents made
  have number {t : ℕ} (mem : t ∈ allThreads layout.lines) :
      Binary64.number? (threadPosition t) = some (((t : ℚ) : ℝ) : EReal) :=
    Binary64.number?_of_toRat? (toRat?_threadPosition (bound t mem))
  have positions : (allPoints layout.lines).map (fun p => (threadPosition p.1 : Float)) =
      (allThreads layout.lines).map threadPosition := by
    rw [allThreads, List.map_map]
    rfl
  rw [positions] at found
  obtain ⟨leastMem, greatestMem, ⟨p, least, below⟩, ⟨q, greatest, above⟩⟩ :=
    isExtent_of_forall_isSome Binary64.comparesNumbers (by
      intro x mem
      obtain ⟨t, inThreads, rfl⟩ := List.mem_map.1 mem
      rw [number inThreads]
      rfl) found
  obtain ⟨l, inLeast, leftmost⟩ := List.mem_map.1 leastMem
  obtain ⟨g, inGreatest, rightmost⟩ := List.mem_map.1 greatestMem
  rw [← leftmost, number inLeast, Option.some_inj] at least
  rw [← rightmost, number inGreatest, Option.some_inj] at greatest
  refine ⟨l, inLeast, g, inGreatest, by rw [xRange, leftmost, rightmost], fun t mem => ⟨?_, ?_⟩⟩
  · have le := below _ (List.mem_map_of_mem mem) _ (number mem)
    rw [← least, EReal.coe_le_coe_iff, Rat.cast_le, Nat.cast_le] at le
    exact le
  · have le := above _ (List.mem_map_of_mem mem) _ (number mem)
    rw [← greatest, EReal.coe_le_coe_iff, Rat.cast_le, Nat.cast_le] at le
    exact le

/-- Every drawn thread count is strictly inside the range of the axis. -/
theorem inside_xRange (made : (ofResults options r).value = .ok layout)
    (bound : ∀ p, IsDrawn options.scale r p → p.1 < 2 ^ 32) {threads : ℕ}
    (drawn : threads ∈ allThreads layout.lines) :
    layout.xRange.start < threadPosition threads ∧ threadPosition threads < layout.xRange.stop := by
  have small {t : ℕ} (mem : t ∈ allThreads layout.lines) : t < 2 ^ 32 := by
    obtain ⟨y, isDrawn⟩ := (mem_allThreads_iff made).1 mem
    exact bound _ isDrawn
  obtain ⟨least, -, greatest, inGreatest, xRange, all⟩ :=
    exists_outermost_threads made fun t => small
  obtain ⟨low, high⟩ := all threads drawn
  obtain ⟨start, stop, before, after, below, above⟩ :=
    around_threads (low.trans high) (small inGreatest)
  have here := toRat?_threadPosition (small drawn)
  rw [xRange, (compare_iff_of_toRat? before here).1, (compare_iff_of_toRat? here after).1]
  exact ⟨below.trans_le (Nat.cast_le.2 low), (Nat.cast_le.2 high).trans_lt above⟩

/-- The ticks of a thread axis are picked among the thread counts of the drawn samples. Each stands
under a point and strictly inside the range of the axis, and the least and the greatest thread count
that are drawn have one. -/
structure TicksDrawn (options : ChartSettings) (r : Results Float) (layout : Layout Float) :
    Prop where
  picked : ∃ drawn : List ℕ, drawn.Pairwise (· < ·) ∧
    (∀ t, t ∈ drawn ↔ ∃ y, IsDrawn options.scale r (t, y)) ∧
    layout.xTicks = Ticks.ofThreads drawn options.threadTicks
  onPoints : ∀ t ∈ layout.xTicks, ∃ line ∈ layout.lines, ∃ y, (t, y) ∈ line.points
  outermost : ∃ least ∈ layout.xTicks, ∃ greatest ∈ layout.xTicks,
    ∀ p, IsDrawn options.scale r p → least ≤ p.1 ∧ p.1 ≤ greatest
  few : layout.xTicks.length ≤ options.threadTicks + 1
  /-- Thread counts are 32-bit numbers. -/
  inside : (∀ p, IsDrawn options.scale r p → p.1 < 2 ^ 32) → ∀ t ∈ layout.xTicks,
    layout.xRange.start < threadPosition t ∧ threadPosition t < layout.xRange.stop
  unmasked : (∀ lock s, r.find? lock = some s → ∀ p ∈ s.points, options.scale.admits p.2 = true) →
    layout.xTicks = Ticks.ofThreads r.threadCounts options.threadTicks

theorem ticksDrawn (made : (ofResults options r).value = .ok layout)
    (positive : 0 < options.threadTicks) : TicksDrawn options r layout := by
  have found := ofLines?_of_made made
  obtain ⟨-, -, lines, -, ticks⟩ := parts_of_ofLines? found
  rw [← lines] at ticks
  have ascending := ThreadCounts.pairwise_ascending (allThreads layout.lines)
  have nonempty : ThreadCounts.ascending (allThreads layout.lines) ≠ [] := by
    intro empty
    have nowhere : allThreads layout.lines = [] :=
      List.eq_nil_iff_forall_not_mem.2 fun t mem => by
        simpa [empty] using ThreadCounts.mem_ascending.2 mem
    have notMade : ofLines? options r.title (linesOf options.scale r) = none :=
      ofLines?_eq_none_iff_allThreads.2 (lines ▸ nowhere)
    rw [found] at notMade
    cases notMade
  obtain ⟨sublist, first, last, few⟩ := Ticks.ofThreads_ends positive ascending
  rw [← ticks] at sublist first last few
  have drawn_of_mem {t : ℕ} (mem : t ∈ layout.xTicks) : t ∈ allThreads layout.lines :=
    ThreadCounts.mem_ascending.1 (sublist.mem mem)
  refine
    { picked := ⟨_, ascending, ?drawn, ticks⟩
      onPoints := ?onPoints
      outermost := ?outermost
      few
      inside := fun bound t mem => inside_xRange made bound (drawn_of_mem mem)
      unmasked := fun all => ascending_allThreads made all ▸ ticks }
  case drawn =>
    intro t
    rw [ThreadCounts.mem_ascending, mem_allThreads_iff made]
  case onPoints =>
    intro t mem
    obtain ⟨⟨_, y⟩, inPoints, rfl⟩ := List.mem_map.1 (drawn_of_mem mem)
    obtain ⟨line, inLines, inLine⟩ := List.mem_flatMap.1 inPoints
    exact ⟨line, inLines, y, inLine⟩
  case outermost =>
    obtain ⟨least, inLeast, greatest, inGreatest, all⟩ :=
      Ticks.exists_ends ascending nonempty first last
    refine ⟨least, inLeast, greatest, inGreatest, fun p drawn => all p.1 ?_⟩
    rw [ThreadCounts.mem_ascending, mem_allThreads_iff made]
    exact ⟨p.2, drawn⟩

/-- The ticks of the thread axis are picked among the thread counts that are drawn. If none are
asked for, there are none, and nothing else about the layout changes. -/
theorem xTicks_ofResults (made : (ofResults options r).value = .ok layout) :
    (0 < options.threadTicks → TicksDrawn options r layout) ∧
    (ofResults { options with threadTicks := 0 } r).value = .ok { layout with xTicks := [] } := by
  refine ⟨ticksDrawn made, ?hidden⟩
  have found := ofLines?_threadTicks (ofLines?_of_made made) 0
  rw [Ticks.ofThreads, if_pos rfl] at found
  simp only [ofResults, found]

/-- Two ticks for the three thread counts that are drawn. The largest one of the samples is masked
and has none. -/
theorem xTicks_ofResults_masked :
    let options := { ChartSettings.standard with threadTicks := 2 }
    let r : Results Float :=
      .ofSamples [⟨"A", 1, 1.0, none⟩, ⟨"B", 3, 100.0, none⟩, ⟨"A", 2, 10.0, none⟩,
        ⟨"A", 16, 0.0, none⟩]
    0 < options.threadTicks ∧ (∀ p, IsDrawn options.scale r p → p.1 < 2 ^ 32) ∧
      ∃ layout : Layout Float, (ofResults options r).value = .ok layout ∧
        TicksDrawn options r layout ∧ layout.xTicks = [1, 3] ∧
        (∀ t ∈ layout.xTicks, layout.xRange.start < threadPosition t ∧
          threadPosition t < layout.xRange.stop) ∧
        (ofResults { options with threadTicks := 0 } r).value =
          .ok { layout with xTicks := [] } := by
  intro options r
  have drawn_iff {t : ℕ} : (∃ y, IsDrawn options.scale r (t, y)) ↔ t = 1 ∨ t = 3 ∨ t = 2 := by
    have placed : Scale.log.admits (1.0 : Float) = true ∧ Scale.log.admits (100.0 : Float) = true ∧
        Scale.log.admits (10.0 : Float) = true ∧ Scale.log.admits (0.0 : Float) = false := by
      decide +kernel
    simp only [r, isDrawn_ofSamples_iff, options, ChartSettings.standard]
    constructor
    · rintro ⟨y, s, mem, admitted, same⟩
      simp only [List.mem_cons, List.not_mem_nil, or_false] at mem
      obtain rfl | rfl | rfl | rfl := mem <;> simp_all
    · rintro (rfl | rfl | rfl) <;> simp [placed]
  have bound : ∀ p, IsDrawn options.scale r p → p.1 < 2 ^ 32 := by
    intro p drawn
    have known := drawn_iff.1 ⟨p.2, drawn⟩
    omega
  obtain ⟨layout, made⟩ : ∃ layout, (ofResults options r).value = .ok layout := by
    obtain ⟨y, drawn⟩ := drawn_iff.2 (.inl rfl)
    exact exists_layout_of_isDrawn drawn
  obtain ⟨ticked, hidden⟩ := xTicks_ofResults made
  have drawn := ticked two_pos
  have ticks : layout.xTicks = [1, 3] := by
    obtain ⟨counts, ascending, mem_iff, picked⟩ := drawn.picked
    have known : counts = [1, 2, 3] := by
      refine ascending.eq_of_mem_iff (by decide) fun t => ?_
      rw [mem_iff, drawn_iff]
      simp only [List.mem_cons, List.not_mem_nil, or_false]
      omega
    rw [picked, known]
    decide
  exact ⟨two_pos, bound, layout, made, drawn, ticks, drawn.inside bound, hidden⟩

end

end ContentionChart.Layout
