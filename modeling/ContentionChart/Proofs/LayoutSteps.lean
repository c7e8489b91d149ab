import ContentionChart.Proofs.ThreadAxis
import ContentionChart.Proofs.TickLabels

/-!
# Steps of a layout in 64 bits

A layout is computed with 64-bit numbers, where a difference may be negative, a sum too large and a
divisor or a stride zero. None of this happens for results that were read or inserted, whatever is
chosen about the chart. No lock has more drawn points than points, strides are computed only for
lists that are longer than the limit and have something in them, and there are at most as many
thread counts and powers of ten as there are 32-bit numbers.

## Main definitions

* `Results.Reached` — results that were read, or into which samples were inserted.
* `Results.ThreadsFit` — all thread counts are 32-bit numbers.
* `Layout.ofResults?` — the layout of some results, unless a step on the way to it fails.

## Main statements

* `Results.Reached.threadsFit` — the thread counts of reached results.
* `Scale.length_decades_lt` — the number of powers of ten in a range.
* `Layout.ofResults?_eq_some` — no step fails.
-/

namespace ContentionChart

open ChartNumber Ticks

/-! ## Reached results -/

/-- The results in a table, results without any sample, and those with a sample inserted. -/
inductive Results.Reached : Results Float → Prop
  | empty : Reached .empty
  | read {table : Csv.Table} {r : Results Float} (read : (ofTable table).value = .ok r) : Reached r
  | insert {r : Results Float} {s : Sample Float} (reached : Reached r)
      (bound : s.threads < 2 ^ 32) : Reached (r.insert s)

namespace Results

/-- All thread counts are 32-bit numbers. -/
def ThreadsFit {α : Type} (r : Results α) : Prop :=
  ∀ lock series, r.find? lock = some series → ∀ p ∈ series.points, p.1 < 2 ^ 32

theorem ThreadsFit.insert {α : Type} {r : Results α} {s : Sample α} (fit : r.ThreadsFit)
    (bound : s.threads < 2 ^ 32) : (r.insert s).ThreadsFit := by
  intro lock series found p mem
  rcases eq_or_ne lock s.lock with rfl | other
  case inr => exact fit lock series (find?_insert_of_ne r other ▸ found) p mem
  case inl =>
    rw [find?_insert_self, Option.some_inj] at found
    subst found
    rw [Series.points_push, List.mem_append, List.mem_singleton] at mem
    rcases mem with earlier | rfl
    · cases old : r.find? s.lock with
      | none => simp [old] at earlier
      | some series => exact fit s.lock series old p (by simpa [old] using earlier)
    · exact bound

theorem threadsFit_of_ofTable {table : Csv.Table} {r : Results Float}
    (read : (ofTable table).value = .ok r) : r.ThreadsFit := by
  obtain ⟨header, samples, -, accepted, -, rfl⟩ := exists_accepted_of_value_ofTable_eq_ok read
  refine (holds_ofSamples samples).sorted.forall_points_iff.2 fun s mem => ?_
  obtain ⟨-, -, fields, -, measures⟩ := accepted.exists_of_mem mem
  obtain ⟨text, -, count⟩ := measures.threads
  exact lt_of_threadCount? count

theorem Reached.threadsFit {r : Results Float} (reached : r.Reached) : r.ThreadsFit := by
  induction reached with
  | empty => nofun
  | read read => exact threadsFit_of_ofTable read
  | insert _ bound ih => exact ih.insert bound

end Results

/-! ## Lengths -/

/-- There are no more distinct numbers than there are below a bound. -/
theorem ThreadCounts.length_ascending_le {ns : List ℕ} {bound : ℕ} (below : ∀ n ∈ ns, n < bound) :
    (ascending ns).length ≤ bound := by
  have distinct : (ascending ns).Nodup := (pairwise_ascending ns).imp fun lt => ne_of_lt lt
  have within : ascending ns ⊆ List.range bound := fun n mem =>
    List.mem_range.2 (below n (mem_ascending.1 mem))
  simpa using (distinct.subperm within).length_le

namespace Scale

theorem length_symmetricPowers (top : ℕ) :
    (symmetricPowers top : List Float).length = 2 * top + 3 := by
  simp [symmetricPowers]
  omega

/-- Whole numbers on the logarithmic scale and exponents on the symmetric one have 32 bits. -/
theorem length_decades_lt (scale : Scale) (lo hi : Float) :
    (scale.decades lo hi).length < 2 ^ 63 := by
  cases scale with
  | linear => simp [decades]
  | log =>
    have first := (Binary64.toInt32_bounds (ChartNumber.ceil lo)).1
    have last := (Binary64.toInt32_bounds (ChartNumber.floor hi)).2
    simp only [decades, List.length_map, length_integers]
    omega
  | symlog =>
    have top : topExponent lo hi ≤ 0x7fffffff := by
      unfold topExponent
      exact Int.toNat_le.2 (Binary64.toInt32_bounds _).2
    calc (decades symlog lo hi).length
      _ ≤ (symmetricPowers (topExponent lo hi) : List Float).length :=
        (dropRepeats_sublist _).length_le.trans
          ((List.length_filter_le _ _).trans (List.length_map _).le)
      _ = 2 * topExponent lo hi + 3 := length_symmetricPowers _
      _ < 2 ^ 63 := by omega

end Scale

/-! ## Steps that may fail -/

variable {α : Type} [ChartNumber α] {scale : Scale} {lo hi : α}

/-- The ticks of a throughput axis, unless a step on the way to them fails. -/
def Scale.ticks? (scale : Scale) (lo hi : α) : Option (List α) :=
  let decades := scale.decades lo hi
  if 2 ≤ decades.length then do
    let stride ← strideFor? decades.length throughputTarget
    everyNth? stride decades
  else some (regular lo hi throughputTarget)

theorem Scale.ticks?_eq_some (short : (scale.decades lo hi).length < 2 ^ 63) :
    scale.ticks? lo hi = some (scale.ticks lo hi) := by
  by_cases several : 2 ≤ (scale.decades lo hi).length
  · have target : 0 < throughputTarget := by decide
    have fits : (scale.decades lo hi).length + throughputTarget < 2 ^ 64 := by
      unfold throughputTarget
      omega
    have stride := strideFor_pos target (two_pos.trans_le several)
    simp [Scale.ticks?, several, Scale.ticks_of_several several, strideFor?_eq_some target fits,
      everyNth?_eq_some stride]
  · simp [Scale.ticks?, Scale.ticks, several]

namespace Layout

/-- The report on the masked points of a lock, if it has any, unless their number is negative. -/
def maskedReport? (scale : Scale) (e : String × Series α) : Option (Option Event) := do
  let masked ← difference? e.2.size (placed scale e.2).length
  some (if 0 < masked then some (.masked e.1 masked scale) else none)

/-- The layout of some lines, if there is a point on them, unless a step on the way to it fails. -/
def stepsOfLines? (options : ChartSettings) (title : String) (lines : List (Line α)) :
    Option (Option (Layout α)) :=
  let points := allPoints lines
  match extent? (points.map fun p => (threadPosition p.1 : α)), extent? (points.map Prod.snd) with
  | some (xLeast, xGreatest), some (yLeast, yGreatest) => do
    let xRange := Interval.around xLeast xGreatest 0.05
    let yRange := Interval.around yLeast yGreatest 0.1
    let xTicks ← Ticks.ofThreads? (ThreadCounts.ascending (points.map Prod.fst)) options.threadTicks
    let yTicks ← options.scale.ticks? yRange.start yRange.stop
    some (some { title, scale := options.scale, xRange, yRange, xTicks, yTicks, lines })
  | _, _ => some none

/-- The layout of some results, and what is reported, unless a step on the way fails. -/
def ofResults? (options : ChartSettings) (r : Results α) :
    Option (Logged (Except Failure (Layout α))) := do
  let reports ← r.series.entries.mapM (maskedReport? options.scale)
  let layout? ← stepsOfLines? options r.title (linesOf options.scale r)
  some
    { events := reports.reduceOption
      value :=
        match layout? with
        | some layout => .ok layout
        | none => .error .noData }

variable {options : ChartSettings} {title : String} {lines : List (Line α)}

/-- A lock does not have more drawn points than points. -/
theorem maskedReport?_eq_some (scale : Scale) (e : String × Series α) :
    maskedReport? scale e = some (maskedEvent? scale e) := by
  have drawn : (placed scale e.2).length ≤ e.2.size :=
    Nat.le.intro (length_placed_add_maskedCount scale e.2)
  simp [maskedReport?, maskedEvent?, difference?, drawn]

theorem stepsOfLines?_eq_some (few : ∀ t ∈ allThreads lines, t < 2 ^ 32)
    (short : ∀ lo hi : α, (options.scale.decades lo hi).length < 2 ^ 63) :
    stepsOfLines? options title lines = some (ofLines? options title lines) := by
  have count : (ThreadCounts.ascending (allThreads lines)).length < 2 ^ 63 :=
    (ThreadCounts.length_ascending_le few).trans_lt (by decide)
  have xTicks := Ticks.ofThreads?_eq_some count options.threadTicks
  rw [allThreads] at xTicks
  unfold stepsOfLines? ofLines?
  cases hx : extent? ((allPoints lines).map fun p => (threadPosition p.1 : α)) with
  | none => simp [hx]
  | some x =>
    cases hy : extent? ((allPoints lines).map Prod.snd) with
    | none => simp [hx, hy]
    | some y => simp [hx, hy, xTicks, Scale.ticks?_eq_some (short _ _)]

theorem allThreads_lt {r : Results α} (fit : r.ThreadsFit) :
    ∀ t ∈ allThreads (linesOf scale r), t < 2 ^ 32 := by
  intro t mem
  obtain ⟨_, inPoints, rfl⟩ := List.mem_map.1 mem
  obtain ⟨line, inLines, inLine⟩ := List.mem_flatMap.1 inPoints
  obtain ⟨s, found, points, -⟩ := mem_linesOf_iff.1 inLines
  rw [points, placed, List.mem_map] at inLine
  obtain ⟨p, inSeries, rfl⟩ := inLine
  exact fit _ s found p (List.mem_of_mem_filter inSeries)

/-- No step on the way to a layout fails. -/
theorem ofResults?_eq_some {r : Results Float} (reached : r.Reached) (options : ChartSettings) :
    ofResults? options r = some (ofResults options r) := by
  have reports : r.series.entries.mapM (maskedReport? options.scale) =
      some (r.series.entries.map (maskedEvent? options.scale)) := by
    rw [funext (maskedReport?_eq_some options.scale)]
    exact List.mapM_pure
  have steps : stepsOfLines? options r.title (linesOf options.scale r) =
      some (ofLines? options r.title (linesOf options.scale r)) :=
    stepsOfLines?_eq_some (allThreads_lt reached.threadsFit) (Scale.length_decades_lt options.scale)
  have events : (r.series.entries.map (maskedEvent? options.scale)).reduceOption =
      maskedEvents options.scale r := by simp [List.reduceOption, maskedEvents]
  simp only [ofResults?, reports, steps, Option.bind_eq_bind, Option.bind_some, events]
  rfl

/-- Thread counts that are hidden, thinned or all ticked, and one sample that is masked. -/
theorem ofResults?_eq_some_masked :
    let options (limit : ℕ) := { ChartSettings.standard with threadTicks := limit }
    let r : Results Float :=
      ((Results.empty.insert ⟨"A", 1, 250.0, none⟩).insert ⟨"A", 4294967295, 20.0, none⟩).insert
        ⟨"A", 7, 0.0, none⟩
    r.Reached ∧ ∀ limit ∈ [0, 1, 2 ^ 64 - 1],
      ofResults? (options limit) r = some (ofResults (options limit) r) ∧
        (ofResults (options limit) r).events = [.masked "A" 1 .log] := by
  intro options r
  have reached : r.Reached :=
    .insert (.insert (.insert .empty (by decide)) (by decide)) (by decide)
  have masked : maskedEvents .log r = [.masked "A" 1 .log] := by decide +kernel
  exact ⟨reached, fun limit _ => ⟨ofResults?_eq_some reached (options limit), masked⟩⟩

end Layout

end ContentionChart
