import ContentionChart.Proofs.DecadeTicks
import ContentionChart.Proofs.DoubleLogarithms

/-!
# Places of powers of ten, as doubles

On the symmetric scale the powers of ten that doubles have are placed in their order, those of
negative powers mirrored at zero. What is past the largest double has its place at infinity.

## Main definitions

* `Binary64.place` — where a double stands in the order of numbers.

## Main statements

* `Binary64.mirrored` — the place of a negated power of ten.
* `Binary64.ordered_symmetricPlaces` — the places are in order.
-/

namespace ContentionChart.Binary64

open ChartNumber Ticks

variable {x y z : Float} {p q : ℚ} {k : ℕ}

/-! ## Places in the order of numbers -/

/-- Where a double stands in the order of numbers. What stands for none is put at zero. -/
noncomputable def place (x : Float) : EReal := (number? x).getD 0

theorem place_of_number? {a : EReal} (number : number? x = some a) : place x = a := by
  rw [place, number, Option.getD_some]

theorem place_le_place (le : x ≤ y) : place x ≤ place y := by
  obtain ⟨a, b, hx, hy, le⟩ := le_iff.1 le
  rwa [place_of_number? hx, place_of_number? hy]

theorem place_lt_place (lt : x < y) : place x < place y := by
  obtain ⟨a, b, hx, hy, lt⟩ := lt_iff.1 lt
  rwa [place_of_number? hx, place_of_number? hy]

theorem le_of_double_lt (lt : x < y) : x ≤ y := by
  obtain ⟨a, b, hx, hy, lt⟩ := lt_iff.1 lt
  exact le_iff.2 ⟨a, b, hx, hy, lt.le⟩

theorem le_trans_of_le (le : x ≤ y) (le' : y ≤ z) : x ≤ z := by
  obtain ⟨a, b, hx, hy, below⟩ := le_iff.1 le
  obtain ⟨b', c, hy', hz, above⟩ := le_iff.1 le'
  obtain rfl : b = b' := Option.some_inj.1 (hy.symm.trans hy')
  exact le_iff.2 ⟨a, c, hx, hz, below.trans above⟩

theorem le_or_le (hx : (number? x).isSome) (hy : (number? y).isSome) : x ≤ y ∨ y ≤ x := by
  obtain ⟨a, ha⟩ := Option.isSome_iff_exists.1 hx
  obtain ⟨b, hb⟩ := Option.isSome_iff_exists.1 hy
  exact (le_total a b).imp (fun le => le_iff.2 ⟨a, b, ha, hb, le⟩)
    fun le => le_iff.2 ⟨b, a, hb, ha, le⟩

/-- Doubles that stand for numbers compare as their places do. -/
theorem comparedBy_place {xs : List Float} (numbers : ∀ x ∈ xs, (number? x).isSome) :
    ComparedBy place xs := by
  intro x hx y hy
  obtain ⟨a, ha⟩ := Option.isSome_iff_exists.1 (numbers x hx)
  obtain ⟨b, hb⟩ := Option.isSome_iff_exists.1 (numbers y hy)
  rw [le_iff, place_of_number? ha, place_of_number? hb, ha, hb]
  simp

/-! ## Distances from zero -/

/-- What the logarithm is taken of. -/
theorem exists_shifted (number : toRat? y = some q) (moderate : 1 + |q| < 2 ^ 1023) :
    ∃ s, toRat? (1.0 + ChartNumber.abs y / Scale.linearThreshold) = some s ∧
      IsNearest (1 + |q|) s := by
  have one := toRat?_literal_one
  have unit : toRat? (Scale.linearThreshold : Float) = some 1 := one
  have size : toRat? (ChartNumber.abs y) = some |q| := toRat?_abs number
  have quotient : toRat? (ChartNumber.abs y / Scale.linearThreshold) = some |q| := by
    have double : IsDouble (|q| / 1) := by
      rw [div_one]
      exact ⟨_, size⟩
    have exact := toRat?_of_isDouble (number?_div size unit one_ne_zero) double
    rwa [div_one] at exact
  refine exists_nearest (number?_add one quotient) ?_
  rwa [abs_of_pos (by positivity)]

/-- Throughputs that are nine times apart are in order. -/
theorem distance_le_distance (hy : toRat? y = some p) (hz : toRat? z = some q) (low : 9 ≤ p)
    (apart : 9 * p ≤ q) (moderate : 1 + q < 2 ^ 1023) : Scale.distance y ≤ Scale.distance z := by
  have size : |p| = p := abs_of_nonneg (by linarith)
  have size' : |q| = q := abs_of_nonneg (by linarith)
  have le : 1 + p ≤ 1 + q := by linarith
  have moderate' := le.trans_lt moderate
  obtain ⟨s, shifted, nearest⟩ := exists_shifted hy (by rwa [size])
  obtain ⟨t, shifted', nearest'⟩ := exists_shifted hz (by rwa [size'])
  rw [size] at nearest
  rw [size'] at nearest'
  have near := abs_le.1 (nearest.abs_sub_le (by linarith) moderate')
  have near' := abs_le.1 (nearest'.abs_sub_le (by linarith) moderate)
  norm_num at near near'
  exact log10_le_log10 shifted shifted' (by linarith) (by linarith)

/-! ## Positions on both sides of zero -/

theorem signum_of_pos (number : toRat? y = some q) (positive : 0 < q) : signum y = 1.0 := by
  obtain ⟨negative, m, e, reading, rfl⟩ := toRat?_eq_some_iff.1 number
  have sign := (value_spec positive.ne').2.1
  rw [decide_eq_false positive.not_gt] at sign
  simp [signum, isNegative, reading, ← sign]

theorem signum_of_neg (number : toRat? y = some q) (negative : q < 0) : signum y = -1.0 := by
  obtain ⟨negative', m, e, reading, rfl⟩ := toRat?_eq_some_iff.1 number
  have sign := (value_spec negative.ne).2.1
  rw [decide_eq_true negative] at sign
  simp [signum, isNegative, reading, ← sign]

theorem abs_neg_double (number : toRat? y = some q) : Float.abs (-y) = Float.abs y := by
  obtain ⟨negative, m, e, reading, -⟩ := toRat?_eq_some_iff.1 number
  have left := read_abs (read_neg reading)
  have right := read_abs reading
  rw [(read_eq_finite_iff.1 left).2, (read_eq_finite_iff.1 right).2]

/-- A positive throughput is placed at its distance from zero, and the negated one as far on the
other side. -/
theorem positions_of_pos {l : ℚ} (number : toRat? y = some q) (positive : 0 < q)
    (distance : toRat? (Scale.distance y) = some l) :
    toRat? (Scale.symlog.position y) = some l ∧
      toRat? (Scale.symlog.position (-y)) = some (-l) := by
  have double : IsDouble l := ⟨_, distance⟩
  have one := toRat?_literal_one
  have minus : toRat? (-1.0) = some (-1) := toRat?_neg toRat?_literal_one
  constructor
  · have position : Scale.symlog.position y = 1.0 * Scale.distance y := by
      rw [← signum_of_pos number positive]
      rfl
    have product := number?_mul one distance
    rw [one_mul] at product
    rw [position]
    exact toRat?_of_isDouble product double
  · have position : Scale.symlog.position (-y) = -1.0 * Scale.distance y := by
      rw [← signum_of_neg (toRat?_neg number) (neg_neg_of_pos positive), Scale.distance]
      change _ = _ * log10 (1.0 + Float.abs y / _)
      rw [← abs_neg_double number]
      rfl
    have product := number?_mul minus distance
    rw [neg_one_mul] at product
    rw [position]
    exact toRat?_of_isDouble product double.neg

/-! ## Powers of ten -/

theorem number?_infinity_true : number? (infinity true) = some ⊥ := by
  have reading : read (infinity true) = .infinite true := rfl
  rw [number?, reading]
  rfl

theorem position_infinity : Scale.symlog.position (infinity false) = infinity false ∧
    Scale.symlog.position (-infinity false) = infinity true :=
  ⟨rfl, rfl⟩

-- The bounds above are too wide next to zero and next to the largest double.

theorem positions_around_zero :
    Scale.symlog.position (0.0 : Float) = 0.0 ∧
    -1.0 ≤ Scale.symlog.position (-exp10 (ofInt (0 : ℕ))) ∧
    Scale.symlog.position (-exp10 (ofInt (0 : ℕ))) < 0.0 ∧
    0.0 < Scale.symlog.position (exp10 (ofInt (0 : ℕ))) ∧
    Scale.symlog.position (exp10 (ofInt (0 : ℕ))) ≤ 1.0 ∧
    1.0 ≤ Scale.symlog.position (exp10 (ofInt (1 : ℕ))) := by
  decide +kernel

theorem positions_of_last :
    Scale.symlog.position (exp10 (ofInt (307 : ℕ))) ≤
      Scale.symlog.position (exp10 (ofInt (308 : ℕ))) ∧
    Scale.symlog.position (exp10 (ofInt (308 : ℕ))) ≤ infinity false ∧
    (toRat? (Scale.symlog.position (exp10 (ofInt (308 : ℕ))))).isSome = true ∧
    toRat? (Scale.symlog.position (-exp10 (ofInt (308 : ℕ)))) =
      (toRat? (Scale.symlog.position (exp10 (ofInt (308 : ℕ))))).map (-·) := by
  decide +kernel

/-- The powers of ten up to the 307th are placed at their distances from zero. -/
theorem exists_position (small : k ≤ 307) :
    ∃ l, toRat? (Scale.distance (exp10 (ofInt k))) = some l ∧
      toRat? (Scale.symlog.position (exp10 (ofInt k))) = some l ∧
      toRat? (Scale.symlog.position (-exp10 (ofInt k))) = some (-l) := by
  obtain ⟨q, number, near, moderate⟩ := exists_exp10 small
  have positive : 0 < q := by
    have power : (0 : ℚ) < 10 ^ k := by positivity
    linarith [abs_le.1 near]
  obtain ⟨s, shifted, nearest⟩ := exists_shifted number (by rwa [abs_of_pos positive])
  have one : IsNearest 1 1 := .refl ⟨1.0, toRat?_literal_one⟩
  have above := one.mono nearest (le_add_of_nonneg_right (abs_nonneg q))
  obtain ⟨l, distance, -⟩ := exists_log10 shifted (one_pos.trans_le above)
  exact ⟨l, distance, positions_of_pos number positive distance⟩

/-- The place of a negated power of ten is mirrored at zero. -/
theorem mirrored (bound : k < 2 * fractionCount) :
    ∃ a, number? (Scale.symlog.position (exp10 (ofInt k))) = some a ∧
      number? (Scale.symlog.position (-exp10 (ofInt k))) = some (-a) := by
  have finite {l : ℚ} (above : toRat? (Scale.symlog.position (exp10 (ofInt k))) = some l)
      (below : toRat? (Scale.symlog.position (-exp10 (ofInt k))) = some (-l)) :
      ∃ a, number? (Scale.symlog.position (exp10 (ofInt k))) = some a ∧
        number? (Scale.symlog.position (-exp10 (ofInt k))) = some (-a) :=
    ⟨_, number?_of_toRat? above, by rw [number?_of_toRat? below]; simp⟩
  obtain small | rfl | large : k ≤ 307 ∨ k = 308 ∨ 309 ≤ k := by omega
  · obtain ⟨l, -, above, below⟩ := exists_position small
    exact finite above below
  · obtain ⟨-, -, number, negated⟩ := positions_of_last
    obtain ⟨l, above⟩ := Option.isSome_iff_exists.1 number
    exact finite above (by rw [negated, above]; rfl)
  · rw [exp10_of_large large bound, position_infinity.1, position_infinity.2]
    exact ⟨⊤, number?_infinity, number?_infinity_true⟩

/-- The place of the next power of ten is not before that of a power of ten. -/
theorem place_le_place_succ (bound : k + 1 < 2 * fractionCount) :
    place (Scale.symlog.position (exp10 (ofInt k))) ≤
      place (Scale.symlog.position (exp10 (ofInt (k + 1 : ℕ)))) := by
  obtain rfl | ⟨low, high⟩ | rfl | rfl | large :
    k = 0 ∨ (1 ≤ k ∧ k ≤ 306) ∨ k = 307 ∨ k = 308 ∨ 309 ≤ k := by omega
  · obtain ⟨-, -, -, -, first, second⟩ := positions_around_zero
    exact place_le_place (le_trans_of_le first second)
  · -- There are nine times between them, with rounding too.
    have small : k ≤ 307 := high.trans (by decide)
    have small' : k + 1 ≤ 307 := Nat.succ_le_succ high
    obtain ⟨p, number, near, -⟩ := exists_exp10 small
    obtain ⟨q, number', near', moderate⟩ := exists_exp10 small'
    obtain ⟨l, distance, position, -⟩ := exists_position small
    obtain ⟨l', distance', position', -⟩ := exists_position small'
    have ten : (10 : ℚ) ≤ 10 ^ k := le_self_pow₀ (by norm_num) (by omega)
    obtain ⟨below, above⟩ := abs_le.1 near
    obtain ⟨below', above'⟩ := abs_le.1 near'
    rw [pow_succ] at below' above'
    norm_num at above below'
    have ordered := distance_le_distance number number' (by linarith) (by linarith) moderate
    rw [(compare_iff_of_toRat? distance distance').2] at ordered
    exact place_le_place ((compare_iff_of_toRat? position position').2.2 ordered)
  · exact place_le_place positions_of_last.1
  · rw [exp10_of_large (k := 309) le_rfl bound, position_infinity.1]
    exact place_le_place positions_of_last.2.1
  · rw [exp10_of_large large (by omega), exp10_of_large (by omega) bound]

/-- The places of zero and the powers of ten are in order, on both sides of zero. -/
theorem ordered_symmetricPlaces {top : ℕ} (bound : top < 2 * fractionCount) :
    (Scale.symmetricPowers top : List Float).Pairwise fun a b =>
      place (Scale.symlog.position a) ≤ place (Scale.symlog.position b) := by
  have ascending (j k : ℕ) (le : j ≤ k) (le_top : k ≤ top) :
      place (Scale.symlog.position (exp10 (ofInt j))) ≤
        place (Scale.symlog.position (exp10 (ofInt k))) := by
    induction k, le using Nat.le_induction with
    | base => exact le_rfl
    | succ k _ ih => exact (ih (by omega)).trans (place_le_place_succ (by omega))
  have mirrored_place {k : ℕ} (le_top : k ≤ top) :
      place (Scale.symlog.position (-exp10 (ofInt k))) =
        -place (Scale.symlog.position (exp10 (ofInt k))) := by
    obtain ⟨a, above, below⟩ := mirrored (le_top.trans_lt bound)
    rw [place_of_number? above, place_of_number? below]
  have descending (j k : ℕ) (le : j ≤ k) (le_top : k ≤ top) :
      place (Scale.symlog.position (-exp10 (ofInt k))) ≤
        place (Scale.symlog.position (-exp10 (ofInt j))) := by
    rw [mirrored_place le_top, mirrored_place (le.trans le_top), EReal.neg_le_neg_iff]
    exact ascending j k le le_top
  obtain ⟨origin, -, below, above, -⟩ := positions_around_zero
  refine Scale.ordered_symmetricPowers ascending descending ?below ?above
  case below => exact (place_lt_place (below.trans_eq origin.symm)).le
  case above => exact (place_lt_place (origin.trans_lt above)).le

end ContentionChart.Binary64
