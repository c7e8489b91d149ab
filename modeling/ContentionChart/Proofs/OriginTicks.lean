import ContentionChart.Proofs.DoublePlaces
import ContentionChart.Proofs.WholeDoubles

/-!
# The tick at zero

An axis on the symmetric scale that spans zero is ticked at zero wherever regular ticks are used.
Where the ticks stand at powers of ten, zero is one of the candidates and is thinned out like all
others. This is so for the doubles that charts are computed with, infinite ends included, and for
numbers that are rounded in any other way.

## Main statements

* `Binary64.exists_zero_mem_regular` — regular ticks of doubles around zero.
* `Scale.zero_mem_ticks_symlog_iff` — when zero is ticked.
-/

namespace ContentionChart

open ChartNumber Ticks

namespace Binary64

variable {c x y : Float} {p q r : ℚ} {target : ℕ}

/-! ## Steps -/

/-- A double that has no sign and is not above a bound, such as a step between ticks. A step that is
too small for any other double is zero. -/
def IsStep (bound : ℕ) (x : Float) : Prop :=
  ∃ m e, read x = .finite false m e ∧ magnitude m e ≤ bound

/-- The double nearest to a number that is not negative has no sign. -/
theorem isStep_ofRat {bound : ℕ} (nonneg : 0 ≤ q) (le : q ≤ bound)
    (short : bound < 2 * fractionCount) : IsStep bound (ofRat q) := by
  rcases nonneg.eq_or_lt with rfl | positive
  · have reading : read (zero false) = .finite false 0 (-1074) := rfl
    exact ⟨0, -1074, by rw [ofRat_zero, reading], by simp [magnitude]⟩
  have double : ofRat q = ofMagnitudeBits false (magnitudeBits q) := ofRat_signed false positive
  have moderate : |q| < 2 ^ 1023 := by
    rw [abs_of_pos positive]
    calc q ≤ bound := le
      _ < 2 ^ 53 := by exact_mod_cast short
      _ ≤ 2 ^ 1023 := pow_le_pow_right₀ one_le_two (by decide)
  obtain ⟨t, number, nearest⟩ := exists_nearest rfl moderate
  rcases magnitudeBits_spec positive with infinite | ⟨m, e, canonical, bits, -, -⟩
  · rw [double, infinite, ← infinity, toRat?_infinity] at number
    cases number
  · have reading : read (ofRat q) = .finite false m e :=
      read_eq_finite_iff.2 ⟨canonical, by rw [double, bits]⟩
    have same : t = magnitude m e := by
      exact Option.some_inj.1 (number.symm.trans (toRat?_of_read reading))
    refine ⟨m, e, reading, ?_⟩
    rw [← same]
    exact nearest.mono (.refl (isDouble_natCast short)) le

theorem IsStep.mul {a b : ℕ} (hx : IsStep a x) (hy : IsStep b y)
    (short : a * b < 2 * fractionCount) : IsStep (a * b) (x * y) := by
  obtain ⟨m, e, reading, le⟩ := hx
  obtain ⟨n, f, reading', le'⟩ := hy
  rcases Nat.eq_zero_or_pos m with rfl | positive
  · rw [mul_of_zero reading reading' (.inl rfl), Bool.false_xor, ← ofRat_zero]
    exact isStep_ofRat le_rfl (Nat.cast_nonneg _) short
  rcases Nat.eq_zero_or_pos n with rfl | positive'
  · rw [mul_of_zero reading reading' (.inr rfl), Bool.false_xor, ← ofRat_zero]
    exact isStep_ofRat le_rfl (Nat.cast_nonneg _) short
  · rw [mul_of_pos reading reading' positive positive']
    refine isStep_ofRat (mul_nonneg (magnitude_nonneg m e) (magnitude_nonneg n f)) ?_ short
    rw [Nat.cast_mul]
    exact mul_le_mul le le' (magnitude_nonneg n f) (Nat.cast_nonneg a)

/-- The power of ten at the head of a double that is not above one. -/
theorem isStep_leadingPower (number : toRat? x = some q) (nonneg : 0 ≤ q) (small : q ≤ 1) :
    IsStep 10 (exp10 (floor (log10 x))) := by
  rcases nonneg.eq_or_lt with rfl | positive
  · -- The logarithm of zero is infinite.
    obtain ⟨negative, m, e, reading, noSize⟩ := toRat?_eq_some_iff.1 number
    have none : m = 0 := by
      by_contra some
      have size := magnitude_pos e some
      cases negative <;> simp [value] at noSize <;> linarith
    have infinite : log10 x = infinity true := by simp [log10, reading, none]
    have step : exp10 (floor (infinity true)) = zero false := rfl
    rw [infinite, step, ← ofRat_zero]
    exact isStep_ofRat le_rfl (by norm_num) (by decide)
  · obtain ⟨l, log, low, high⟩ := exists_log10_of_le_one number positive small
    have least : -1076 ≤ l.floor := Rat.le_floor_iff.2 (by exact_mod_cast low)
    have greatest : l.floor ≤ 1 := by
      have below := (Rat.floor_le l).trans high
      exact_mod_cast below
    have whole : toRat? (floor (log10 x)) = some (l.floor : ℚ) :=
      toRat?_toWhole log (by rw [fractionCount]; omega)
    rw [exp10_of_whole whole]
    split
    · rw [← ofRat_zero]
      exact isStep_ofRat le_rfl (by norm_num) (by decide)
    · rw [if_neg (by omega)]
      refine isStep_ofRat (by positivity) ?_ (by decide)
      calc (10 : ℚ) ^ l.floor ≤ 10 ^ (1 : ℤ) := zpow_le_zpow_right₀ (by norm_num) greatest
        _ = (10 : ℕ) := by norm_num

theorem isStep_roundStep (number : toRat? x = some q) (nonneg : 0 ≤ q) (small : q ≤ 1) :
    ∃ bound, IsStep bound (roundStep x) := by
  have power : IsStep 10 (ChartNumber.exp10 (ChartNumber.floor (ChartNumber.log10 x))) :=
    isStep_leadingPower number nonneg small
  have two : IsStep 2 2.0 := ⟨0x10000000000000, -51, rfl, by norm_num [magnitude]⟩
  have five : IsStep 5 5.0 := ⟨0x14000000000000, -50, rfl, by norm_num [magnitude]⟩
  have ten : IsStep 10 10.0 := ⟨0x14000000000000, -49, rfl, by norm_num [magnitude]⟩
  simp only [roundStep]
  split_ifs
  · exact ⟨_, power⟩
  · exact ⟨_, two.mul power (by decide)⟩
  · exact ⟨_, five.mul power (by decide)⟩
  · exact ⟨_, ten.mul power (by decide)⟩

/-! ## Regular ticks -/

/-- Zero is a multiple of every step. -/
theorem exists_zero_mem_multiples {lo hi step : Float} (number : toRat? lo = some p)
    (number' : toRat? hi = some q) (low : p ≤ 0) (high : 0 ≤ q) {bound : ℕ}
    (isStep : IsStep bound step) : ∃ t ∈ multiples step lo hi, toRat? t = some 0 := by
  obtain ⟨m, e, reading, -⟩ := isStep
  have slack : read (1e-9 : Float) = .finite false 4835703278458517 (-82) := rfl
  have before : toInt64 (ChartNumber.ceil (lo / step)) ≤ 0 :=
    (NotPositive.div number low reading).ceil.toIntWithin_nonpos (by decide)
  have after : 0 ≤ toInt64 (ChartNumber.floor (hi / step + 1e-9)) :=
    ((NotNegative.div number' high reading).add slack).floor.toIntWithin_nonneg (by decide)
  refine ⟨_, List.mem_map_of_mem (mem_integers.2 ⟨before, after⟩), ?_⟩
  have origin : read (ofInt 0) = .finite false 0 (-1074) := rfl
  change toRat? (ofInt 0 * step) = some 0
  rw [mul_of_zero origin reading (.inl rfl), toRat?_zero]

/-- The length of a short range that has an end at zero or on each side of it. -/
theorem exists_length {lo hi : Float} (number : toRat? lo = some p) (number' : toRat? hi = some q)
    (low : p ≤ 0) (high : 0 ≤ q) (ordered : p < q) (short : q - p ≤ 8) :
    ∃ span, toRat? (hi - lo) = some span ∧ 0 < span ∧ span ≤ 8 := by
  have eight : IsNearest 8 8 := .refl (isDouble_natCast (n := 8) (by decide))
  have moderate : |q - p| < 2 ^ 1023 := by
    rw [abs_of_pos (sub_pos.2 ordered)]
    calc q - p ≤ 2 ^ 3 := by linarith
      _ < 2 ^ 1023 := pow_lt_pow_right₀ one_lt_two (by decide)
  obtain ⟨span, difference, nearest⟩ := exists_nearest (number?_sub number' number) moderate
  refine ⟨span, difference, ?_, nearest.mono eight short⟩
  -- The end that is not zero is a double itself.
  rcases high.eq_or_lt with rfl | above
  · have double : IsDouble (-p) := IsDouble.neg ⟨_, number⟩
    linarith [(IsNearest.refl double).mono nearest (by linarith)]
  · have double : IsDouble q := ⟨_, number'⟩
    linarith [(IsNearest.refl double).mono nearest (by linarith)]

theorem regular_of_length {lo hi : Float} {span : ℚ} (length : toRat? (hi - lo) = some span)
    (positive : 0 < span) (aimed : target ≠ 0) :
    regular lo hi target = multiples (roundStep ((hi - lo) / ofInt target)) lo hi := by
  obtain ⟨negative, m, e, reading, -⟩ := toRat?_eq_some_iff.1 length
  have finite : ChartNumber.isFinite (hi - lo) = true := by
    change isFinite (hi - lo) = true
    rw [isFinite, reading]
  have long : ¬ hi - lo ≤ 0.0 := by
    rw [(compare_iff_of_toRat? length toRat?_literal_zero).2]
    exact positive.not_ge
  rw [regular, if_neg (by simp [finite, long, aimed])]
  rfl

/-- Regular ticks of a short range around zero have zero among them. -/
theorem exists_zero_mem_regular {lo hi : Float} (number : toRat? lo = some p)
    (number' : toRat? hi = some q) (low : p ≤ 0) (high : 0 ≤ q) (ordered : p < q)
    (short : q - p ≤ 8) : ∃ t ∈ regular lo hi throughputTarget, toRat? t = some 0 := by
  obtain ⟨span, length, span_pos, span_le⟩ := exists_length number number' low high ordered short
  have eight : toRat? (ofInt throughputTarget : Float) = some 8 := toRat?_ofInt (by decide)
  have one : IsNearest 1 1 := .refl ⟨1.0, toRat?_literal_one⟩
  have least : 0 ≤ span / 8 := by positivity
  have most : span / 8 ≤ 1 := by linarith
  have moderate : |span / 8| < 2 ^ 1023 := by
    rw [abs_of_nonneg least]
    exact most.trans_lt (one_lt_pow₀ one_lt_two (by decide))
  obtain ⟨raw, quotient, nearest⟩ :=
    exists_nearest (number?_div length eight (by norm_num)) moderate
  obtain ⟨bound, isStep⟩ := isStep_roundStep quotient
    ((IsNearest.refl isDouble_zero).mono nearest least) (nearest.mono one most)
  rw [regular_of_length length span_pos (by decide)]
  exact exists_zero_mem_multiples number number' low high isStep

/-! ## Places in a range -/

section

variable {lo hi v : Float}

theorem topExponent_lt (lo hi : Float) : Scale.topExponent lo hi < 2 * fractionCount := by
  have bound : Scale.topExponent lo hi ≤ 0x7fffffff := Int.toNat_le.2 (toInt32_bounds _).2
  rw [fractionCount]
  omega

theorem isSome_number?_of_le (le : lo ≤ v) : (number? v).isSome := by
  obtain ⟨-, b, -, number, -⟩ := le_iff.1 le
  simp [number]

theorem comparedBy_placesBetween (lo hi : Float) : ComparedBy place (Scale.placesBetween lo hi) :=
  comparedBy_place fun _ mem => isSome_number?_of_le (Scale.mem_placesBetween_iff.1 mem).2.1

theorem ascending_decades_symlog (lo hi : Float) :
    (Scale.symlog.decades lo hi).Pairwise fun a b => place a < place b :=
  Scale.ascending_decades_symlog (comparedBy_placesBetween lo hi)
    (ordered_symmetricPlaces (topExponent_lt lo hi))

/-- What has its place in a range is found there, up to the sign of a zero. -/
theorem exists_mem_decades_symlog {y : Float}
    (power : y ∈ Scale.symmetricPowers (Scale.topExponent lo hi))
    (inside : lo ≤ Scale.symlog.position y ∧ Scale.symlog.position y ≤ hi) :
    ∃ v ∈ Scale.symlog.decades lo hi, place v = place (Scale.symlog.position y) :=
  exists_mem_dropRepeats (comparedBy_placesBetween lo hi)
    (Scale.mem_placesBetween_iff.2 ⟨⟨y, power, rfl⟩, inside⟩)

theorem place_zero : place 0.0 = 0 := by
  rw [place_of_number? (number?_of_toRat? toRat?_literal_zero)]
  simp

theorem exists_zero_mem_decades_symlog (low : lo ≤ 0.0) (high : 0.0 ≤ hi) :
    ∃ v ∈ Scale.symlog.decades lo hi, place v = 0 := by
  have origin := positions_around_zero.1
  rw [← place_zero, ← origin]
  refine exists_mem_decades_symlog (Scale.zero_mem_symmetricPowers _) ?_
  rw [origin]
  exact ⟨low, high⟩

theorem lt_zero_iff (number : (number? v).isSome) : v < 0.0 ↔ place v < 0 := by
  obtain ⟨a, number⟩ := Option.isSome_iff_exists.1 number
  rw [lt_iff, place_of_number? number, number, number?_of_toRat? toRat?_literal_zero]
  simp

theorem toRat?_eq_zero_iff (number : (number? v).isSome) : toRat? v = some 0 ↔ place v = 0 := by
  obtain ⟨a, number⟩ := Option.isSome_iff_exists.1 number
  rw [toRat?_eq_some_iff_number?, place_of_number? number, number]
  simp

/-- A double between two finite ones is finite. -/
theorem exists_toRat?_of_between (left : toRat? lo = some p) (right : toRat? hi = some q)
    (low : lo ≤ v) (high : v ≤ hi) : ∃ r, toRat? v = some r ∧ p ≤ r ∧ r ≤ q := by
  cases reading : read v with
  | finite negative m e =>
    have number := toRat?_of_read reading
    exact ⟨_, number, (compare_iff_of_toRat? left number).2.1 low,
      (compare_iff_of_toRat? number right).2.1 high⟩
  | infinite negative =>
    rw [le_iff, number?_of_toRat? left, number?, reading] at low
    rw [le_iff, number?_of_toRat? right, number?, reading] at high
    cases negative <;> simp [Reading.number?] at low high
  | undefined =>
    rw [le_iff, number?_of_toRat? left, number?, reading] at low
    simp [Reading.number?] at low

/-- Where zero is the only place in a range, no other place is in it. -/
theorem not_inside_of_few (low : lo ≤ 0.0) (high : 0.0 ≤ hi)
    (few : (Scale.symlog.decades lo hi).length < 2) {y : Float}
    (power : y ∈ Scale.symmetricPowers (Scale.topExponent lo hi))
    (away : place (Scale.symlog.position y) ≠ 0) :
    ¬ (lo ≤ Scale.symlog.position y ∧ Scale.symlog.position y ≤ hi) := by
  intro inside
  obtain ⟨v, mem, same⟩ := exists_mem_decades_symlog power inside
  obtain ⟨w, mem', zero⟩ := exists_zero_mem_decades_symlog low high
  have alone : v = w := by
    match decades : Scale.symlog.decades lo hi with
    | [] => simp [decades] at mem
    | [u] =>
      rw [decades, List.mem_singleton] at mem mem'
      rw [mem, mem']
    | _ :: _ :: _ => simp [decades] at few
  rw [← same, alone] at away
  exact away zero

/-- Then the range does not reach the places of one and minus one. -/
theorem ends_of_few (low : lo ≤ 0.0) (high : 0.0 ≤ hi)
    (few : (Scale.symlog.decades lo hi).length < 2) : -1.0 ≤ lo ∧ hi ≤ 1.0 := by
  set above := Scale.symlog.position (exp10 (ofInt 0)) with above_eq
  set below := Scale.symlog.position (-exp10 (ofInt 0)) with below_eq
  obtain ⟨-, least, negative, positive, greatest, -⟩ :
      _ ∧ -1.0 ≤ below ∧ below < 0.0 ∧ 0.0 < above ∧ above ≤ 1.0 ∧ _ := positions_around_zero
  have nonpos := le_of_double_lt negative
  have nonneg := le_of_double_lt positive
  have number : (number? above).isSome := isSome_number?_of_le nonneg
  have number' : (number? below).isSome := isSome_number?_of_le least
  have above_ne : place above ≠ 0 := place_zero ▸ (place_lt_place positive).ne'
  have below_ne : place below ≠ 0 := place_zero ▸ (place_lt_place negative).ne
  have member : exp10 (ofInt 0) ∈ (List.range (Scale.topExponent lo hi + 1)).map
      fun k : ℕ => ChartNumber.exp10 (ChartNumber.ofInt k : Float) :=
    List.mem_map.2 ⟨0, List.mem_range.2 (Nat.succ_pos _), rfl⟩
  have one : exp10 (ofInt 0) ∈ Scale.symmetricPowers (Scale.topExponent lo hi) :=
    List.mem_append_right _ (.tail _ member)
  have minusOne : -exp10 (ofInt 0) ∈ Scale.symmetricPowers (Scale.topExponent lo hi) :=
    List.mem_append_left _ (List.mem_map_of_mem (List.mem_reverse.2 member))
  constructor
  · have outside : ¬ lo ≤ below := fun le =>
      not_inside_of_few low high few minusOne below_ne ⟨le, le_trans_of_le nonpos high⟩
    have lo_number : (number? lo).isSome := by
      obtain ⟨a, -, number, -⟩ := le_iff.1 low
      simp [number]
    exact le_trans_of_le least ((le_or_le number' lo_number).resolve_right outside)
  · have outside : ¬ above ≤ hi := fun le =>
      not_inside_of_few low high few one above_ne ⟨le_trans_of_le low nonneg, le⟩
    exact le_trans_of_le
      ((le_or_le number (isSome_number?_of_le high)).resolve_left outside) greatest

/-- Zero is ticked where regular ticks are used, and otherwise only if as many places as a multiple
of the stride are below it. -/
theorem exists_zero_mem_ticks_symlog_iff (low : lo ≤ 0.0) (high : 0.0 ≤ hi) (ordered : lo < hi) :
    (∃ t ∈ Scale.symlog.ticks lo hi, toRat? t = some 0) ↔
      (Scale.symlog.decades lo hi).length < 2 ∨
        (Scale.symlog.decades lo hi).length ⌈/⌉ 8 ∣
          (Scale.symlog.decades lo hi).countP fun v => v < 0.0 := by
  have numbers {v : Float} (mem : v ∈ Scale.symlog.decades lo hi) : (number? v).isSome :=
    isSome_number?_of_le (Scale.between_of_mem_decades_symlog mem).1
  by_cases several : 2 ≤ (Scale.symlog.decades lo hi).length
  case neg =>
    have regular : Scale.symlog.ticks lo hi = regular lo hi throughputTarget := if_neg several
    have few := not_le.1 several
    obtain ⟨least, greatest⟩ := ends_of_few low high few
    have zero := toRat?_literal_zero
    have one := toRat?_literal_one
    have minus : toRat? (-1.0 : Float) = some (-1) := toRat?_neg one
    obtain ⟨p, number, from_p, nonpos⟩ := exists_toRat?_of_between minus zero least low
    obtain ⟨q, number', nonneg, to_q⟩ := exists_toRat?_of_between zero one high greatest
    rw [regular]
    refine iff_of_true (exists_zero_mem_regular number number' nonpos nonneg ?_ ?_) (.inl few)
    · exact (compare_iff_of_toRat? number number').1.1 ordered
    · linarith
  case pos =>
    rw [or_iff_right (not_lt.2 several)]
    refine Iff.trans ?_ (Scale.exists_mem_ticks_iff several (ascending_decades_symlog lo hi)
      (exists_zero_mem_decades_symlog low high) fun v mem => lt_zero_iff (numbers mem))
    refine exists_congr fun t => and_congr_right fun ticked => ?_
    exact toRat?_eq_zero_iff (numbers ((Scale.ticks_sublist_decades several).mem ticked))

end

end Binary64

namespace Scale

/-- On a symmetric axis that spans zero, zero is ticked where regular ticks are used, and otherwise
only if as many places as a multiple of the stride are below it. This is so for doubles and for
numbers that are rounded in any other way. -/
theorem zero_mem_ticks_symlog_iff {α : Type} [ChartNumber α] {round : ℝ → ℝ} {value : α → ℝ}
    (h : RoundedScale α round value) :
    (∀ lo hi : Float, lo ≤ 0.0 → 0.0 ≤ hi → lo < hi →
      let decades := symlog.decades lo hi
      (∃ t ∈ symlog.ticks lo hi, Binary64.toRat? t = some 0) ↔
        decades.length < 2 ∨ decades.length ⌈/⌉ 8 ∣ decades.countP fun v => v < 0.0) ∧
    ∀ lo hi : α, value lo ≤ 0 → 0 ≤ value hi → value lo < value hi →
      let decades := symlog.decades lo hi
      (∃ t ∈ symlog.ticks lo hi, value t = 0) ↔
        decades.length < 2 ∨ decades.length ⌈/⌉ 8 ∣ decades.countP fun v => v < 0.0 :=
  ⟨fun _ _ low high ordered => Binary64.exists_zero_mem_ticks_symlog_iff low high ordered,
    fun _ _ low high ordered => h.exists_zero_mem_ticks_symlog_iff low high ordered⟩

/-- Nothing is below zero on an axis that begins there, where one place is below it on an axis from
`-0.7` to `7.7` and zero is missing. -/
theorem zero_mem_ticks_symlog_iff_origin :
    (0.0 ≤ (0.0 : Float) ∧ 0.0 ≤ (7.7 : Float) ∧ 0.0 < (7.7 : Float) ∧
      ∃ t ∈ symlog.ticks (0.0 : Float) 7.7, Binary64.toRat? t = some 0) ∧
    (-0.7 ≤ (0.0 : Float) ∧ 0.0 ≤ (7.7 : Float) ∧ -0.7 < (7.7 : Float) ∧
      ¬ ∃ t ∈ symlog.ticks (-0.7 : Float) 7.7, Binary64.toRat? t = some 0) ∧
    RoundedScale Exact id Exact.value ∧ (Exact.mk 0).value ≤ 0 ∧ 0 ≤ (Exact.mk 20).value ∧
      (Exact.mk 0).value < (Exact.mk 20).value ∧
      ∃ t ∈ symlog.ticks (Exact.mk 0) (Exact.mk 20), t.value = 0 := by
  obtain ⟨doubles, exactly⟩ := zero_mem_ticks_symlog_iff Exact.roundedScale
  refine ⟨?origin, ?spanning, ?exact⟩
  case origin =>
    obtain ⟨low, high, ordered, noneBelow⟩ :
        (0.0 : Float) ≤ 0.0 ∧ (0.0 : Float) ≤ 7.7 ∧ (0.0 : Float) < 7.7 ∧
          (symlog.decades (0.0 : Float) 7.7).countP (fun v => v < 0.0) = 0 := by
      decide +kernel
    exact ⟨low, high, ordered,
      (doubles _ _ low high ordered).2 (.inr (noneBelow ▸ dvd_zero _))⟩
  case spanning =>
    obtain ⟨low, high, ordered, places, oneBelow⟩ :
        (-0.7 : Float) ≤ 0.0 ∧ (0.0 : Float) ≤ 7.7 ∧ (-0.7 : Float) < 7.7 ∧
          (symlog.decades (-0.7 : Float) 7.7).length = 10 ∧
          (symlog.decades (-0.7 : Float) 7.7).countP (fun v => v < 0.0) = 1 := by
      decide +kernel
    refine ⟨low, high, ordered, fun ticked => ?_⟩
    have multiple := (doubles _ _ low high ordered).1 ticked
    simp only [places, oneBelow] at multiple
    exact absurd multiple (by decide)
  case exact =>
    have low : (Exact.mk 0).value ≤ 0 := le_rfl
    have high : 0 ≤ (Exact.mk 20).value := Nat.ofNat_nonneg 20
    have ordered : (Exact.mk 0).value < (Exact.mk 20).value := Nat.ofNat_pos
    have noneBelow : (symlog.decades (Exact.mk 0) (Exact.mk 20)).countP (fun v => v < 0.0) = 0 := by
      refine List.countP_eq_zero.2 fun v mem => ?_
      have above := ((Exact.roundedScale.ascending_decades_symlog _ _).2 v mem).1
      rw [decide_eq_true_eq, Exact.rounded.lt_iff, Exact.rounded.value_zero, not_lt]
      exact above
    refine ⟨Exact.roundedScale, low, high, ordered, ?_⟩
    exact (exactly _ _ low high ordered).2 (.inr (noneBelow ▸ dvd_zero _))

/-- Zero is not ticked on every symmetric axis that spans it: with one place below zero and ten in
all it is the second, and every other one is ticked. -/
theorem not_zero_mem_ticks_symlog :
    ¬ ∀ lo hi : Float, lo ≤ 0.0 → 0.0 ≤ hi → lo < hi →
      ∃ t ∈ symlog.ticks lo hi, Binary64.toRat? t = some 0 := by
  intro always
  obtain ⟨low, high, ordered, missing⟩ :
      (-0.7 : Float) ≤ 0.0 ∧ (0.0 : Float) ≤ 7.7 ∧ (-0.7 : Float) < 7.7 ∧
        ¬ ∃ t ∈ symlog.ticks (-0.7 : Float) 7.7, Binary64.toRat? t = some 0 := by
    decide +kernel
  exact missing (always (-0.7) 7.7 low high ordered)

end Scale

end ContentionChart
