import ContentionChart.Png.Basic
import ContentionChart.Proofs.FigureSizes
import ContentionChart.Proofs.RoundedNumbers

/-!
# Sizes of images

The sides of a figure are bounded in inches, and its image needs sides in pixels. Without rounding
but that to whole pixels, a side of at most a hundred inches has at most fifteen thousand pixels. It
has none if it is shorter than a three hundredth of an inch, so that a size can be read that has an
empty image.

## Main definitions

* `FigureSize.exactly` — a figure whose sides have given lengths.
* `FigureSize.HasImage` — the image of such a figure.

## Main statements

* `Exact.pixelsOf_eq` — the pixels of a length.
* `Image.fault?_of_length` — what is wrong with an image that has the samples it needs.
* `FigureSize.hasImage_of_parse?` — the images of sizes that were read.
-/

namespace ContentionChart

/-! ## Pixels of a side -/

namespace Exact

open ChartNumber FigureSize

/-- The nearest whole number of pixels, where a half is rounded up. -/
theorem pixelsOf_eq {length : ℝ} (nonneg : 0 ≤ length) (le_hundred : length ≤ 100) :
    (pixelsOf (Exact.mk length) : ℤ) = ⌊length * 150 + 1 / 2⌋ := by
  have scaled : (Exact.mk length * ofInt pixelsPerInch).value = length * 150 := by
    change length * ((150 : ℕ) : ℤ) = _
    norm_num
  have positive : ¬length * 150 < 0 := by linarith
  have rounded : (ChartNumber.round (Exact.mk length * ofInt pixelsPerInch)).value =
      ⌊length * 150 + 1 / 2⌋ := by
    change (if (Exact.mk length * ofInt pixelsPerInch).value < 0 then _ else _) = _
    rw [scaled, if_neg positive]
  have low : 0 ≤ ⌊length * 150 + 1 / 2⌋ := Int.floor_nonneg.2 (by linarith)
  have high : ⌊length * 150 + 1 / 2⌋ ≤ 15000 := by
    apply Int.le_of_lt_add_one
    rw [Int.floor_lt]
    push_cast
    linarith
  rw [pixelsOf, Exact.rounded.toIntWithin, rounded, truncated_intCast]
  omega

theorem pixelsOf_le {length : ℝ} (nonneg : 0 ≤ length) (le_hundred : length ≤ 100) :
    pixelsOf (Exact.mk length) ≤ 15000 := by
  have pixels := pixelsOf_eq nonneg le_hundred
  have high : ⌊length * 150 + 1 / 2⌋ < 15001 := by
    rw [Int.floor_lt]
    push_cast
    linarith
  omega

/-- Only half a pixel and more is drawn. -/
theorem pixelsOf_eq_zero_iff {length : ℝ} (nonneg : 0 ≤ length) (le_hundred : length ≤ 100) :
    pixelsOf (Exact.mk length) = 0 ↔ length < 1 / 300 := by
  have pixels := pixelsOf_eq nonneg le_hundred
  calc pixelsOf (Exact.mk length) = 0 ↔ ⌊length * 150 + 1 / 2⌋ = 0 := by omega
    _ ↔ length < 1 / 300 := by
      rw [Int.floor_eq_zero_iff, Set.mem_Ico]
      constructor
      · rintro ⟨-, below⟩
        linarith
      · intro below
        constructor <;> linarith

end Exact

/-! ## Samples -/

namespace Image

variable {width height : ℕ} {samples : Utf8.Bytes}

/-- With the samples that it needs, only an empty image is wrong. -/
theorem fault?_of_length (enough : samples.length = expectedSamples width height) :
    (Image.mk width height samples).fault? =
      if width = 0 then some .zeroWidth else if height = 0 then some .zeroHeight else none := by
  simp [fault?, enough]

theorem expectedSamples_eq_zero_iff :
    expectedSamples width height = 0 ↔ width = 0 ∨ height = 0 := by
  simp [expectedSamples]

theorem expectedSamples_lt (across : width ≤ 15000) (down : height ≤ 15000) :
    expectedSamples width height < 2 ^ 64 := by
  calc width * height * 3 ≤ 15000 * 15000 * 3 :=
        Nat.mul_le_mul_right 3 (Nat.mul_le_mul across down)
    _ < 2 ^ 64 := by norm_num

end Image

/-! ## Images of figures -/

namespace FigureSize

variable {s : String} {size : FigureSize Float} {width height : ℚ}

/-- The figure whose sides have the given lengths. -/
noncomputable def exactly (width height : ℚ) : FigureSize Exact := ⟨⟨width⟩, ⟨height⟩⟩

/-- The image of a figure whose sides have the given lengths. Its sides have the nearest number of
pixels, fifteen thousand at most, and none where a side of the figure is shorter than a three
hundredth of an inch. Its samples can be counted in 64 bits, and where there are as many as their
number says, the image is wrong only if it is empty. -/
structure HasImage (width height : ℚ) (pixels : ℕ × ℕ) : Prop where
  across : (pixels.1 : ℤ) = ⌊width * 150 + 1 / 2⌋
  down : (pixels.2 : ℤ) = ⌊height * 150 + 1 / 2⌋
  bounded : pixels.1 ≤ 15000 ∧ pixels.2 ≤ 15000
  narrow : pixels.1 = 0 ↔ width < 1 / 300
  flat : pixels.2 = 0 ↔ height < 1 / 300
  empty : Image.expectedSamples pixels.1 pixels.2 = 0 ↔ width < 1 / 300 ∨ height < 1 / 300
  countable : Image.expectedSamples pixels.1 pixels.2 < 2 ^ 64
  fault : ∀ samples : Utf8.Bytes, samples.length = pixels.1 * pixels.2 * 3 →
    (Image.mk pixels.1 pixels.2 samples).fault? =
      if width < 1 / 300 then some .zeroWidth
      else if height < 1 / 300 then some .zeroHeight
      else none

/-- The pixels of a side, by its exact length. -/
theorem side_pixels {length : ℚ} (positive : 0 < length) (le_hundred : length ≤ 100) :
    (pixelsOf (Exact.mk length) : ℤ) = ⌊length * 150 + 1 / 2⌋ ∧
      pixelsOf (Exact.mk length) ≤ 15000 ∧
      (pixelsOf (Exact.mk length) = 0 ↔ length < 1 / 300) := by
  have nonneg : (0 : ℝ) ≤ length := by exact_mod_cast positive.le
  have le : (length : ℝ) ≤ 100 := by exact_mod_cast le_hundred
  refine ⟨?_, Exact.pixelsOf_le nonneg le, ?_⟩
  · rw [Exact.pixelsOf_eq nonneg le, ← Rat.floor_cast (α := ℝ)]
    push_cast
    rfl
  · rw [Exact.pixelsOf_eq_zero_iff nonneg le]
    have third : ((1 / 300 : ℚ) : ℝ) = 1 / 300 := by norm_num
    rw [← third, Rat.cast_lt]

theorem hasImage_exactly (width_pos : 0 < width) (width_le : width ≤ 100) (height_pos : 0 < height)
    (height_le : height ≤ 100) : HasImage width height (exactly width height).pixels := by
  obtain ⟨across, wide, narrow⟩ := side_pixels width_pos width_le
  obtain ⟨down, high, flat⟩ := side_pixels height_pos height_le
  refine ⟨across, down, ⟨wide, high⟩, narrow, flat, ?_, Image.expectedSamples_lt wide high, ?_⟩
  · rw [← narrow, ← flat]
    exact Image.expectedSamples_eq_zero_iff
  · intro samples enough
    simp only [Image.fault?_of_length enough, ← narrow, ← flat]
    rfl

/-- Each size that is read has sides of exact lengths, and an image. -/
theorem hasImage_of_parse? (read : parse? s = some size) :
    ∃ width height : ℚ, Binary64.toRat? size.width = some width ∧
      Binary64.toRat? size.height = some height ∧
      HasImage width height (exactly width height).pixels := by
  obtain ⟨_, _, _, _, _, left, right⟩ := exists_of_parse? read
  obtain ⟨width, width_eq, width_pos, width_le⟩ := isSide_iff.1 (side?_eq_some_iff.1 left).2
  obtain ⟨height, height_eq, height_pos, height_le⟩ := isSide_iff.1 (side?_eq_some_iff.1 right).2
  exact ⟨width, height, width_eq, height_eq,
    hasImage_exactly width_pos width_le height_pos height_le⟩

/-- A side that is just long enough has one pixel. -/
theorem hasImage_of_parse?_pixel :
    parse? ".0034X100" = some ⟨0.0034, 100.0⟩ ∧
      ∃ width height : ℚ, Binary64.toRat? 0.0034 = some width ∧
        Binary64.toRat? 100.0 = some height ∧
        HasImage width height (exactly width height).pixels := by
  have read : parse? ".0034X100" = some ⟨0.0034, 100.0⟩ := by decide +kernel
  exact ⟨read, hasImage_of_parse? read⟩

/-- A size of a thousandth of an inch is read, and its image is empty, whether it is computed with
doubles or without rounding. -/
theorem not_pixels_pos :
    parse? "0.001x5" = some ⟨0.001, 5.0⟩ ∧ pixels (⟨0.001, 5.0⟩ : FigureSize Float) = (0, 750) ∧
      ∃ width height : ℚ, Binary64.toRat? 0.001 = some width ∧
        Binary64.toRat? 5.0 = some height ∧ (exactly width height).pixels = (0, 750) := by
  have narrow : Binary64.toRat? 0.001 =
      some (1152921504606847 / 1152921504606846976 : ℚ) := by decide +kernel
  have high : Binary64.toRat? 5.0 = some (5 : ℚ) := by decide +kernel
  refine ⟨by decide +kernel, by decide +kernel, _, _, narrow, high, ?_⟩
  have image : HasImage (1152921504606847 / 1152921504606846976) 5
      (exactly (1152921504606847 / 1152921504606846976) 5).pixels := by
    apply hasImage_exactly <;> norm_num
  apply Prod.ext
  · exact image.narrow.2 (by norm_num)
  · have down := image.down
    norm_num at down
    exact_mod_cast down

end FigureSize

end ContentionChart
