import ContentionChart.Proofs.Sessions
import Mathlib.Algebra.Order.Group.Nat
import Mathlib.Algebra.Ring.Nat
import Mathlib.Tactic.Ring

/-!
# Image files

An image file is read back as the image that was written to it. Each part of the file is read
whatever follows it: a chunk by the length in front of it, and stored blocks up to the one that is
marked as the last.

## Main statements

* `Png.chunk?_append`, `Png.stored?_stored` — the parts of a file.
* `Png.decode?_encode` — a whole file.
* `Host.decode?_of_run_writeImage` — the file that a run has written.
-/

namespace ContentionChart

/-- An image is right if it is not empty and has a sample for each of its places. -/
theorem Image.fault?_eq_none_iff {image : Image} :
    image.fault? = none ↔ 0 < image.width ∧ 0 < image.height ∧
      image.samples.length = expectedSamples image.width image.height := by
  unfold fault?
  split_ifs <;> grind

namespace Png

open Utf8 (Bytes)

variable {xs rest data samples : Bytes} {count n rowLength rows : Nat}

/-! ## Numbers -/

@[simp] theorem length_bigEndian (count n : Nat) : (bigEndian count n).length = count := by
  induction count generalizing n with
  | zero => rfl
  | succ count ih => simp [bigEndian, ih]

theorem ofBigEndian_append_singleton (xs : Bytes) (b : UInt8) :
    ofBigEndian (xs ++ [b]) = 256 * ofBigEndian xs + b.toNat := by
  simp [ofBigEndian]

theorem ofBigEndian_bigEndian (lt : n < 256 ^ count) : ofBigEndian (bigEndian count n) = n := by
  induction count generalizing n with
  | zero =>
    obtain rfl : n = 0 := by simpa using lt
    rfl
  | succ count ih =>
    have less : n / 256 < 256 ^ count := by
      rw [Nat.div_lt_iff_lt_mul (by decide), ← pow_succ]
      exact lt
    rw [bigEndian, ofBigEndian_append_singleton, ih less, UInt8.toNat_ofNat']
    omega

/-! ## Chunks -/

theorem split?_append (length : xs.length = count) :
    split? count (xs ++ rest) = some (xs, rest) := by
  rw [split?, if_pos (by simp [length]), List.splitAt_eq, List.take_left' length,
    List.drop_left' length]

theorem chunk?_append {name : String} (four : (Utf8.encode name).length = 4)
    (short : data.length < 2 ^ 32) (rest : Bytes) :
    chunk? name (chunk name data ++ rest) = some (data, rest) := by
  have length : ofBigEndian (bigEndian 4 data.length) = data.length := ofBigEndian_bigEndian short
  have code : ofBigEndian (bigEndian 4 (Checksum.crc (Utf8.encode name ++ data)).toNat) =
      (Checksum.crc (Utf8.encode name ++ data)).toNat :=
    ofBigEndian_bigEndian (UInt32.toNat_lt _)
  have body : (Utf8.encode name ++ data).length = 4 + data.length := by simp [four]
  have parts : (Utf8.encode name ++ data).splitAt 4 = (Utf8.encode name, data) := by
    rw [List.splitAt_eq, List.take_left' four, List.drop_left' four]
  simp only [chunk?, chunk, List.append_assoc, Option.bind_eq_bind, Option.bind_some,
    split?_append (length_bigEndian 4 _), length]
  rw [← List.append_assoc (Utf8.encode name), split?_append body]
  simp only [Option.bind_some, split?_append (length_bigEndian 4 _), parts, code, and_self, if_true]

/-! ## Blocks -/

/-- The five bytes before the data of a block. -/
theorem storedBlock_eq (last : Bool) (data : Bytes) :
    storedBlock last data =
      ((if last then 1 else 0) :: (bigEndian 2 data.length).reverse ++
        (bigEndian 2 data.length).reverse.map (~~~ ·)) ++ data := rfl

theorem storedBlocks?_storedBlock_append (last : Bool) (short : data.length ≤ maxBlock)
    (fuel : Nat) (rest : Bytes) :
    storedBlocks? (fuel + 1) (storedBlock last data ++ rest) =
      if last then some (data, rest)
      else (storedBlocks? fuel rest).map fun more => (data ++ more.1, more.2) := by
  have two : (bigEndian 2 data.length).reverse.length = 2 := by simp
  have length : ofBigEndian (bigEndian 2 data.length) = data.length :=
    ofBigEndian_bigEndian (by rw [maxBlock] at short; omega)
  have front : ((if last then 1 else 0) :: (bigEndian 2 data.length).reverse ++
      (bigEndian 2 data.length).reverse.map (~~~ ·)).length = 5 := by simp
  rw [storedBlock_eq, List.append_assoc]
  simp only [storedBlocks?, split?_append front, Option.bind_eq_bind, Option.bind_some]
  have middle : (((if last then 1 else 0) :: (bigEndian 2 data.length).reverse ++
      (bigEndian 2 data.length).reverse.map (~~~ ·)).drop 1).take 2 =
        (bigEndian 2 data.length).reverse := by
    simp [List.take_left' two]
  rw [middle, List.reverse_reverse, length, split?_append rfl]
  cases last with
  | true => simp
  | false => cases more : storedBlocks? fuel rest <;> simp [more]

theorem length_storedBlocks (more : Nat) (data : Bytes) :
    (storedBlocks more data).length = data.length + 5 * (more + 1) := by
  induction more generalizing data with
  | zero => simp [storedBlocks, storedBlock]; omega
  | succ more ih =>
    rw [storedBlocks, List.length_append, ih]
    simp [storedBlock, maxBlock]
    omega

theorem storedBlocks?_storedBlocks_append {more fuel : Nat}
    (short : data.length ≤ maxBlock * (more + 1)) (enough : more < fuel) (rest : Bytes) :
    storedBlocks? fuel (storedBlocks more data ++ rest) = some (data, rest) := by
  induction more generalizing data fuel with
  | zero =>
    obtain ⟨fuel, rfl⟩ := Nat.exists_eq_succ_of_ne_zero enough.ne'
    rw [storedBlocks, storedBlocks?_storedBlock_append true (by simpa using short)]
    rfl
  | succ more ih =>
    obtain ⟨fuel, rfl⟩ := Nat.exists_eq_succ_of_ne_zero (by omega : fuel ≠ 0)
    have first : (data.take maxBlock).length ≤ maxBlock := by simp
    have others : (data.drop maxBlock).length ≤ maxBlock * (more + 1) := by
      rw [List.length_drop]
      rw [Nat.mul_succ] at short
      omega
    rw [storedBlocks, List.append_assoc, storedBlocks?_storedBlock_append false first,
      ih others (by omega)]
    simp

theorem stored?_stored (data : Bytes) : stored? (stored data) = some data := by
  have code : ofBigEndian (bigEndian 4 (Checksum.adler data).toNat) =
      (Checksum.adler data).toNat := ofBigEndian_bigEndian (UInt32.toNat_lt _)
  have short : data.length ≤ maxBlock * ((data.length - 1) / maxBlock + 1) := by
    have := Nat.lt_mul_div_succ (data.length - 1) (by decide : 0 < maxBlock)
    omega
  have enough : (data.length - 1) / maxBlock < (stored data).length := by
    rw [stored, List.length_append, List.length_append, length_storedBlocks]
    omega
  have blocks : (stored data).drop 2 =
      storedBlocks ((data.length - 1) / maxBlock) data ++
        bigEndian 4 (Checksum.adler data).toNat := by simp [stored]
  rw [stored?, blocks, storedBlocks?_storedBlocks_append short enough]
  simp [code]

/-! ## Rows -/

theorem length_filteredRows (whole : samples.length = rows * rowLength) :
    (filteredRows rowLength rows samples).length = rows * (rowLength + 1) := by
  induction rows generalizing samples with
  | zero => simp [filteredRows]
  | succ rows ih =>
    rw [Nat.succ_mul] at whole
    have others : (samples.drop rowLength).length = rows * rowLength := by
      rw [List.length_drop]
      omega
    have first : (samples.take rowLength).length = rowLength := by
      rw [List.length_take]
      omega
    rw [filteredRows, List.length_append, ih others, List.length_cons, first, Nat.succ_mul]
    omega

theorem unfilteredRows_filteredRows (whole : samples.length = rows * rowLength) :
    unfilteredRows rowLength rows (filteredRows rowLength rows samples) = samples := by
  induction rows generalizing samples with
  | zero => simpa [unfilteredRows, eq_comm] using whole
  | succ rows ih =>
    rw [Nat.succ_mul] at whole
    have others : (samples.drop rowLength).length = rows * rowLength := by
      rw [List.length_drop]
      omega
    have first : (samples.take rowLength).length = rowLength := by
      rw [List.length_take]
      omega
    rw [filteredRows, unfilteredRows, List.cons_append, List.drop_one, List.tail_cons,
      List.take_left' first, List.drop_succ_cons, List.drop_left' first, ih others,
      List.take_append_drop]

/-! ## Files -/

/-- What is written for an image is read back as the image, with its resolution. -/
theorem decode?_encode {image : Image} {pixelsPerMetre : Nat} (right : image.fault? = none)
    (small : image.samples.length < 2 ^ 31) (resolution : pixelsPerMetre < 2 ^ 32) :
    decode? (encode pixelsPerMetre image) = some (image, pixelsPerMetre, pixelsPerMetre) := by
  obtain ⟨width, height, samples⟩ := image
  obtain ⟨wide, high, whole⟩ := Image.fault?_eq_none_iff.1 right
  simp only at wide high whole small
  have rows : samples.length = height * (3 * width) := by
    rw [whole, Image.expectedSamples]
    ring
  have narrow : 3 * width ≤ samples.length := rows ▸ Nat.le_mul_of_pos_left _ high
  have flat : height * 3 ≤ samples.length := by
    rw [rows]
    exact Nat.mul_le_mul_left _ (Nat.le_mul_of_pos_right 3 wide)
  have width_eq : ofBigEndian (bigEndian 4 width) = width := ofBigEndian_bigEndian (by omega)
  have height_eq : ofBigEndian (bigEndian 4 height) = height := ofBigEndian_bigEndian (by omega)
  have resolution_eq : ofBigEndian (bigEndian 4 pixelsPerMetre) = pixelsPerMetre :=
    ofBigEndian_bigEndian resolution
  have short : (stored (filteredRows (3 * width) height samples)).length < 2 ^ 32 := by
    have filtered := length_filteredRows rows
    rw [Nat.mul_succ, ← rows] at filtered
    rw [stored, List.length_append, List.length_append, length_storedBlocks, length_bigEndian,
      filtered, maxBlock]
    simp only [List.length_cons, List.length_nil]
    omega
  have header : (headerData ⟨width, height, samples⟩).length < 2 ^ 32 := by simp [headerData]
  have density : (resolutionData pixelsPerMetre).length < 2 ^ 32 := by simp [resolutionData]
  have nothing : ([] : Bytes).length < 2 ^ 32 := by decide
  have names : (Utf8.encode "IHDR").length = 4 ∧ (Utf8.encode "pHYs").length = 4 ∧
      (Utf8.encode "IDAT").length = 4 ∧ (Utf8.encode "IEND").length = 4 := by decide +kernel
  obtain ⟨ihdr, phys, idat, iend⟩ := names
  have last := chunk?_append iend nothing []
  rw [List.append_nil] at last
  simp only [decode?, encode, List.append_assoc, split?_append rfl, Option.bind_eq_bind,
    Option.bind_some, chunk?_append ihdr header, chunk?_append phys density,
    chunk?_append idat short, last, stored?_stored]
  rw [if_neg (not_not.2 rfl)]
  simp [headerData, resolutionData, width_eq, height_eq, resolution_eq,
    unfilteredRows_filteredRows rows]

end Png

/-- An image that was written is found at its output. -/
theorem Host.decode?_of_run_writeImage {w w' : Host} {output : Path} {image : Image}
    (small : image.samples.length < 2 ^ 31)
    (written : w.run (Run.writeImage output image) = (.ok (), w')) :
    ∃ place content, w'.files.resolve w.workingDirectory output = .ok (place, .file content) ∧
      Png.decode? content = some (image, Run.pixelsPerMetre, Run.pixelsPerMetre) := by
  rw [run_writeImage] at written
  cases found : w.files.target w.workingDirectory output with
  | error fault => simp [found] at written
  | ok place =>
    cases right : image.fault? with
    | some fault => simp [found, right] at written
    | none =>
      simp only [found, right, Prod.mk.injEq, true_and] at written
      subst written
      exact ⟨place, _, FileTree.resolve_put found, Png.decode?_encode right small (by decide)⟩

end ContentionChart
