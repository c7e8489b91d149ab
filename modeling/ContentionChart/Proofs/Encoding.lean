import ContentionChart.Text.Utf8
import Mathlib.Tactic.SplitIfs

/-!
# Encoded text

The bytes of a text are read back as the text, and texts compare character by character as their
bytes do one by one.

## Main statements

* `Utf8.decode?_encode` — what was encoded is decoded again.
* `Utf8.decode?_of_replacement_notMem` — the strict reading, from the forgiving one.
* `Utf8.mem_encodeChar_iff`, `Utf8.mem_decodeLossy_of_ascii` — bytes below 128 are characters of
  their own.
* `Utf8.encode_lt_encode` — the order of texts is the order of their bytes.
-/

namespace ContentionChart.Utf8

/-! ## Reading back -/

theorem toNat_byte {n : Nat} (h : n < 256) : (UInt8.ofNat n).toNat = n := by
  rw [UInt8.toNat_ofNat', Nat.mod_eq_of_lt h]

theorem lead?_two {n : Nat} (least : 2 ≤ n) (bound : n < 32) :
    lead? (n + 192) = some (2, n, 0x80, 0xbf) := by grind [lead?]

theorem lead?_three {n : Nat} (bound : n < 16) :
    lead? (n + 224) =
      some (3, n, if n = 0 then 0xa0 else 0x80, if n = 13 then 0x9f else 0xbf) := by
  decide +revert

theorem lead?_four {n : Nat} (bound : n < 5) :
    lead? (n + 240) =
      some (4, n, if n = 0 then 0x90 else 0x80, if n = 4 then 0x8f else 0xbf) := by
  decide +revert

/-- One byte of those that continue a character. -/
theorem continuation_succ {total missing bits lo hi next : Nat} (byte : next < 256)
    (low : lo ≤ next) (high : next ≤ hi) (bs : Bytes) :
    continuation total (missing + 1) bits lo hi (UInt8.ofNat next :: bs) =
      continuation total missing (64 * bits + (next - 128)) 0x80 0xbf bs := by
  rw [continuation, toNat_byte byte, if_pos ⟨low, high⟩]

/-- The bytes of a character are one piece, whatever follows. -/
theorem piece_encodeChar (c : Char) (more : Bytes) :
    ∃ b bs, String.utf8EncodeChar c = b :: bs ∧ piece b (bs ++ more) = .char c (bs.length + 1) := by
  have valid := c.valid
  have same : Char.ofNat c.val.toNat = c := Char.ofNat_toNat c
  rw [UInt32.isValidChar, Nat.isValidChar] at valid
  simp only [String.utf8EncodeChar]
  generalize c.val.toNat = v at *
  -- One case for each number of bytes; the bits that they carry make up the character again.
  split_ifs with one two three
  · have lead : lead? v = some (1, v, 0x80, 0xbf) := if_pos (by omega)
    refine ⟨_, _, rfl, ?_⟩
    rw [piece, toNat_byte (by omega), lead, ← same]
    rfl
  · have first : v / 64 % 32 + 192 = v / 64 + 192 := by omega
    have bits : 64 * (v / 64) + (v % 64 + 128 - 128) = v := by omega
    refine ⟨_, _, rfl, ?_⟩
    rw [piece, toNat_byte (by omega), first, lead?_two (by omega) (by omega), ← same]
    simp only [List.cons_append]
    rw [continuation_succ (by omega) (by omega) (by omega), bits]
    rfl
  · have first : v / 4096 % 16 + 224 = v / 4096 + 224 := by omega
    have bits : 64 * (64 * (v / 4096) + (v / 64 % 64 + 128 - 128)) + (v % 64 + 128 - 128) = v := by
      omega
    refine ⟨_, _, rfl, ?_⟩
    rw [piece, toNat_byte (by omega), first, lead?_three (by omega), ← same]
    simp only [List.cons_append]
    rw [continuation_succ (by omega) (by split <;> omega) (by split <;> omega),
      continuation_succ (by omega) (by omega) (by omega), bits]
    rfl
  · have first : v / 262144 % 8 + 240 = v / 262144 + 240 := by omega
    have bits : 64 * (64 * (64 * (v / 262144) + (v / 4096 % 64 + 128 - 128)) +
        (v / 64 % 64 + 128 - 128)) + (v % 64 + 128 - 128) = v := by
      omega
    refine ⟨_, _, rfl, ?_⟩
    rw [piece, toNat_byte (by omega), first, lead?_four (by omega), ← same]
    simp only [List.cons_append]
    rw [continuation_succ (by omega) (by split <;> omega) (by split <;> omega),
      continuation_succ (by omega) (by omega) (by omega),
      continuation_succ (by omega) (by omega) (by omega), bits]
    rfl

theorem piecesAfter_append (front more : Bytes) :
    piecesAfter front.length (front ++ more) = pieces more := by
  induction front with
  | nil => rfl
  | cons _ _ ih => exact ih

theorem exists_pieces_append (c : Char) (more : Bytes) :
    ∃ width, pieces (String.utf8EncodeChar c ++ more) = .char c width :: pieces more := by
  obtain ⟨b, bs, bytes, first⟩ := piece_encodeChar c more
  refine ⟨bs.length + 1, ?_⟩
  rw [bytes, List.cons_append, pieces, piecesAfter]
  simp only [first, Piece.width, Nat.add_sub_cancel, piecesAfter_append]

/-- A text is read back from its bytes. -/
theorem decode?_encode (s : String) : decode? (encode s) = some s := by
  have read (cs : List Char) :
      (pieces (cs.flatMap String.utf8EncodeChar)).mapM Piece.char? = some cs := by
    induction cs with
    | nil => rfl
    | cons c cs ih =>
      obtain ⟨width, first⟩ := exists_pieces_append c (cs.flatMap String.utf8EncodeChar)
      rw [List.flatMap_cons, first, List.mapM_cons, ih]
      rfl
  rw [decode?, encode, read]
  exact congrArg some String.ofList_toList

theorem mapM_char? {ps : List Piece}
    (unbroken : replacement ∉ ps.map fun p => p.char?.getD replacement) :
    ps.mapM Piece.char? = some (ps.map fun p => p.char?.getD replacement) := by
  induction ps with
  | nil => rfl
  | cons p ps ih =>
    rw [List.map_cons, List.mem_cons, not_or] at unbroken
    rw [List.mapM_cons, ih unbroken.2]
    cases read : p.char? with
    | none =>
      rw [read] at unbroken
      exact absurd rfl unbroken.1
    | some c => simp [read]

/-- The two readings are the same where the forgiving one replaces nothing. -/
theorem decode?_of_replacement_notMem {bs : Bytes}
    (unbroken : replacement ∉ (decodeLossy bs).toList) : decode? bs = some (decodeLossy bs) := by
  rw [decodeLossy, String.toList_ofList] at unbroken
  rw [decode?, mapM_char? unbroken]
  rfl

/-! ## Single bytes -/

theorem encode_append (s t : String) : encode (s ++ t) = encode s ++ encode t := by
  rw [encode, String.toList_append, List.flatMap_append, encode, encode]

theorem charNumber_lt (c : Char) : c.val.toNat < 0x110000 := by
  rcases c.valid with low | high
  · exact Nat.lt_trans low (by decide)
  · exact high.2

/-- A byte below 128 is part of no character but the one of that number. -/
theorem mem_encodeChar_iff {b : UInt8} (ascii : b.toNat < 128) {c : Char} :
    b ∈ String.utf8EncodeChar c ↔ c.toNat = b.toNat := by
  have bound := charNumber_lt c
  have number : c.toNat = c.val.toNat := rfl
  simp only [String.utf8EncodeChar, number]
  generalize c.val.toNat = v at *
  split_ifs <;>
    simp only [List.mem_cons, List.not_mem_nil, or_false, ← UInt8.toNat_inj] <;>
    simp (disch := omega) only [toNat_byte] <;>
    omega

theorem mem_encode_iff {b : UInt8} (ascii : b.toNat < 128) {s : String} :
    b ∈ encode s ↔ ∃ c ∈ s.toList, c.toNat = b.toNat := by
  simp only [encode, List.mem_flatMap, mem_encodeChar_iff ascii]

/-- The first byte of a text is part of its first character. -/
theorem exists_of_head?_encode {b : UInt8} {s : String} (first : b ∈ (encode s).head?) :
    ∃ c ∈ s.toList.head?, b ∈ String.utf8EncodeChar c := by
  unfold encode at first
  cases text : s.toList with
  | nil =>
    rw [text] at first
    cases first
  | cons c cs =>
    obtain ⟨d, ds, bytes⟩ := List.exists_cons_of_ne_nil (String.utf8EncodeChar_ne_nil (c := c))
    rw [text, List.flatMap_cons, bytes, List.cons_append] at first
    obtain rfl : d = b := Option.some.inj first
    exact ⟨c, rfl, bytes ▸ List.mem_cons_self⟩

/-- The last byte of a text is part of its last character. -/
theorem exists_of_getLast?_encode {b : UInt8} {s : String} (last : b ∈ (encode s).getLast?) :
    ∃ c ∈ s.toList.getLast?, b ∈ String.utf8EncodeChar c := by
  unfold encode at last
  rcases List.eq_nil_or_concat s.toList with text | ⟨cs, c, text⟩
  · rw [text] at last
    cases last
  · rw [List.concat_eq_append] at text
    have ends := List.getLast?_eq_some_getLast (String.utf8EncodeChar_ne_nil (c := c))
    rw [text, List.flatMap_append, List.flatMap_singleton, List.getLast?_append, ends] at last
    obtain rfl := Option.some.inj last
    exact ⟨c, by simp [text], List.getLast_mem _⟩

/-! ## Single bytes in broken text -/

section

variable {b : UInt8} {bs : Bytes} {total missing bits lo hi : Nat}

theorem lead?_spec {n : Nat} (announced : lead? n = some (total, bits, lo, hi)) :
    0 < total ∧ 0x80 ≤ lo := by
  unfold lead? at announced
  split_ifs at announced <;> grind

/-- The first bytes, as many as are counted, are not below 128. -/
def Passable (count : Nat) (bs : Bytes) : Prop := ∀ c ∈ bs.take count, 0x80 ≤ c.toNat

theorem passable_zero (bs : Bytes) : Passable 0 bs := by simp [Passable]

theorem passable_nil (count : Nat) : Passable count [] := by simp [Passable]

@[simp] theorem passable_succ {count : Nat} :
    Passable (count + 1) (b :: bs) ↔ 0x80 ≤ b.toNat ∧ Passable count bs := by
  simp [Passable]

theorem Passable.mono {count fewer : Nat} (h : Passable count bs) (le : fewer ≤ count) :
    Passable fewer bs :=
  fun c mem => h c (List.take_subset_take_left bs le mem)

/-- Past the bytes that were read before, the bytes of a piece are not below 128. -/
theorem passable_continuation (low : 0x80 ≤ lo) (some : missing ≤ total) :
    Passable ((continuation total missing bits lo hi bs).width - (total - missing)) bs := by
  induction missing generalizing bits lo hi bs with
  | zero =>
    rw [continuation, Piece.width, Nat.sub_zero, Nat.sub_self]
    exact passable_zero bs
  | succ missing ih =>
    cases bs with
    | nil => exact passable_nil _
    | cons b bs =>
      rw [continuation]
      split
      case isFalse =>
        rw [Piece.width, Nat.sub_self]
        exact passable_zero _
      case isTrue inside =>
        have rest : Passable ((continuation total missing (64 * bits + (b.toNat - 0x80)) 0x80 0xbf
            bs).width - (total - missing)) bs := ih (Nat.le_refl _) (Nat.le_of_succ_le some)
        exact (passable_succ.2 ⟨Nat.le_trans low inside.1, rest⟩).mono (by omega)

theorem passable_piece (b : UInt8) (bs : Bytes) : Passable ((piece b bs).width - 1) bs := by
  unfold piece
  split
  case h_1 total bits lo hi announced =>
    obtain ⟨some, low⟩ := lead?_spec announced
    have passable : Passable ((continuation total (total - 1) bits lo hi bs).width -
        (total - (total - 1))) bs := passable_continuation low (Nat.sub_le total 1)
    rwa [Nat.sub_sub_self some] at passable
  case h_2 => exact passable_zero bs

theorem mem_piecesAfter_of_ascii (ascii : b.toNat < 0x80) {passed : Nat} (mem : b ∈ bs)
    (passable : Passable passed bs) :
    ∃ p ∈ piecesAfter passed bs, p.char? = some (Char.ofNat b.toNat) := by
  induction bs generalizing passed with
  | nil => cases mem
  | cons c bs ih =>
    cases passed with
    | succ passed =>
      obtain ⟨first, rest⟩ := passable_succ.1 passable
      rcases List.mem_cons.1 mem with rfl | later
      · omega
      · exact ih later rest
    | zero =>
      rw [piecesAfter]
      rcases List.mem_cons.1 mem with rfl | later
      · have lead : lead? b.toNat = some (1, b.toNat, 0x80, 0xbf) := if_pos ascii
        refine ⟨_, List.mem_cons_self, ?_⟩
        rw [piece, lead]
        rfl
      · obtain ⟨p, inRest, read⟩ := ih later (passable_piece c bs)
        exact ⟨p, List.mem_cons_of_mem _ inRest, read⟩

/-- A byte below 128 is a character of its own, whatever is around it. -/
theorem mem_decodeLossy_of_ascii (ascii : b.toNat < 0x80) (mem : b ∈ bs) :
    Char.ofNat b.toNat ∈ (decodeLossy bs).toList := by
  obtain ⟨p, inPieces, read⟩ := mem_piecesAfter_of_ascii ascii mem (passable_zero bs)
  rw [decodeLossy, String.toList_ofList]
  exact List.mem_map.2 ⟨p, inPieces, by rw [read]; rfl⟩

end

/-! ## Order -/

/-- Numbers compare as their digits to the base 64 do, from the first that differs. -/
theorem sextets_lt {v w : Nat} (h : v < w) :
    v / 262144 < w / 262144 ∨ v / 262144 = w / 262144 ∧
      (v / 4096 % 64 < w / 4096 % 64 ∨ v / 4096 % 64 = w / 4096 % 64 ∧
        (v / 64 % 64 < w / 64 % 64 ∨ v / 64 % 64 = w / 64 % 64 ∧ v % 64 < w % 64)) := by
  have step {a b : Nat} (h : a < b) : a / 64 < b / 64 ∨ a / 64 = b / 64 ∧ a % 64 < b % 64 := by
    omega
  have twice (n : Nat) : n / 4096 = n / 64 / 64 := by omega
  have thrice (n : Nat) : n / 262144 = n / 64 / 64 / 64 := by omega
  simp only [twice, thrice]
  rcases step h with h | ⟨same, last⟩
  · rcases step h with h | ⟨same, third⟩
    · rcases step h with first | ⟨same, second⟩
      · exact .inl first
      · exact .inr ⟨same, .inl second⟩
    · rw [same]
      exact .inr ⟨rfl, .inr ⟨rfl, .inl third⟩⟩
  · rw [same]
    exact .inr ⟨rfl, .inr ⟨rfl, .inr ⟨rfl, last⟩⟩⟩

/-- The lesser of two characters has the lesser byte where their encodings first differ, which is
before either of them ends. -/
theorem encodeChar_append_lt {c d : Char} (h : c < d) (xs ys : Bytes) :
    String.utf8EncodeChar c ++ xs < String.utf8EncodeChar d ++ ys := by
  have before : c.val.toNat < d.val.toNat := h
  have bound := charNumber_lt d
  simp only [String.utf8EncodeChar]
  generalize c.val.toNat = v at *
  generalize d.val.toNat = w at *
  have sextets := sextets_lt before
  have topV : v / 262144 % 8 = v / 262144 := Nat.mod_eq_of_lt (by omega)
  have topW : w / 262144 % 8 = w / 262144 := Nat.mod_eq_of_lt (by omega)
  split_ifs <;>
    simp only [List.cons_append, List.nil_append, List.cons_lt_cons_iff, UInt8.lt_iff_toNat_lt,
      ← UInt8.toNat_inj] <;>
    simp (disch := omega) only [toNat_byte, topV, topW] <;>
    omega

theorem flatMap_encodeChar_lt {cs ds : List Char} (h : cs < ds) :
    cs.flatMap String.utf8EncodeChar < ds.flatMap String.utf8EncodeChar := by
  induction h with
  | @nil d _ =>
    obtain ⟨b, bs, bytes⟩ := List.exists_cons_of_ne_nil (String.utf8EncodeChar_ne_nil (c := d))
    rw [List.flatMap_cons, bytes]
    exact List.nil_lt_cons b _
  | rel before => exact encodeChar_append_lt before _ _
  | cons _ ih => exact List.append_left_lt ih

/-- Texts that are in order character by character are so byte by byte. -/
theorem encode_lt_encode {s t : String} (h : s < t) : encode s < encode t :=
  flatMap_encodeChar_lt h

end ContentionChart.Utf8
