/-!
# UTF-8

A sequence of bytes is cut into pieces, each of them either a character in its one well-formed
encoding or a broken piece. A broken piece is as long as some well-formed encoding could have begun
with it, and one byte at least. From the pieces follow the strict reading, the length of the
well-formed front, and the forgiving reading, in which each broken piece is one replacement
character.

## Main definitions

* `encode` — the bytes of a text.
* `pieces` — how a sequence of bytes is cut.
* `decode?`, `validLength`, `decodeLossy` — the three readings.
-/

namespace ContentionChart.Utf8

abbrev Bytes := List UInt8

def encode (s : String) : Bytes := s.toList.flatMap String.utf8EncodeChar

/-- A character and the number of its bytes, or the number of bytes that make no character. -/
inductive Piece where
  | char (c : Char) (width : Nat)
  | broken (width : Nat)
  deriving DecidableEq

namespace Piece

def width : Piece → Nat
  | char _ width => width
  | broken width => width

def char? : Piece → Option Char
  | char c _ => some c
  | broken _ => none

end Piece

/-- How many bytes the first byte announces, the bits of the character in it, and the bounds of the
byte that follows; these rule out surrogates, numbers past the last character and encodings longer
than needed. -/
def lead? (b : Nat) : Option (Nat × Nat × Nat × Nat) :=
  if b < 0x80 then some (1, b, 0x80, 0xbf)
  else if b < 0xc2 then none
  else if b < 0xe0 then some (2, b - 0xc0, 0x80, 0xbf)
  else if b = 0xe0 then some (3, 0, 0xa0, 0xbf)
  else if b = 0xed then some (3, 0xd, 0x80, 0x9f)
  else if b < 0xf0 then some (3, b - 0xe0, 0x80, 0xbf)
  else if b = 0xf0 then some (4, 0, 0x90, 0xbf)
  else if b = 0xf4 then some (4, 4, 0x80, 0x8f)
  else if b < 0xf4 then some (4, b - 0xf0, 0x80, 0xbf)
  else none

/-- The rest of a character of `total` bytes, `missing` of which are still to come; the next of
them lies between `lo` and `hi`. -/
def continuation (total : Nat) : Nat → Nat → Nat → Nat → Bytes → Piece
  | 0, bits, _, _, _ => .char (Char.ofNat bits) total
  | missing + 1, _, _, _, [] => .broken (total - (missing + 1))
  | missing + 1, bits, lo, hi, b :: bs =>
    if lo ≤ b.toNat ∧ b.toNat ≤ hi then
      continuation total missing (64 * bits + (b.toNat - 0x80)) 0x80 0xbf bs
    else .broken (total - (missing + 1))

/-- The piece that begins with the given byte. -/
def piece (b : UInt8) (bs : Bytes) : Piece :=
  match lead? b.toNat with
  | some (total, bits, lo, hi) => continuation total (total - 1) bits lo hi bs
  | none => .broken 1

/-- The pieces of a sequence of which the first bytes are to be passed over. -/
def piecesAfter : Nat → Bytes → List Piece
  | _, [] => []
  | passed + 1, _ :: bs => piecesAfter passed bs
  | 0, b :: bs =>
    let p := piece b bs
    p :: piecesAfter (p.width - 1) bs

def pieces (bs : Bytes) : List Piece := piecesAfter 0 bs

/-- The text that the bytes encode, if they are well-formed throughout. -/
def decode? (bs : Bytes) : Option String :=
  ((pieces bs).mapM Piece.char?).map String.ofList

/-- The number of bytes in front of the first broken piece. -/
def validLength (bs : Bytes) : Nat :=
  ((pieces bs).takeWhile fun p => p.char?.isSome).foldl (fun n p => n + p.width) 0

/-- What stands for a broken piece. -/
def replacement : Char := Char.ofNat 0xfffd

def decodeLossy (bs : Bytes) : String :=
  String.ofList ((pieces bs).map fun p => p.char?.getD replacement)

end ContentionChart.Utf8
