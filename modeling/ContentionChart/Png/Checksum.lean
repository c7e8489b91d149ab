import ContentionChart.Text.Utf8

/-!
# Checksums

The two check codes in a PNG: the cyclic redundancy code of a chunk and the Adler sum of the
compressed samples.
-/

namespace ContentionChart.Checksum

open Utf8 (Bytes)

/-- One bit of the division by the polynomial. -/
def crcBit (r : UInt32) : UInt32 :=
  if r &&& 1 = 1 then (r >>> 1) ^^^ 0xedb88320 else r >>> 1

def crcByte (r : UInt32) (b : UInt8) : UInt32 :=
  (List.range 8).foldl (fun r _ => crcBit r) (r ^^^ b.toUInt32)

/-- The cyclic redundancy code of 32 bits. -/
def crc (bytes : Bytes) : UInt32 := bytes.foldl crcByte 0xffffffff ^^^ 0xffffffff

/-- The sum of the bytes and the sum of those sums, both starting from one byte of one. -/
def adlerSums (bytes : Bytes) : Nat × Nat :=
  bytes.foldl (fun (a, b) x => ((a + x.toNat) % 65521, (b + a + x.toNat) % 65521)) (1, 0)

def adler (bytes : Bytes) : UInt32 :=
  let (a, b) := adlerSums bytes
  UInt32.ofNat (65536 * b + a)

end ContentionChart.Checksum
