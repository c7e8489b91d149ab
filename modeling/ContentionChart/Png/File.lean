import ContentionChart.Png.Basic
import ContentionChart.Png.Checksum

/-!
# PNG files

The bytes of a PNG file that shows an image at a given resolution. The samples are kept
uncompressed, in stored blocks. The files that are written here can be read back.

## Main definitions

* `Png.encode` — the file of an image.
* `Png.decode?` — the image in such a file, with its resolution.
-/

namespace ContentionChart.Png

open Utf8 (Bytes)

/-- A number in the given count of bytes, the highest first. -/
def bigEndian : Nat → Nat → Bytes
  | 0, _ => []
  | count + 1, n => bigEndian count (n / 256) ++ [UInt8.ofNat n]

def ofBigEndian (bytes : Bytes) : Nat := bytes.foldl (fun n b => 256 * n + b.toNat) 0

def signature : Bytes := [0x89, 0x50, 0x4e, 0x47, 0xd, 0xa, 0x1a, 0xa]

/-- A chunk: the length of its data, its name, its data and their check code. -/
def chunk (name : String) (data : Bytes) : Bytes :=
  let body := Utf8.encode name ++ data
  bigEndian 4 data.length ++ body ++ bigEndian 4 (Checksum.crc body).toNat

/-- Eight bits per sample, three samples per pixel, the usual compression and filters, and no
interlacing. -/
def headerData (image : Image) : Bytes :=
  bigEndian 4 image.width ++ bigEndian 4 image.height ++ [8, 2, 0, 0, 0]

/-- The resolution of both sides in pixels per metre. -/
def resolutionData (pixelsPerMetre : Nat) : Bytes :=
  bigEndian 4 pixelsPerMetre ++ bigEndian 4 pixelsPerMetre ++ [1]

/-- The rows of samples, each after the byte for no filter. -/
def filteredRows (rowLength : Nat) : Nat → Bytes → Bytes
  | 0, _ => []
  | rows + 1, samples =>
    0 :: samples.take rowLength ++ filteredRows rowLength rows (samples.drop rowLength)

def maxBlock : Nat := 65535

/-- A block of bytes that are stored as they are. -/
def storedBlock (last : Bool) (data : Bytes) : Bytes :=
  let length := (bigEndian 2 data.length).reverse
  (if last then 1 else 0) :: length ++ length.map (~~~ ·) ++ data

def storedBlocks : Nat → Bytes → Bytes
  | 0, data => storedBlock true data
  | more + 1, data => storedBlock false (data.take maxBlock) ++ storedBlocks more (data.drop maxBlock)

/-- A compressed stream that is not in fact compressed. -/
def stored (data : Bytes) : Bytes :=
  [0x78, 0x01] ++ storedBlocks ((data.length - 1) / maxBlock) data ++
    bigEndian 4 (Checksum.adler data).toNat

/-- The file of an image. -/
def encode (pixelsPerMetre : Nat) (image : Image) : Bytes :=
  signature ++ chunk "IHDR" (headerData image) ++ chunk "pHYs" (resolutionData pixelsPerMetre) ++
    chunk "IDAT" (stored (filteredRows (3 * image.width) image.height image.samples)) ++
    chunk "IEND" []

/-! ## Reading back -/

/-- The first bytes and the others, if there are enough. -/
def split? (count : Nat) (bytes : Bytes) : Option (Bytes × Bytes) :=
  if count ≤ bytes.length then some (bytes.splitAt count) else none

/-- The data of a chunk with the given name at the front, and what follows it. -/
def chunk? (name : String) (bytes : Bytes) : Option (Bytes × Bytes) := do
  let (length, rest) ← split? 4 bytes
  let (body, rest) ← split? (4 + ofBigEndian length) rest
  let (code, rest) ← split? 4 rest
  let (found, data) := body.splitAt 4
  if found = Utf8.encode name ∧ ofBigEndian code = (Checksum.crc body).toNat then some (data, rest)
  else none

/-- The data of stored blocks at the front, and what follows the last. The fuel bounds the number
of blocks. -/
def storedBlocks? : Nat → Bytes → Option (Bytes × Bytes)
  | 0, _ => none
  | fuel + 1, bytes => do
    let (front, rest) ← split? 5 bytes
    let length := ofBigEndian ((front.drop 1).take 2).reverse
    let (data, rest) ← split? length rest
    if front.take 1 = [1] then some (data, rest)
    else
      let (more, rest) ← storedBlocks? fuel rest
      some (data ++ more, rest)

def stored? (bytes : Bytes) : Option Bytes := do
  let (data, code) ← storedBlocks? bytes.length (bytes.drop 2)
  if ofBigEndian code = (Checksum.adler data).toNat then some data else none

/-- The rows of samples without the bytes for no filter. -/
def unfilteredRows (rowLength : Nat) : Nat → Bytes → Bytes
  | 0, _ => []
  | rows + 1, bytes =>
    (bytes.drop 1).take rowLength ++ unfilteredRows rowLength rows (bytes.drop (rowLength + 1))

/-- The image in a file, and its pixels per metre across and down. -/
def decode? (bytes : Bytes) : Option (Image × Nat × Nat) := do
  let (found, rest) ← split? signature.length bytes
  if found ≠ signature then none
  else
    let (header, rest) ← chunk? "IHDR" rest
    let (resolution, rest) ← chunk? "pHYs" rest
    let (data, rest) ← chunk? "IDAT" rest
    let _ ← chunk? "IEND" rest
    let width := ofBigEndian (header.take 4)
    let height := ofBigEndian ((header.drop 4).take 4)
    let rows ← stored? data
    some (⟨width, height, unfilteredRows (3 * width) height rows⟩,
      ofBigEndian (resolution.take 4), ofBigEndian ((resolution.drop 4).take 4))

end ContentionChart.Png
