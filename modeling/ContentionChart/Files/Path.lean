import ContentionChart.Text.Utf8

/-!
# Paths

A path is a sequence of bytes, cut into segments by slashes. An empty segment and a single dot stand
for nothing but a directory that is already reached; a leading slash starts at the root.

## Main definitions

* `Path.segments` — the segments of a path.
* `Path.parent?` — the path without its last component.
* `Path.fileName?`, `Path.extension?` — the last component and what follows its last dot.
-/

namespace ContentionChart

open Utf8 (Bytes)

/-- A path, as its bytes. -/
structure Path where
  bytes : Bytes
  deriving DecidableEq

namespace Path

def slash : UInt8 := 0x2f

def dot : UInt8 := 0x2e

def ofString (s : String) : Path := ⟨Utf8.encode s⟩

/-- The path as text, for reports; bytes that are not UTF-8 are replaced. -/
def text (p : Path) : String := Utf8.decodeLossy p.bytes

def isEmpty (p : Path) : Bool := p.bytes.isEmpty

/-- The stretches between slashes; there is at least one. -/
def splitSlashes : Bytes → List Bytes
  | [] => [[]]
  | b :: bs =>
    if b = slash then [] :: splitSlashes bs
    else
      match splitSlashes bs with
      | [] => [[b]]
      | segment :: segments => (b :: segment) :: segments

def segments (p : Path) : List Bytes := splitSlashes p.bytes

def joinSegments (segments : List Bytes) : Bytes := [slash].intercalate segments

theorem splitSlashes_ne_nil (bytes : Bytes) : splitSlashes bytes ≠ [] := by
  cases bytes with
  | nil => simp [splitSlashes]
  | cons b bs =>
    rw [splitSlashes]
    split
    · simp
    · split <;> simp

/-- The segments are all there is to a path. -/
@[simp] theorem joinSegments_splitSlashes (bytes : Bytes) :
    joinSegments (splitSlashes bytes) = bytes := by
  induction bytes with
  | nil => rfl
  | cons b bs ih =>
    rw [splitSlashes]
    cases parts : splitSlashes bs with
    | nil => exact absurd parts (splitSlashes_ne_nil bs)
    | cons segment rest =>
      rw [parts, joinSegments] at ih
      split
      · rename_i atSlash
        simp [joinSegments, ih, atSlash]
      · cases rest <;> simp_all [joinSegments]

def isAbsolute (p : Path) : Bool := p.bytes.head? == some slash

/-- A segment that stays where it is. -/
def isIdle (segment : Bytes) : Bool := segment = [] ∨ segment = [dot]

def isUp (segment : Bytes) : Bool := segment = [dot, dot]

/-- Leave out the idle segments at the end. -/
def dropIdle (segments : List Bytes) : List Bytes := (segments.reverse.dropWhile isIdle).reverse

/-- The segment in front that marks a path as starting at the root or here, and the others. -/
def splitLead (p : Path) : Option Bytes × List Bytes :=
  match p.segments with
  | [] => (none, [])
  | first :: rest =>
    if p.isAbsolute ∨ first = [dot] then (some first, rest) else (none, first :: rest)

/-- The path without its last component and without what is idle before it. The root and the empty
path have none. A component alone has the empty path. -/
def parent? (p : Path) : Option Path :=
  let (lead, rest) := p.splitLead
  match dropIdle rest, lead with
  | [], some [] => none
  | [], some _ => some ⟨[]⟩
  | [], none => none
  | rest, some [] => some ⟨slash :: joinSegments (dropIdle rest.dropLast)⟩
  | rest, some lead => some ⟨joinSegments (lead :: dropIdle rest.dropLast)⟩
  | rest, none => some ⟨joinSegments (dropIdle rest.dropLast)⟩

/-- The last component, unless it leads up. -/
def fileName? (p : Path) : Option Bytes :=
  ((dropIdle p.splitLead.2).getLast?).filter fun name => !isUp name

/-- What follows the last dot of the last component. A dot in front of the whole name does not
count. -/
def extension? (p : Path) : Option Bytes := do
  let name ← p.fileName?
  let after := name.reverse.takeWhile (· ≠ dot)
  let before := name.take (name.length - after.length - 1)
  if before = [] then none else some after.reverse

def lowerByte (b : UInt8) : UInt8 := if 0x41 ≤ b ∧ b ≤ 0x5a then b + 0x20 else b

/-- The path names a file with the given extension, in letters of any case. -/
def hasExtension (p : Path) (extension : String) : Bool :=
  (p.extension?).any fun e => e.map lowerByte == (Utf8.encode extension).map lowerByte

/-- The path, its parent, the parent of that, and so on. Each is shorter than the one before. -/
def ancestorsWithin : Nat → Path → List Path
  | 0, _ => []
  | fuel + 1, p =>
    p :: match p.parent? with
      | none => []
      | some parent => ancestorsWithin fuel parent

def ancestors (p : Path) : List Path := ancestorsWithin (p.bytes.length + 1) p

end Path

end ContentionChart
