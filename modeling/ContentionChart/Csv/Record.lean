import ContentionChart.Text.Utf8

/-!
# Records of comma-separated text

Bytes are cut into records and records into fields. A record ends at a line feed, a carriage return
or both together, and lines without a byte are passed over. Fields are separated by commas. A double
quote opens a quoted stretch only as the first byte of a field; there commas and line ends are part
of the field and a quote is written twice. After the closing quote the field may go on unquoted. The
end of the text closes what is open.

## Main definitions

* `RawRecord` — the fields of a record as bytes, and where it stands.
* `Scanner.step` — the reading of one byte.
* `scan` — all records of a text.
-/

namespace ContentionChart.Csv

open Utf8 (Bytes)

/-- How many bytes are before a place, and the number of its line, from one. -/
structure Position where
  byte : Nat
  line : Nat
  deriving DecidableEq, Repr

/-- A record with untrimmed fields. It begins where the record before it ended, ahead of the empty
lines between them. -/
structure RawRecord where
  fields : List Bytes
  start : Position
  deriving DecidableEq

def comma : UInt8 := 0x2c

def quote : UInt8 := 0x22

def lineFeed : UInt8 := 0xa

def carriageReturn : UInt8 := 0xd

def isLineEnd (b : UInt8) : Bool := b == lineFeed || b == carriageReturn

/-- Where in a record a reader stands. -/
inductive Place where
  /-- Between two records. -/
  | between
  /-- At the first byte of a field that follows a comma. -/
  | fieldStart
  /-- In an unquoted stretch of a field. -/
  | bare
  /-- In a quoted stretch of a field. -/
  | quoted
  /-- After a quote in a quoted stretch, which may be the closing one. -/
  | afterQuote
  deriving DecidableEq, Repr

/-- A reader on its way through a text. What it has collected is kept in reverse: the bytes of the
field, the fields of the record, and the records before it. -/
structure Scanner where
  place : Place
  field : Bytes
  fields : List Bytes
  start : Position
  here : Position
  records : List RawRecord
  deriving DecidableEq

namespace Scanner

/-- A reader at the first byte of the text proper, `skipped` bytes after the true beginning. -/
def initial (skipped : Nat) : Scanner :=
  ⟨.between, [], [], ⟨0, 1⟩, ⟨skipped, 1⟩, []⟩

def append (s : Scanner) (place : Place) (b : UInt8) : Scanner :=
  { s with place, field := b :: s.field }

def endField (s : Scanner) : Scanner :=
  { s with place := .fieldStart, field := [], fields := s.field.reverse :: s.fields }

/-- The record that ends here. -/
def record (s : Scanner) : RawRecord := ⟨(s.field.reverse :: s.fields).reverse, s.start⟩

def endRecord (s : Scanner) : Scanner :=
  ⟨.between, [], [], s.here, s.here, s.record :: s.records⟩

/-- A byte after which an unquoted field may end or go on. -/
def bareByte (s : Scanner) (b : UInt8) : Scanner :=
  if b = comma then s.endField
  else if isLineEnd b then s.endRecord
  else s.append .bare b

def advance (s : Scanner) (b : UInt8) : Scanner :=
  { s with here := ⟨s.here.byte + 1, if b = lineFeed then s.here.line + 1 else s.here.line⟩ }

/-- Read one byte. -/
def step (s : Scanner) (b : UInt8) : Scanner :=
  let s := s.advance b
  match s.place with
  | .between =>
    if isLineEnd b then s else if b = quote then { s with place := .quoted } else s.bareByte b
  | .fieldStart => if b = quote then { s with place := .quoted } else s.bareByte b
  | .bare => s.bareByte b
  | .quoted => if b = quote then { s with place := .afterQuote } else s.append .quoted b
  | .afterQuote => if b = quote then s.append .quoted b else s.bareByte b

/-- The record that the end of the text closes, if one is open. -/
def openRecord? (s : Scanner) : Option RawRecord :=
  if s.place = .between then none else some s.record

end Scanner

/-- The bytes that may stand at the very beginning of a text to mark it as UTF-8. -/
def byteOrderMark : Bytes := [0xef, 0xbb, 0xbf]

/-- Read a whole text, without the mark at its beginning. -/
def scan (bytes : Bytes) : Scanner :=
  match byteOrderMark.isPrefixOf? bytes with
  | some rest => rest.foldl Scanner.step (.initial byteOrderMark.length)
  | none => bytes.foldl Scanner.step (.initial 0)

/-- The records that a line end closes. -/
def closedRecords (bytes : Bytes) : List RawRecord := (scan bytes).records.reverse

/-- All records, with the one that the end of the text closes. -/
def records (bytes : Bytes) : List RawRecord :=
  closedRecords bytes ++ (scan bytes).openRecord?.toList

end ContentionChart.Csv
