import ContentionChart.Csv.Record
import ContentionChart.Text.Blank

/-!
# Tables in comma-separated text

The first record of a text is its header and the others are its rows. Fields are decoded from UTF-8
and trimmed. A row with a field that cannot be decoded is lost, and reading goes on with the next;
a header with one is an error, and so is anything that ends the reading before the text does.

## Main definitions

* `Fault` — what can be wrong with a header or a row.
* `Row` — what reading gives for one row.
* `Table.ofBytes` — the header and the rows of a text.
-/

namespace ContentionChart.Csv

open Utf8 (Bytes)

/-- Why a record could not be had. -/
inductive Fault where
  /-- Reading broke off. -/
  | unreadable (cause : String)
  /-- A field is not UTF-8 past its first `validLength` bytes. The header is record zero. -/
  | undecodable (record : Nat) (start : Position) (field : Nat) (validLength : Nat)
  deriving DecidableEq

def Fault.message : Fault → String
  | .unreadable cause => cause
  | .undecodable record start field validLength =>
    "CSV parse error: record " ++ toString record ++ " (line " ++ toString start.line ++
      ", field: " ++ toString field ++ ", byte: " ++ toString start.byte ++
      "): invalid utf-8: invalid UTF-8 in field " ++ toString field ++ " near byte index " ++
      toString validLength

/-- A row is its trimmed fields, or is lost, or is the point where reading broke off. -/
inductive Row where
  | fields (values : List String)
  | lost (fault : Fault)
  | brokenOff (cause : String)
  deriving DecidableEq

/-- The header, and the rows in their order. -/
structure Table where
  header : Except Fault (List String)
  rows : List Row

/-- The white space of ASCII: space, tab, line feed, form feed and carriage return. -/
def isAsciiBlank (b : UInt8) : Bool :=
  b == 0x20 || b == 0x9 || b == 0xa || b == 0xc || b == 0xd

/-- Decode the fields of a record, the first of them having the given index. -/
def decodeFields (record : Nat) (start : Position) : Nat → List Bytes → Except Fault (List String)
  | _, [] => .ok []
  | index, field :: fields =>
    match Utf8.decode? field with
    | none => .error (.undecodable record start index (Utf8.validLength field))
    | some text => (decodeFields record start (index + 1) fields).map (Text.trim text :: ·)

/-- The names of the columns. -/
def decodeHeader (r : RawRecord) : Except Fault (List String) := decodeFields 0 r.start 0 r.fields

/-- A row, given its number. White space of ASCII goes before the decoding, so that a fault is
counted from the first byte that is left. -/
def decodeRow (number : Nat) (r : RawRecord) : Row :=
  match decodeFields number r.start 0 (r.fields.map (Text.trimList isAsciiBlank)) with
  | .ok values => .fields values
  | .error fault => .lost fault

/-- The rows of the records after the header, numbered from one. -/
def decodeRows (rs : List RawRecord) : List Row := rs.mapIdx fun i r => decodeRow (i + 1) r

/-- The table in a text that was read to its end. A text without any record has no columns. -/
def Table.ofBytes (bytes : Bytes) : Table :=
  match records bytes with
  | [] => ⟨.ok [], []⟩
  | header :: rows => ⟨decodeHeader header, decodeRows rows⟩

/-- The table in a text whose reading broke off after the given bytes. A record that no line end
has closed by then is not seen. Bytes that are nothing but the mark at the beginning count as a text
that was read to its end. -/
def Table.ofBrokenOff (bytes : Bytes) (cause : String) : Table :=
  if bytes = byteOrderMark then ofBytes bytes
  else
    match closedRecords bytes with
    | [] => ⟨.error (.unreadable cause), []⟩
    | header :: rows => ⟨decodeHeader header, decodeRows rows ++ [.brokenOff cause]⟩

/-- What a reader gives: the bytes, and why there are no more of them if the text goes on. -/
structure Source where
  bytes : Bytes
  brokenOff : Option String
  deriving DecidableEq

def Table.ofSource (source : Source) : Table :=
  match source.brokenOff with
  | none => ofBytes source.bytes
  | some cause => ofBrokenOff source.bytes cause

end ContentionChart.Csv
