import ContentionChart.Decimal.Count
import ContentionChart.Event
import ContentionChart.Text.Alphanumeric
import ContentionChart.Text.Blank

/-!
# Directives of a log filter

A directive says which reports it is about and how quiet the quietest of them is that is shown. It is
written as the beginning of the names of some parts of the program, then a span of the run between
brackets and a field of the reports between braces inside them, then an equals sign and a level.
Most of this may be missing. A word alone is a level if it can be one.

The parts are found without the blanks around the directive. Their places are then counted from the
very beginning, so that a blank in front shifts all of them.

## Main definitions

* `LogDirective.parse?` — a directive from text.
* `LogDirective.concerns` — whether a directive is about the reports of a part of the program.
* `LogDirective.precision` — which of two directives counts.
-/

namespace ContentionChart

open Utf8 (Bytes)

/-- The reports of the parts of the program whose names begin with `source`, or of all of them, that
have the given field, and the quietest level that is shown of them, or none at all. -/
structure LogDirective where
  source : Option String
  field : Option String
  /-- Only what is reported in some span of the run is meant. -/
  inSpan : Bool
  limit : Option Level
  deriving DecidableEq, Repr

namespace LogDirective

/-- A directive about all reports. -/
def everything (limit : Option Level) : LogDirective := ⟨none, none, false, limit⟩

/-! ## Levels -/

/-- The limits by number. -/
def limits : List (Option Level) :=
  [none, some .error, some .warn, some .info, some .debug, some .trace]

/-- The limit with a number, or with a name in letters of any case. -/
def limit? (s : String) : Option (Option Level) :=
  match parseCount s with
  | .ok n => limits[n]?
  | .error _ =>
    match s.toLower with
    | "off" => some none
    | "error" => some (some .error)
    | "warn" => some (some .warn)
    | "info" => some (some .info)
    | "debug" => some (some .debug)
    | "trace" => some (some .trace)
    | _ => none

/-- A limit that may be left out, which shows everything. -/
def limitOrAll? (s : String) : Option (Option Level) :=
  if s.isEmpty then some (some .trace) else limit? s

/-! ## Parts of a directive -/

/-- The number of bytes of some characters. -/
def width (cs : List Char) : Nat := (Utf8.encode (String.ofList cs)).length

/-- The text from one byte to another, unless that cuts a character. -/
def part? (text : Bytes) (start stop : Nat) : Option String :=
  Utf8.decode? ((text.take stop).drop start)

/-- A directive may begin with a letter, a digit, a dash, a colon or an underscore. -/
def isFirst (c : Char) : Bool := Text.isAlphanumeric c || c == '-' || c == ':' || c == '_'

/-- A word alone is a limit for all reports, or else a part of the program that shows everything. -/
def ofWord (s : String) : LogDirective :=
  match limit? s with
  | some limit => everything limit
  | none => ⟨some s, none, false, some .trace⟩

/-- A directive whose remaining characters, which begin at the given byte, are an equals sign and a
limit, or none. -/
def withLimit? (text : Bytes) (start : Nat) (d : LogDirective) : List Char → Option LogDirective
  | [] => some d
  | '=' :: _ => do
    let limit ← limitOrAll? (← part? text (start + 1) text.length)
    some { d with limit }
  | _ => none

/-- The name of a field, and whether a value is asked for too, which only a span can have. -/
def splitField (s : String) : String × Bool :=
  (String.ofList (s.toList.takeWhile (· ≠ '=')), s.toList.contains '=')

/-- A directive whose remaining characters begin at the given byte, after an opening bracket. -/
def withSpan? (text : Bytes) (source : Option String) (start : Nat) (cs : List Char) :
    Option LogDirective := do
  let (span, rest) := cs.span fun c => c ≠ ']' ∧ c ≠ '\x7b'
  let stop := start + width span
  match rest with
  | ']' :: rest => withLimit? text (stop + 1) ⟨source, none, true, some .trace⟩ rest
  | '\x7b' :: rest =>
    let (field, rest) := rest.span (· ≠ '\x7d')
    let last := stop + 1 + width field
    let spanName ← part? text start stop
    let fieldText ← part? text (stop + 1) last
    match rest with
    | '\x7d' :: ']' :: rest =>
      if fieldText.isEmpty then none
      else
        let (name, valued) := splitField fieldText
        withLimit? text (last + 2) ⟨source, some name, !spanName.isEmpty || valued, some .trace⟩ rest
    | _ => none
  | _ => none

/-- A directive of which the characters without the blanks around them are given. -/
def ofTrimmed? (text : Bytes) : List Char → Option LogDirective
  | [] => none
  | '[' :: rest => withSpan? text none 1 rest
  | c :: cs =>
    if !isFirst c then none
    else
      let (name, rest) := (c :: cs).span fun c => c ≠ '=' ∧ c ≠ '['
      let size := width name
      match rest with
      | [] => (part? text 0 text.length).map ofWord
      | '[' :: rest => do withSpan? text (some (← part? text 0 size)) (size + 1) rest
      | rest => do
        withLimit? text size ⟨some (← part? text 0 size), none, false, some .trace⟩ rest

/-- A directive from text. -/
def parse? (s : String) : Option LogDirective :=
  ofTrimmed? (Utf8.encode s) (Text.trimList Text.isBlank s.toList)

/-! ## Reports -/

/-- The fields of a report. -/
def reportFields : List String := ["message"]

/-- Whether a directive is about the reports of a part of the program. They are not made in any
span. -/
def concerns (d : LogDirective) (source : String) : Bool :=
  !d.inSpan && d.source.all (fun name => name.toList.isPrefixOf source.toList) &&
    d.field.all reportFields.contains

/-- The longer the name, the more precise is a directive, and a field makes it more precise than the
same name without one. -/
def precision (d : LogDirective) : Nat :=
  (match d.source with
    | none => 0
    | some name => 2 * (name.length + 1)) +
  if d.field.isSome then 1 else 0

end LogDirective

end ContentionChart
