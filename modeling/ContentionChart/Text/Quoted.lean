import ContentionChart.Text.Printable

/-!
# Quoted texts

A text between double quotes on a single line, for diagnostics. Quotes and backslashes take a
backslash in front, the common control characters have a letter each, and other characters that
cannot be printed are written by their number.

## Main definitions

* `quoted` — a text in quotes.
* `quotedList` — a list of texts between brackets.
-/

namespace ContentionChart.Text

/-- How a character is written between quotes. -/
def escape (c : Char) : List Char :=
  match c with
  | '\x00' => ['\\', '0']
  | '\t' => ['\\', 't']
  | '\r' => ['\\', 'r']
  | '\n' => ['\\', 'n']
  | '\\' => ['\\', '\\']
  | '"' => ['\\', '"']
  | _ =>
    if isPrintable c then [c]
    else ['\\', 'u', '\x7b'] ++ Nat.toDigits 16 c.toNat ++ ['\x7d']

def quoted (s : String) : String :=
  String.ofList ('"' :: s.toList.flatMap escape ++ ['"'])

def quotedList (xs : List String) : String := "[" ++ ", ".intercalate (xs.map quoted) ++ "]"

end ContentionChart.Text
