/-!
# Texts for a terminal

A terminal takes some control characters as commands. In a text that is only to be shown they are
written by their numbers.

## Main definitions

* `forTerminal` — a text without commands.
-/

namespace ContentionChart.Text

/-- How a character is shown: the bell, the backspace, the form feed, the escape and the delete
character by a number of two digits, and the controls past ASCII by one between braces. -/
def showOnTerminal (c : Char) : List Char :=
  match c with
  | '\x07' => ['\\', 'x', '0', '7']
  | '\x08' => ['\\', 'x', '0', '8']
  | '\x0c' => ['\\', 'x', '0', 'c']
  | '\x1b' => ['\\', 'x', '1', 'b']
  | '\x7f' => ['\\', 'x', '7', 'f']
  | _ =>
    if 0x80 ≤ c.toNat ∧ c.toNat ≤ 0x9f then
      ['\\', 'u', '\x7b'] ++ Nat.toDigits 16 c.toNat ++ ['\x7d']
    else [c]

/-- A text in which nothing is a command for the terminal. -/
def forTerminal (s : String) : String := String.ofList (s.toList.flatMap showOnTerminal)

end ContentionChart.Text
