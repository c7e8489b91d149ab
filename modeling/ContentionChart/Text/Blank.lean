/-!
# Blank characters

The white space that may stand around a field or a number: the characters with the Unicode property
`White_Space`.

## Main definitions

* `isBlank` — the property.
* `trim` — a text without the blanks at both ends.
-/

namespace ContentionChart.Text

/-- The characters with the property `White_Space`. -/
def isBlank (c : Char) : Bool :=
  let n := c.toNat
  (0x9 ≤ n && n ≤ 0xd) || n == 0x20 || n == 0x85 || n == 0xa0 || n == 0x1680 ||
    (0x2000 ≤ n && n ≤ 0x200a) || n == 0x2028 || n == 0x2029 || n == 0x202f || n == 0x205f ||
    n == 0x3000

/-- A list without the elements of a kind at both ends. -/
def trimList {α : Type} (drop : α → Bool) (xs : List α) : List α :=
  ((xs.dropWhile drop).reverse.dropWhile drop).reverse

def trim (s : String) : String := String.ofList (trimList isBlank s.toList)

end ContentionChart.Text
