/-
# White space and trimming

White space here is the Unicode property `White_Space`. The narrower layout of
node descriptions (space, tab, carriage return, line feed) is a class of its own.
-/

import SparqlText.Text.Basic

namespace SparqlText.Text

/-- The twenty-five code points of the Unicode property `White_Space`. -/
def isBlank (char : Char) : Bool :=
  let code := char.toNat
  (0x09 ≤ code && code ≤ 0x0d) || code == 0x20 || code == 0x85 || code == 0xa0
    || code == 0x1680 || (0x2000 ≤ code && code ≤ 0x200a)
    || code == 0x2028 || code == 0x2029 || code == 0x202f
    || code == 0x205f || code == 0x3000

/-- Space, tab, carriage return and line feed. -/
def isLayout (char : Char) : Bool :=
  char == ' ' || char == '\t' || char == '\r' || char == '\n'

/-- Every layout character is white space. -/
theorem isBlank_of_isLayout {char : Char} (layout : isLayout char = true) :
    isBlank char = true := by
  simp only [isLayout, Bool.or_eq_true, beq_iff_eq] at layout
  rcases layout with ((rfl | rfl) | rfl) | rfl <;> decide

/-- A text without the white space that it begins with. -/
def trimStart (text : Text) : Text :=
  text.dropWhile isBlank

/-- A text without the white space that it ends in. -/
def trimEnd (text : Text) : Text :=
  (text.reverse.dropWhile isBlank).reverse

/-- A text without white space at either end. -/
def trim (text : Text) : Text :=
  trimEnd (trimStart text)

end SparqlText.Text
