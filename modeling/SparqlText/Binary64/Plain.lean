/-
# Plain text of doubles

A double is written in positional notation with its shortest digits, and read
from plain or exponent notation to the nearest double. Zero keeps its sign, and
infinity and the absent number have names.
-/

import SparqlText.Binary64.Shortest

namespace SparqlText.Binary64

/-- The text of a double. -/
def plain (number : Binary64) : Text :=
  if number.isNaN then "NaN".toList
  else
    let magnitude :=
      if !number.isFinite then "inf".toList
      else if number.significand = 0 then ['0']
      else number.shortest.positional
    if number.negative then '-' :: magnitude else magnitude

/-- The names of infinity and of the absent number, in lower case. -/
def named? (negative : Bool) (name : Text) : Option Binary64 :=
  if name = "inf".toList || name = "infinity".toList then some (infinity negative)
  else if name = "nan".toList then some { nan with negative := negative }
  else none

/-- The double that a text denotes: an optional sign, then a name in any case or
a numeral. -/
def read? (text : Text) : Option Binary64 :=
  let (negative, rest) := Decimal.splitSign text
  match named? negative (rest.map Char.toLower) with
  | some number => some number
  | none => (Decimal.read? rest).map (ofDecimal negative)

end SparqlText.Binary64
