/-
# The shortest decimal that reads back

A finite double is written with the fewest digits that read back as that double;
of several such decimals the nearest, and of two equally near ones the larger.
The search looks at grids of one, two, … seventeen digits and on each at the two
neighbours of the exact value. The exact value itself ends the list of
candidates, so what is chosen always reads back.
-/

import SparqlText.Binary64.Nearest

namespace SparqlText.Binary64

/-- The exact value of a finite number's magnitude in decimal. -/
def exactDecimal (number : Binary64) : Decimal :=
  if 0 ≤ number.scale then ⟨number.significand * Nat.pow 2 number.scale.toNat, 0⟩
  else ⟨number.significand * Nat.pow 5 (-number.scale).toNat, number.scale⟩

/-- Whether a decimal magnitude, with the number's own sign, rounds to the
number. -/
def readsBack (number : Binary64) (candidate : Decimal) : Bool :=
  ofDecimal number.negative candidate == number

/-- The position of the first digit of a positive ratio: it lies below ten to
this power, and not below a tenth of that. -/
def leadingPosition (numerator denominator : Nat) : Int :=
  if denominator ≤ numerator then
    (Decimal.digits (numerator / denominator)).length
  else 1 - ((Decimal.digits ((denominator - 1) / numerator)).length : Int)

/-- The two neighbours of a number's magnitude among the multiples of ten to
`exponent`, and whether the upper one is at least as near. -/
def neighbours (number : Binary64) (exponent : Int) : Decimal × Decimal × Bool :=
  let (numerator, denominator) := number.ratio
  let (numerator, denominator) :=
    if 0 ≤ exponent then (numerator, denominator * Nat.pow 10 exponent.toNat)
    else (numerator * Nat.pow 10 (-exponent).toNat, denominator)
  let lower := numerator / denominator
  (⟨lower, exponent⟩, ⟨lower + 1, exponent⟩,
    denominator ≤ 2 * (numerator % denominator))

/-- The better neighbour on one grid that reads back, if either does. -/
def onGrid? (number : Binary64) (exponent : Int) : Option Decimal :=
  let (lower, upper, upperIsNearer) := number.neighbours exponent
  match number.readsBack lower, number.readsBack upper with
  | true, true => some (if upperIsNearer then upper else lower)
  | true, false => some lower
  | false, true => some upper
  | false, false => none

/-- The shortest decimal that reads back as the magnitude of a finite number
other than zero. -/
def shortest (number : Binary64) : Decimal :=
  let position := leadingPosition number.ratio.1 number.ratio.2
  let found := (List.range 17).findSome? fun (index : Nat) =>
    number.onGrid? (position - (index + 1 : Nat))
  found.getD number.exactDecimal

end SparqlText.Binary64
