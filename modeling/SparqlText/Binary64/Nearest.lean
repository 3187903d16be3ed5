/-
# Rounding to the nearest double

Every nonnegative ratio has a nearest binary64 number; of two that are equally
near, the one with the even significand. A magnitude at or above the midpoint
past the largest finite number becomes infinite.
-/

import SparqlText.Binary64.Basic
import SparqlText.Decimal

namespace SparqlText

/-- The natural number nearest to a ratio, a half going to the even neighbour. -/
def nearestNat (numerator denominator : Nat) : Nat :=
  let quotient := numerator / denominator
  let twice := 2 * (numerator % denominator)
  if denominator < twice || (twice == denominator && quotient % 2 == 1) then
    quotient + 1
  else quotient

namespace Binary64

/-- The number whose bits after the sign are the given ones, with infinity in
place of everything beyond it. -/
def ofMagnitudeBits (negative : Bool) (bits : Nat) : Binary64 :=
  if bits < 2047 * Nat.pow 2 52 then
    ⟨negative, Fin.ofNat 2048 (bits / Nat.pow 2 52), Fin.ofNat (Nat.pow 2 52) bits⟩
  else infinity negative

/-- A ratio counted in units of a power of two, rounded to the nearest. -/
def unitsOfScale (numerator denominator : Nat) (scale : Int) : Nat :=
  if 0 ≤ scale then nearestNat numerator (denominator * Nat.pow 2 scale.toNat)
  else nearestNat (numerator * Nat.pow 2 (-scale).toNat) denominator

/-- The power of two whose units give a positive ratio 53 binary digits, or the
smallest power there is. -/
def scaleOfRatio (numerator denominator : Nat) : Int :=
  let guess : Int := (Nat.log2 numerator : Int) - Nat.log2 denominator - 52
  let below : Bool :=
    if 0 ≤ guess then numerator < denominator * Nat.pow 2 52 * Nat.pow 2 guess.toNat
    else numerator * Nat.pow 2 (-guess).toNat < denominator * Nat.pow 2 52
  max (if below then guess - 1 else guess) (-1074)

/-- The number nearest to a ratio with a positive denominator. The significand
may carry into the exponent field, which is then the right one. -/
def ofRatio (negative : Bool) (numerator denominator : Nat) : Binary64 :=
  if numerator = 0 then zero negative
  else
    let scale := scaleOfRatio numerator denominator
    let units := unitsOfScale numerator denominator scale
    ofMagnitudeBits negative ((scale + 1074).toNat * Nat.pow 2 52 + units)

/-- The number nearest to a decimal. Decimals far outside the range are settled
by the position of their point. -/
def ofDecimal (negative : Bool) (number : Decimal) : Binary64 :=
  if number.coefficient = 0 then zero negative
  else if 310 < number.magnitude then infinity negative
  else if number.magnitude < -330 then zero negative
  else ofRatio negative number.ratio.1 number.ratio.2

/-- The number nearest to a natural number. -/
def ofNat (value : Nat) : Binary64 := ofRatio false value 1

/-! ## Arithmetic on finite numbers -/

/-- The product of two finite numbers, rounded once. -/
def times (first second : Binary64) : Binary64 :=
  ofRatio (first.negative != second.negative)
    (first.ratio.1 * second.ratio.1) (first.ratio.2 * second.ratio.2)

/-- The quotient of two finite numbers, the second one not zero, rounded once. -/
def dividedBy (first second : Binary64) : Binary64 :=
  ofRatio (first.negative != second.negative)
    (first.ratio.1 * second.ratio.2) (first.ratio.2 * second.ratio.1)

/-- The nearest number to ten to a power. -/
def powerOfTen (power : Nat) : Binary64 := ofRatio false (Nat.pow 10 power) 1

/-- The same number with the other sign. -/
def negated (number : Binary64) : Binary64 :=
  { number with negative := !number.negative }

/-! ## The narrower format -/

/-- The number with the given 32 bits of the IEEE 754 binary32 format, which
every such number is exactly. -/
def ofSingleBits (bits : Nat) : Binary64 :=
  let negative := bits.testBit 31
  let biased := bits / Nat.pow 2 23 % 256
  let fraction := bits % Nat.pow 2 23
  if biased = 255 then
    if fraction = 0 then infinity negative
    else { nan with negative := negative }
  else if biased = 0 then ofRatio negative fraction (Nat.pow 2 149)
  else ofRatio negative ((Nat.pow 2 23 + fraction) * Nat.pow 2 biased) (Nat.pow 2 150)

end Binary64

end SparqlText
