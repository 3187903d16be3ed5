/-
# Double-precision numbers

A number of the IEEE 754 binary64 format, by its three fields. A finite number
is a significand below 2^53 times a power of two, exactly; everything that this
library does with such numbers is exact arithmetic on those two and one rounding
at the end. Powers are written as `Nat.pow`, so that they are the same function
wherever these definitions are read.
-/

import SparqlText.Text.Basic

namespace SparqlText

-- Both fields have a zero, which the numbers below are written with.
instance exponents_neZero : @NeZero Nat Zero.ofOfNat0 2048 := ⟨by decide⟩

instance fractions_neZero : @NeZero Nat Zero.ofOfNat0 (Nat.pow 2 52) := ⟨by decide⟩

/-- A binary64 number by sign, biased exponent and fraction field. -/
structure Binary64 where
  negative : Bool
  biased : Fin 2048
  fraction : Fin (Nat.pow 2 52)
  deriving DecidableEq, Repr

namespace Binary64

/-- The number with the given 64 bits, higher bits left out. -/
def ofBits (bits : Nat) : Binary64 where
  negative := bits.testBit 63
  biased := Fin.ofNat 2048 (bits / Nat.pow 2 52)
  fraction := Fin.ofNat (Nat.pow 2 52) bits

/-- The 64 bits of a number. -/
def toBits (number : Binary64) : Nat :=
  (if number.negative then Nat.pow 2 63 else 0) + number.biased.val * Nat.pow 2 52
    + number.fraction.val

def isNaN (number : Binary64) : Bool :=
  number.biased.val == 2047 && number.fraction.val != 0

def isFinite (number : Binary64) : Bool :=
  number.biased.val < 2047

/-- The significand of a finite number: a leading one in front of the fraction,
except below the normal range. -/
def significand (number : Binary64) : Nat :=
  if number.biased.val = 0 then number.fraction.val
  else Nat.pow 2 52 + number.fraction.val

/-- The power of two that the significand of a finite number counts. -/
def scale (number : Binary64) : Int :=
  (max number.biased.val 1 : Nat) - 1075

/-- The magnitude of a finite number as a numerator and a positive denominator. -/
def ratio (number : Binary64) : Nat × Nat :=
  if 0 ≤ number.scale then (number.significand * Nat.pow 2 number.scale.toNat, 1)
  else (number.significand, Nat.pow 2 (-number.scale).toNat)

/-- The integer that a finite number without a fractional part is. -/
def integer? (number : Binary64) : Option Int :=
  let (numerator, denominator) := number.ratio
  if number.isFinite && numerator % denominator == 0 then
    let magnitude : Int := numerator / denominator
    some (if number.negative then -magnitude else magnitude)
  else none

/-- The largest magnitude up to which every integer is a binary64 number. -/
def maxExactInteger : Nat := Nat.pow 2 53 - 1

/-- The integer that a number is, within the range of exact integers. -/
def exactInteger? (number : Binary64) : Option Int :=
  number.integer?.filter fun value => value.natAbs ≤ maxExactInteger

/-- Infinity with the given sign. -/
def infinity (negative : Bool) : Binary64 := ⟨negative, 2047, 0⟩

/-- The number that stands for no number. -/
def nan : Binary64 := ⟨false, 2047, Fin.ofNat _ (Nat.pow 2 51)⟩

/-- Zero with the given sign. -/
def zero (negative : Bool) : Binary64 := ⟨negative, 0, 0⟩

end Binary64

end SparqlText
