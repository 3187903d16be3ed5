/-
# Decimal numbers

A decimal number is a whole number of units of some power of ten. It is written
out in positional notation, never with an exponent, and read back from plain or
exponent notation. Nothing is rounded here.
-/

import SparqlText.Text.Basic

namespace SparqlText

/-- A decimal number, `coefficient` units of ten to the power `exponent`. -/
structure Decimal where
  coefficient : Nat
  exponent : Int
  deriving DecidableEq, Repr

namespace Decimal

/-- The decimal digits of a natural number, without leading zeros. -/
abbrev digits (value : Nat) : Text := Nat.toDigits 10 value

/-- The natural number that decimal digits denote. -/
abbrev value (digits : Text) : Nat := Nat.ofDigitChars 10 digits 0

/-- The decimal digits of a natural number, filled with leading zeros up to
`width`. -/
def padded (width value : Nat) : Text :=
  List.replicate (width - (digits value).length) '0' ++ digits value

/-- An integer in decimal, a minus sign before a negative one. -/
def integer : Int → Text
  | .ofNat value => digits value
  | .negSucc value => '-' :: digits (value + 1)

/-- The number as a numerator and a positive denominator. -/
def ratio (number : Decimal) : Nat × Nat :=
  if 0 ≤ number.exponent then
    (number.coefficient * Nat.pow 10 number.exponent.toNat, 1)
  else (number.coefficient, Nat.pow 10 (-number.exponent).toNat)

/-- The position of the point counted from the first digit: the number lies
below ten to this power, and not below a tenth of that. -/
def magnitude (number : Decimal) : Int :=
  (digits number.coefficient).length + number.exponent

/-! ## Writing -/

/-- Digits without the zeros that they end in. -/
def withoutTrailingZeros (digits : Text) : Text :=
  (digits.reverse.dropWhile (· == '0')).reverse

/-- The number in positional notation. A fraction has no trailing zeros, and a
whole number has no point. -/
def positional (number : Decimal) : Text :=
  let all := digits number.coefficient
  if 0 ≤ number.exponent then
    all ++ List.replicate number.exponent.toNat '0'
  else
    let places := (-number.exponent).toNat
    let filled := List.replicate (places + 1 - all.length) '0' ++ all
    let whole := filled.take (filled.length - places)
    let fraction := withoutTrailingZeros (filled.drop (filled.length - places))
    if fraction.isEmpty then whole else whole ++ '.' :: fraction

/-! ## Reading -/

/-- An optional sign: whether it is a minus, and what follows it. -/
def splitSign : Text → Bool × Text
  | '-' :: rest => (true, rest)
  | '+' :: rest => (false, rest)
  | text => (false, text)

/-- A whole text of ASCII digits, at least one of them. -/
def natural? (text : Text) : Option Nat :=
  if !text.isEmpty && text.all Char.isDigit then some (value text) else none

/-- An integer: an optional sign and ASCII digits, at least one of them. -/
def integer? (text : Text) : Option Int :=
  let (negative, rest) := splitSign text
  (natural? rest).map fun magnitude =>
    if negative then -(magnitude : Int) else magnitude

/-- The exponent that a numeral ends in: nothing, or the letter `e` in either
case and an integer. -/
def exponent? : Text → Option Int
  | [] => some 0
  | letter :: rest =>
      if letter = 'e' || letter = 'E' then integer? rest else none

/-- An unsigned numeral: digits with a point anywhere among, before or after
them, and an optional exponent. -/
def read? (text : Text) : Option Decimal :=
  let whole := text.takeWhile Char.isDigit
  let rest := text.dropWhile Char.isDigit
  let (fraction, rest) :=
    match rest with
    | '.' :: rest => (rest.takeWhile Char.isDigit, rest.dropWhile Char.isDigit)
    | rest => ([], rest)
  if whole.isEmpty && fraction.isEmpty then none
  else (exponent? rest).map fun exponent =>
    ⟨value (whole ++ fraction), exponent - fraction.length⟩

end Decimal

end SparqlText
