/-
# JSON numerals

A numeral is kept as it is written until a value is asked for. An integer that
fits 64 bits, signed or unsigned, denotes that integer. Any other numeral
denotes a double, computed from its leading digits: digits are gathered as long
as they fit 64 bits, and the result is scaled by at most a few exact powers of
ten with a rounding each. A numeral beyond the largest double denotes nothing.
-/

import SparqlText.Binary64.Nearest

namespace SparqlText.Json

/-- The parts of a numeral: sign, digits before the point, digits after it, and
the exponent's sign and digits. -/
structure Numeral where
  negative : Bool
  whole : Text
  fraction : Text
  exponent : Option (Bool × Text)
  deriving DecidableEq, Repr

/-- A number that a numeral denotes. -/
inductive Number
  | integer (value : Int)
  | float (value : Binary64)
  deriving DecidableEq, Repr

namespace Numeral

/-- A character that can occur in a numeral. -/
def isPart (char : Char) : Bool :=
  char.isDigit || char == '-' || char == '+' || char == '.' || char == 'e' || char == 'E'

/-- Digits before the point: a zero alone, or no zero in front. -/
def isWhole (digits : Text) : Bool :=
  !digits.isEmpty && digits.all Char.isDigit
    && (digits.length == 1 || digits.head? != some '0')

/-- The exponent of a numeral: nothing, or a letter, an optional sign and digits. -/
def exponent? : Text → Option (Option (Bool × Text))
  | [] => some none
  | letter :: rest =>
      if letter = 'e' || letter = 'E' then
        let (negative, digits) := Decimal.splitSign rest
        if !digits.isEmpty && digits.all Char.isDigit then
          some (some (negative, digits))
        else none
      else none

/-- Read a numeral that takes up a whole text. -/
def read? (text : Text) : Option Numeral :=
  let (negative, unsigned) :=
    match text with
    | '-' :: rest => (true, rest)
    | rest => (false, rest)
  let whole := unsigned.takeWhile Char.isDigit
  let rest := unsigned.dropWhile Char.isDigit
  let (pointed, fraction, rest) :=
    match rest with
    | '.' :: rest => (true, rest.takeWhile Char.isDigit, rest.dropWhile Char.isDigit)
    | rest => (false, [], rest)
  if isWhole whole && !(pointed && fraction.isEmpty) then
    (exponent? rest).map fun exponent => ⟨negative, whole, fraction, exponent⟩
  else none

/-- The numeral as text. -/
def written (numeral : Numeral) : Text :=
  (if numeral.negative then ['-'] else []) ++ numeral.whole
    ++ (if numeral.fraction.isEmpty then [] else '.' :: numeral.fraction)
    ++ (match numeral.exponent with
      | none => []
      | some (negative, digits) => 'e' :: (if negative then '-' :: digits else digits))

/-! ## Value -/

/-- The number of values of 64 bits. -/
def wordCount : Nat := Nat.pow 2 64

/-- Gather decimal digits onto `gathered` while the result fits 64 bits: the
result, and the digits that are left. -/
def gather (gathered : Nat) : Text → Nat × Text
  | [] => (gathered, [])
  | digit :: rest =>
      let next := gathered * 10 + (digit.toNat - '0'.toNat)
      if next < wordCount then gather next rest else (gathered, digit :: rest)

/-- Divide by a power of ten in steps of at most 308, until nothing is left. -/
def dividedByPower (number : Binary64) (power : Nat) : Binary64 :=
  if power ≤ 308 then number.dividedBy (Binary64.powerOfTen power)
  else if number.significand = 0 then number
  else dividedByPower (number.dividedBy (Binary64.powerOfTen 308)) (power - 308)
termination_by power

/-- A 64-bit coefficient times a power of ten, rounded at each step; nothing when
it exceeds the largest double. -/
def scaled? (coefficient : Nat) (power : Int) : Option Binary64 :=
  let start := Binary64.ofNat coefficient
  if 0 ≤ power then
    if power ≤ 308 then
      let product := start.times (Binary64.powerOfTen power.toNat)
      if product.isFinite then some product else none
    else if coefficient = 0 then some start
    else none
  else some (dividedByPower start (-power).toNat)

/-- The largest exponent that is taken at its value. -/
def exponentLimit : Nat := Nat.pow 2 31 - 1

/-- The magnitude of a numeral as a double. An exponent beyond the limit makes
zero of every numeral, except that a positive one is refused after a coefficient
other than zero. -/
def magnitude? (numeral : Numeral) : Option Binary64 :=
  let (leading, dropped) := gather 0 numeral.whole
  let (coefficient, left) := gather leading numeral.fraction
  let taken := numeral.fraction.length - left.length
  let power : Int := (dropped.length : Int) - taken
  match numeral.exponent with
  | none => scaled? coefficient power
  | some (negative, digits) =>
      let exponent := Decimal.value digits
      if exponentLimit < exponent then
        if coefficient = 0 || negative then some (Binary64.zero false) else none
      else if negative then scaled? coefficient (power - exponent)
      else scaled? coefficient (power + exponent)

/-- The integer of a numeral without fraction and exponent, if it is one of 64
bits. A negative zero is not an integer. -/
def integer? (numeral : Numeral) : Option Int :=
  if numeral.fraction.isEmpty && numeral.exponent.isNone then
    let magnitude := Decimal.value numeral.whole
    if numeral.negative then
      if 0 < magnitude && magnitude ≤ Nat.pow 2 63 then some (-(magnitude : Int)) else none
    else if magnitude < wordCount then some magnitude
    else none
  else none

/-- The number that a numeral denotes. -/
def value? (numeral : Numeral) : Option Number :=
  match numeral.integer? with
  | some value => some (.integer value)
  | none => numeral.magnitude?.map fun magnitude =>
      .float (if numeral.negative then magnitude.negated else magnitude)

end Numeral

end SparqlText.Json
