/-
# JSON strings

The body of a JSON string is a sequence of characters and numeric escapes. A
numeric escape names sixteen bits, so it may be one half of a surrogate pair; a
body with a half that has no partner is well formed but denotes no text.
-/

import SparqlText.Text.Basic

namespace SparqlText.Json

/-- One element of a string body: a character, or one half of a surrogate pair. -/
inductive Unit16
  | scalar (char : Char)
  | half (code : Nat)
  deriving DecidableEq, Repr

/-- The code points of the halves that come first in a pair. -/
def isHighHalf (code : Nat) : Bool := 0xd800 ≤ code && code < 0xdc00

/-- The code points of the halves that come second in a pair. -/
def isLowHalf (code : Nat) : Bool := 0xdc00 ≤ code && code < 0xe000

/-- The element that a sixteen-bit escape names. -/
def Unit16.ofCode (code : Nat) : Unit16 :=
  if isHighHalf code || isLowHalf code then .half code
  else .scalar (Char.ofNat code)

/-- The character of a surrogate pair. -/
def pairedChar (high low : Nat) : Char :=
  Char.ofNat (0x10000 + (high - 0xd800) * 0x400 + (low - 0xdc00))

/-- The text that the elements of a body denote, if every half has its partner. -/
def textOfUnits? : List Unit16 → Option Text
  | [] => some []
  | .scalar char :: rest => (textOfUnits? rest).map (char :: ·)
  | .half high :: .half low :: rest =>
      if isHighHalf high && isLowHalf low then
        (textOfUnits? rest).map (pairedChar high low :: ·)
      else none
  | .half _ :: _ => none

/-- The value of a hexadecimal digit in either case. -/
def hexValue? (char : Char) : Option Nat :=
  if char.isDigit then some (char.toNat - '0'.toNat)
  else if 'a' ≤ char && char ≤ 'f' then some (char.toNat - 'a'.toNat + 10)
  else if 'A' ≤ char && char ≤ 'F' then some (char.toNat - 'A'.toNat + 10)
  else none

/-- The value of four hexadecimal digits. -/
def fourHexValue? (first second third fourth : Char) : Option Nat := do
  let first ← hexValue? first
  let second ← hexValue? second
  let third ← hexValue? third
  let fourth ← hexValue? fourth
  return first * 4096 + second * 256 + third * 16 + fourth

/-- The character that a backslash and a letter or mark stand for. -/
def namedEscape? (char : Char) : Option Char :=
  if char = '\x22' || char = '\\' || char = '/' then some char
  else if char = 'b' then some '\x08'
  else if char = 'f' then some '\x0c'
  else if char = 'n' then some '\n'
  else if char = 'r' then some '\r'
  else if char = 't' then some '\t'
  else none

/-- Read a body up to its closing quote: the elements, and what follows the
quote. Control codes may not stand raw. -/
def readBody? : Text → Option (List Unit16 × Text)
  | [] => none
  | '\x22' :: rest => some ([], rest)
  | '\\' :: 'u' :: first :: second :: third :: fourth :: rest =>
      match fourHexValue? first second third fourth with
      | none => none
      | some code =>
          (readBody? rest).map fun (units, after) => (.ofCode code :: units, after)
  | '\\' :: named :: rest =>
      match namedEscape? named with
      | none => none
      | some char =>
          (readBody? rest).map fun (units, after) => (.scalar char :: units, after)
  | char :: rest =>
      if char.toNat < 0x20 || char = '\\' then none
      else (readBody? rest).map fun (units, after) => (.scalar char :: units, after)

/-- Reading a body takes at least the closing quote. -/
theorem length_lt_of_readBody? {text after : Text} {units : List Unit16}
    (read : readBody? text = some (units, after)) : after.length < text.length := by
  fun_induction readBody? text generalizing units after with
  | case1 => simp at read
  | case2 rest =>
      simp only [Option.some.injEq, Prod.mk.injEq] at read
      simp [← read.2]
  | case3 first second third fourth rest none_read => simp at read
  | case4 first second third fourth rest code code_read ih =>
      simp only [Option.map_eq_some_iff, Prod.exists, Prod.mk.injEq] at read
      obtain ⟨inner, tail, inner_read, _, rfl⟩ := read
      have := ih inner_read
      simp only [List.length_cons]
      omega
  | case5 named rest _ none_read => simp at read
  | case6 named rest _ char char_read ih =>
      simp only [Option.map_eq_some_iff, Prod.exists, Prod.mk.injEq] at read
      obtain ⟨inner, tail, inner_read, _, rfl⟩ := read
      have := ih inner_read
      simp only [List.length_cons]
      omega
  | case7 char rest _ _ _ refused => simp at read
  | case8 char rest _ _ _ _ ih =>
      simp only [Option.map_eq_some_iff, Prod.exists, Prod.mk.injEq] at read
      obtain ⟨inner, tail, inner_read, _, rfl⟩ := read
      have := ih inner_read
      simp only [List.length_cons]
      omega

/-- A digit from 0 to 15 in lower-case hexadecimal. -/
def lowerHexDigit (value : Nat) : Char := Nat.digitChar value

/-- One character of a written string: the quote and the backslash escaped,
control codes by name or number. -/
def writtenChar (char : Char) : Text :=
  if char = '\x22' || char = '\\' then ['\\', char]
  else if char = '\x08' then ['\\', 'b']
  else if char = '\x0c' then ['\\', 'f']
  else if char = '\n' then ['\\', 'n']
  else if char = '\r' then ['\\', 'r']
  else if char = '\t' then ['\\', 't']
  else if char.toNat < 0x20 then
    ['\\', 'u', '0', '0', lowerHexDigit (char.toNat / 16),
      lowerHexDigit (char.toNat % 16)]
  else [char]

/-- A string with its quotes. A string that denotes no text is written as a half
without a partner, which denotes no text either. -/
def writtenString : Option Text → Text
  | some text => '\x22' :: text.flatMap writtenChar ++ ['\x22']
  | none => "\"\\ud800\"".toList

end SparqlText.Json
