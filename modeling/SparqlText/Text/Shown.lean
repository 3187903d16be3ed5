/-
# Characters as messages show them

A message that names one character writes it between apostrophes, and a message
that names a text which must not appear raw writes that text in ASCII alone.
Both use backslash escapes, a code point in lower-case hexadecimal where no
short escape exists.
-/

import SparqlText.Text.Basic

namespace SparqlText.Text

/-- The characters of general category Cc: the two blocks of control codes. -/
def isControl (char : Char) : Bool :=
  char.toNat < 0x20 || (0x7f ≤ char.toNat && char.toNat < 0xa0)

/-- A backslash, `u` and the code point between braces. -/
def codePointEscape (char : Char) : Text :=
  ['\\', 'u', '\x7b'] ++ Nat.toDigits 16 char.toNat ++ ['\x7d']

/-- An ASCII or control character as a message names it. -/
def shownCharacter (char : Char) : Text :=
  let body :=
    if char = '\x00' then ['\\', '0']
    else if char = '\t' then ['\\', 't']
    else if char = '\r' then ['\\', 'r']
    else if char = '\n' then ['\\', 'n']
    else if char = '\\' then ['\\', '\\']
    else if isControl char then codePointEscape char
    else [char]
  ['\''] ++ body ++ ['\'']

/-- One character in ASCII: printable ASCII as it is, quotes and backslash
escaped, anything else by name or code point. -/
def asciiCharacter (char : Char) : Text :=
  if char = '\t' then ['\\', 't']
  else if char = '\r' then ['\\', 'r']
  else if char = '\n' then ['\\', 'n']
  else if char = '\\' || char = '\x22' || char = '\'' then ['\\', char]
  else if 0x20 ≤ char.toNat && char.toNat ≤ 0x7e then [char]
  else codePointEscape char

/-- A text in ASCII alone. -/
def ascii (text : Text) : Text :=
  text.flatMap asciiCharacter

end SparqlText.Text
