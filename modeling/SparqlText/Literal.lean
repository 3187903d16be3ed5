/-
# String literal bodies

The characters between the delimiters of a string literal. A backslash, the
active delimiter and every code point below U+0020 are escaped, so a body holds
no raw control code, no raw line break and no delimiter of its own. All other
characters stand for themselves.
-/

import SparqlText.Text.Basic

namespace SparqlText

/-- The character that delimits a string literal. -/
inductive Quote
  | double
  | single
  deriving DecidableEq, Repr

namespace Quote

/-- The delimiter as a character. -/
def delimiter : Quote → Char
  | .double => '\x22'
  | .single => '\''

end Quote

namespace Literal

/-- A digit from 0 to 15 in upper-case hexadecimal. -/
def hexDigit (value : Nat) : Char :=
  (Nat.digitChar value).toUpper

/-- A code point in four hexadecimal digits, its lower sixteen bits. -/
def fourHexDigits (code : Nat) : Text :=
  [hexDigit (code / 4096 % 16), hexDigit (code / 256 % 16),
    hexDigit (code / 16 % 16), hexDigit (code % 16)]

/-- One character of a body: named escapes first, then the numeric escape for
other control codes, then the delimiter. -/
def escapeChar (quote : Quote) (char : Char) : Text :=
  if char = '\\' then ['\\', '\\']
  else if char = '\n' then ['\\', 'n']
  else if char = '\r' then ['\\', 'r']
  else if char = '\t' then ['\\', 't']
  else if char = '\x08' then ['\\', 'b']
  else if char = '\x0c' then ['\\', 'f']
  else if char.toNat < 0x20 then ['\\', 'u'] ++ fourHexDigits char.toNat
  else if char = quote.delimiter then ['\\', char]
  else [char]

/-- The body that stands for `text` between delimiters of the given kind. -/
def escape (quote : Quote) (text : Text) : Text :=
  text.flatMap (escapeChar quote)

/-- The delimiter of the long form, three double quotes. -/
def longDelimiter : Text := ['\x22', '\x22', '\x22']

/-- The long form of a literal, without datatype or language tag. -/
def long (text : Text) : Text :=
  longDelimiter ++ escape .double text ++ longDelimiter

end Literal

end SparqlText
