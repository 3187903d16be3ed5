/-
# JSON tokens

The tokens of a JSON text: marks, words, numerals and strings. Between tokens
there may be spaces, tabs and line breaks. A run of letters is one word, and a
run of characters that occur in numerals is one numeral, so a token never ends
where a longer one could be read.
-/

import SparqlText.Json.Numeral
import SparqlText.Json.Quoted
import SparqlText.Text.Blank

namespace SparqlText.Json

/-- A token. A string carries the text that it denotes, if it denotes one. -/
inductive Token
  | leftBracket
  | rightBracket
  | leftBrace
  | rightBrace
  | colon
  | comma
  | null
  | bool (value : Bool)
  | number (numeral : Numeral)
  | string (content : Option Text)
  deriving DecidableEq, Repr

namespace Token

/-- The token of a mark. -/
def ofMark? (char : Char) : Option Token :=
  if char = '[' then some .leftBracket
  else if char = ']' then some .rightBracket
  else if char = '\x7b' then some .leftBrace
  else if char = '\x7d' then some .rightBrace
  else if char = ':' then some .colon
  else if char = ',' then some .comma
  else none

/-- The token of a word. -/
def ofWord? (word : Text) : Option Token :=
  if word = "null".toList then some .null
  else if word = "true".toList then some (.bool true)
  else if word = "false".toList then some (.bool false)
  else none

/-- The token that a text begins with, and what follows it. -/
def next? : Text → Option (Token × Text)
  | [] => none
  | first :: rest =>
      match ofMark? first with
      | some mark => some (mark, rest)
      | none =>
          if first = '\x22' then
            (readBody? rest).map fun (units, after) =>
              (.string (textOfUnits? units), after)
          else if first.isAlpha then
            (ofWord? (first :: rest.takeWhile Char.isAlpha)).map fun token =>
              (token, rest.dropWhile Char.isAlpha)
          else
            (Numeral.read? (first :: rest.takeWhile Numeral.isPart)).map fun numeral =>
              (.number numeral, rest.dropWhile Numeral.isPart)

private theorem length_dropWhile_le (keep : Char → Bool) (text : Text) :
    (text.dropWhile keep).length ≤ text.length :=
  (List.dropWhile_sublist keep).length_le

/-- Every token takes at least one character. -/
theorem length_lt_of_next? {text after : Text} {token : Token}
    (read : next? text = some (token, after)) : after.length < text.length := by
  cases text with
  | nil => simp [next?] at read
  | cons first rest =>
      rw [next?] at read
      split at read
      · simp only [Option.some.injEq, Prod.mk.injEq] at read
        simp [← read.2]
      · split at read
        · simp only [Option.map_eq_some_iff, Prod.exists, Prod.mk.injEq] at read
          obtain ⟨units, tail, body, _, rfl⟩ := read
          have := length_lt_of_readBody? body
          simp only [List.length_cons]
          omega
        · split at read
          all_goals
            simp only [Option.map_eq_some_iff, Prod.mk.injEq] at read
            obtain ⟨_, _, _, rfl⟩ := read
            have := length_dropWhile_le
            simp only [List.length_cons]
            exact Nat.lt_succ_of_le (this _ _)

/-- The tokens of a whole text. -/
def all? : Text → Option (List Token)
  | [] => some []
  | first :: rest =>
      if Text.isLayout first then all? rest
      else
        match _read : next? (first :: rest) with
        | none => none
        | some (token, after) => (all? after).map (token :: ·)
termination_by text => text.length
decreasing_by
  · simp
  · exact length_lt_of_next? _read

/-- A token as text. -/
def written : Token → Text
  | .leftBracket => ['[']
  | .rightBracket => [']']
  | .leftBrace => ['\x7b']
  | .rightBrace => ['\x7d']
  | .colon => [':']
  | .comma => [',']
  | .null => "null".toList
  | .bool true => "true".toList
  | .bool false => "false".toList
  | .number numeral => numeral.written
  | .string content => writtenString content

end Token

end SparqlText.Json
