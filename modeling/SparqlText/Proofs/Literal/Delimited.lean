/-
# Bodies between delimiters

A delimiter is one quote, or three of them. `Reads` says how the text behind an opening
delimiter is taken apart: character by character, each as it stands or as one of the escapes
that the quote has, up to the first place between two of them at which the delimiter stands.
A text that is read so holds no raw control code and no other escape up to there.

An escaped body is read as the text that was escaped and in no other way, and what follows its
closing delimiter is not read, whatever it is.
-/

import SparqlText.Proofs.Literal.Body

namespace SparqlText.Literal

/-! ## Reading -/

/-- What stands on either side of a body: a quote, alone or three times. -/
structure Delimiter where
  quote : Quote
  tripled : Bool
  deriving DecidableEq, Repr

/-- A delimiter as it is written. -/
def Delimiter.text (delimiter : Delimiter) : Text :=
  List.replicate (if delimiter.tripled then 3 else 1) delimiter.quote.delimiter

/-- The characters that may follow a backslash, and what they then stand for. -/
def namedEscapes (quote : Quote) : List (Char × Char) :=
  [('\\', '\\'), ('n', '\n'), ('r', '\r'), ('t', '\t'), ('b', '\x08'), ('f', '\x0c'),
    (quote.delimiter, quote.delimiter)]

/-- A text that stands for one character of a body. -/
inductive Spelling (quote : Quote) : Char → Text → Prop
  | raw {char : Char} (printable : 0x20 ≤ char.toNat) (unescaped : char ≠ '\\') :
      Spelling quote char [char]
  | named {letter char : Char} (known : (letter, char) ∈ namedEscapes quote) :
      Spelling quote char ['\\', letter]
  | numeric {first second third fourth char : Char}
      (digits : Json.fourHexValue? first second third fourth = some char.toNat) :
      Spelling quote char ['\\', 'u', first, second, third, fourth]

/-- A text from behind an opening delimiter, read up to the first closing one: what the body
stands for, and what is left unread. -/
inductive Reads (delimiter : Delimiter) : Text → Text → Text → Prop
  | closed (left : Text) : Reads delimiter (delimiter.text ++ left) [] left
  | char {spelling text body left : Text} {char : Char}
      (spelled : Spelling delimiter.quote char spelling)
      (unclosed : ¬delimiter.text <+: spelling ++ text)
      (later : Reads delimiter text body left) :
      Reads delimiter (spelling ++ text) (char :: body) left

/-! ## One way of reading -/

/-- A spelling is taken whole and stands for its character, whatever follows it. -/
theorem Spelling.unit?_eq {quote : Quote} {char : Char} {spelling : Text}
    (spelled : Spelling quote char spelling) (rest : Text) :
    unit? (spelling ++ rest) = some (char, rest) := by
  cases spelled with
  | raw printable unescaped => simp [unit?, unescaped, Nat.not_lt.mpr printable]
  | named known =>
      simp only [namedEscapes, List.mem_cons, Prod.mk.injEq, List.not_mem_nil, or_false] at known
      rcases known with ⟨rfl, rfl⟩ | ⟨rfl, rfl⟩ | ⟨rfl, rfl⟩ | ⟨rfl, rfl⟩ | ⟨rfl, rfl⟩ |
        ⟨rfl, rfl⟩ | ⟨rfl, rfl⟩
      · rfl
      · rfl
      · rfl
      · rfl
      · rfl
      · rfl
      · cases quote <;> rfl
  | numeric digits =>
      have valid : char.toNat.isValidChar := char.valid
      simp [unit?, numericEscape?, digits, valid]

/-- Whatever a text is read as, the reader of query text reads it as that. -/
theorem Reads.body?_eq {delimiter : Delimiter} {text body left : Text}
    (read : Reads delimiter text body left) : body? delimiter.text text = some (body, left) := by
  induction read with
  | closed left => exact body?_of_closed ((Text.after?_eq_some_iff _ _ _).mpr rfl)
  | char spelled unclosed _ ih =>
      rw [body?_of_unit ((Text.after?_eq_none_iff _ _).mpr unclosed) (spelled.unit?_eq _), ih]
      rfl

/-! ## Escaped bodies -/

/-- A character is escaped to one of its spellings. -/
theorem spelling_escapeChar (quote : Quote) (char : Char) :
    Spelling quote char (escapeChar quote char) := by
  rw [escapeChar]
  split
  case isTrue same => exact .named (by simp [namedEscapes, same])
  split
  case isTrue same => exact .named (by simp [namedEscapes, same])
  split
  case isTrue same => exact .named (by simp [namedEscapes, same])
  split
  case isTrue same => exact .named (by simp [namedEscapes, same])
  split
  case isTrue same => exact .named (by simp [namedEscapes, same])
  split
  case isTrue same => exact .named (by simp [namedEscapes, same])
  split
  case isTrue control =>
    have small : char.toNat < 65536 := by omega
    exact .numeric (fourHexValue?_fourHexDigits _ small)
  split
  case isTrue same => exact .named (by simp [namedEscapes, same])
  case isFalse backslash _ _ _ _ _ printable _ =>
    exact .raw (Nat.le_of_not_lt printable) backslash

theorem Delimiter.text_eq_cons (delimiter : Delimiter) :
    ∃ more, delimiter.text = delimiter.quote.delimiter :: more := by
  obtain ⟨quote, tripled⟩ := delimiter
  cases tripled with
  | false => exact ⟨[], rfl⟩
  | true => exact ⟨[quote.delimiter, quote.delimiter], rfl⟩

/-- No escaped character begins with a delimiter, or with a part of one. -/
theorem not_prefix_escapeChar (delimiter : Delimiter) (char : Char) (rest : Text) :
    ¬delimiter.text <+: escapeChar delimiter.quote char ++ rest := by
  obtain ⟨more, same⟩ := delimiter.text_eq_cons
  rw [same, ← Text.after?_eq_none_iff]
  exact after?_escapeChar delimiter.quote more char rest

theorem reads_escape (delimiter : Delimiter) (text after : Text) :
    Reads delimiter (escape delimiter.quote text ++ (delimiter.text ++ after)) text after := by
  induction text with
  | nil => exact .closed after
  | cons char text ih =>
      have split : escape delimiter.quote (char :: text) =
          escapeChar delimiter.quote char ++ escape delimiter.quote text := rfl
      rw [split, List.append_assoc]
      exact .char (spelling_escapeChar delimiter.quote char)
        (not_prefix_escapeChar delimiter char _) ih

/-- An escaped body with its closing delimiter behind it can be read in one way alone: up to that
delimiter, as the text that was escaped, whatever follows. So no two texts have one escaped
form. -/
theorem escape_reversible (delimiter : Delimiter) :
    (∀ text after body left : Text,
      Reads delimiter (escape delimiter.quote text ++ (delimiter.text ++ after)) body left ↔
        body = text ∧ left = after) ∧
    Function.Injective (escape delimiter.quote) := by
  have unique (text after : Text) {body left : Text}
      (read : Reads delimiter (escape delimiter.quote text ++ (delimiter.text ++ after))
        body left) : body = text ∧ left = after := by
    have same := read.body?_eq.symm.trans (reads_escape delimiter text after).body?_eq
    simpa using same
  refine ⟨fun text after body left => ⟨unique text after, ?_⟩, fun first second same => ?_⟩
  · rintro ⟨rfl, rfl⟩
    exact reads_escape delimiter body left
  · have read := reads_escape delimiter first []
    rw [same] at read
    exact (unique second [] read).1

end SparqlText.Literal
