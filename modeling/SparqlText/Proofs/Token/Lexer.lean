/-
# Tokens of query text

Text is read as tokens the way a query is: references in angle brackets, names,
literals with their datatype or language tag, and marks, with layout between them.
A literal token holds the text that its body stands for, and the keywords for truth
values are literals too.

Names are runs of the characters that names are made of, so that a name ends only
where something else begins. Marks that end no term, such as braces and full stops
on their own, are not tokens here.
-/

import SparqlText.Proofs.Literal.Body
import SparqlText.Term

namespace SparqlText

/-! ## Tokens -/

/-- A reference without its angle brackets, or a name as it is written. -/
inductive Word
  | reference (iri : Text)
  | name (text : Text)
  deriving DecidableEq, Repr

/-- What a literal says of its text. -/
inductive LiteralKind
  | plain
  | datatype (word : Word)
  | language (tag : Text)
  deriving DecidableEq, Repr

/-- A token. The text of a literal is without delimiters and escapes. -/
inductive Token
  | word (word : Word)
  | literal (text : Text) (kind : LiteralKind)
  | mark (char : Char)
  deriving DecidableEq, Repr

/-- A literal with a datatype that is given by its reference. -/
def Token.typed (text datatype : Text) : Token :=
  .literal text (.datatype (.reference datatype))

/-- A word as a token. The two truth values are literals. -/
def Token.ofWord : Word → Token
  | .reference iri => .word (.reference iri)
  | .name text =>
      if text = "true".toList || text = "false".toList then .typed text Vocabulary.xsdBoolean
      else .word (.name text)

namespace Lexer

/-! ## Characters -/

/-- A character that may stand between angle brackets. -/
def isReferenceChar (char : Char) : Bool :=
  !Term.forbiddenInReference.contains char && 0x20 < char.toNat

/-- A character of a name: of its parts, of the colon between them, or the mark of a
variable. -/
def isNameChar (char : Char) : Bool :=
  Name.isLocalChar char || char == ':' || char == '?' || char == '$'

/-- A character of a language tag. -/
def isTagChar (char : Char) : Bool :=
  char.isAlphanum || char == '-'

/-- The marks that stand around and between the parts of a term. -/
def marks : List Char := ['(', ')', '[', ']', ';']

/-- The delimiters of literals. The long ones come first, since each of them begins
with a short one. -/
def delimiters : List Text :=
  [['\x22', '\x22', '\x22'], ['\'', '\'', '\''], ['\x22'], ['\'']]

/-! ## One token -/

/-- The reference or name that a text begins with. -/
def word? : Text → Option (Word × Text)
  | '<' :: rest =>
      match rest.dropWhile isReferenceChar with
      | '>' :: after => some (.reference (rest.takeWhile isReferenceChar), after)
      | _ => none
  | text =>
      match text.takeWhile isNameChar with
      | [] => none
      | first :: more => some (.name (first :: more), text.dropWhile isNameChar)

/-- What a literal is followed by. -/
def kind? : Text → Option (LiteralKind × Text)
  | '^' :: '^' :: rest => (word? rest).map fun (word, after) => (.datatype word, after)
  | '@' :: rest =>
      if Name.isLanguageTag (rest.takeWhile isTagChar) then
        some (.language (rest.takeWhile isTagChar), rest.dropWhile isTagChar)
      else none
  | rest => some (.plain, rest)

/-- The delimiter that a text begins with. -/
def opening? (text : Text) : Option (Text × Text) :=
  delimiters.findSome? fun delimiter => (Text.after? delimiter text).map (delimiter, ·)

/-- The literal that a text begins with. -/
def literal? (text : Text) : Option (Token × Text) := do
  let (delimiter, inside) ← opening? text
  let (body, behind) ← Literal.body? delimiter inside
  let (kind, after) ← kind? behind
  return (.literal body kind, after)

/-- The mark that a text begins with. -/
def mark? : Text → Option (Token × Text)
  | [] => none
  | char :: rest => if marks.contains char then some (.mark char, rest) else none

/-- The token that a text begins with, and what follows it. -/
def token? (text : Text) : Option (Token × Text) :=
  match word? text with
  | some (word, after) => some (.ofWord word, after)
  | none => (literal? text).or (mark? text)

theorem length_lt_of_word? {text after : Text} {word : Word}
    (taken : word? text = some (word, after)) : after.length < text.length := by
  unfold word? at taken
  split at taken
  case h_1 rest =>
    split at taken
    case h_1 ends =>
      have whole := congrArg List.length ends
      have fewer := (List.dropWhile_sublist (l := rest) isReferenceChar).length_le
      cases taken
      rw [List.length_cons] at whole ⊢
      omega
    case h_2 => cases taken
  case h_2 =>
    split at taken
    case h_1 => cases taken
    case h_2 run =>
      have whole := congrArg List.length
        (List.takeWhile_append_dropWhile (p := isNameChar) (l := text))
      cases taken
      rw [run, List.length_append, List.length_cons] at whole
      omega

theorem length_le_of_kind? {text after : Text} {kind : LiteralKind}
    (taken : kind? text = some (kind, after)) : after.length ≤ text.length := by
  unfold kind? at taken
  split at taken
  · obtain ⟨⟨word, behind⟩, read, same⟩ := Option.map_eq_some_iff.mp taken
    cases same
    have shorter := length_lt_of_word? read
    simp only [List.length_cons]
    omega
  · split at taken
    · cases taken
      exact Nat.le_succ_of_le (List.dropWhile_sublist _).length_le
    · cases taken
  · cases taken
    exact Nat.le_refl _

theorem length_lt_of_opening? {text delimiter after : Text}
    (taken : opening? text = some (delimiter, after)) : after.length < text.length := by
  obtain ⟨tried, member, found⟩ := List.exists_of_findSome?_eq_some taken
  obtain ⟨rest, read, same⟩ := Option.map_eq_some_iff.mp found
  cases same
  have positive : 0 < delimiter.length := by
    have all : ∀ delimiter ∈ delimiters, 0 < delimiter.length := by decide
    exact all delimiter member
  rw [(Text.after?_eq_some_iff _ _ _).mp read, List.length_append]
  omega

theorem length_lt_of_literal? {text after : Text} {token : Token}
    (taken : literal? text = some (token, after)) : after.length < text.length := by
  simp only [literal?, Option.bind_eq_bind, Option.bind_eq_some_iff, Option.pure_def] at taken
  obtain ⟨⟨delimiter, inside⟩, opened, ⟨body, behind⟩, read, ⟨kind, rest⟩, said, same⟩ :=
    taken
  cases same
  have first := length_lt_of_opening? opened
  have second := Literal.length_le_of_body? read
  have third := length_le_of_kind? said
  dsimp only at first second third ⊢
  omega

theorem length_lt_of_token? {text after : Text} {token : Token}
    (taken : token? text = some (token, after)) : after.length < text.length := by
  unfold token? at taken
  split at taken
  case h_1 read =>
    cases taken
    exact length_lt_of_word? read
  case h_2 =>
    cases Option.or_eq_some_iff.mp taken with
    | inl read => exact length_lt_of_literal? read
    | inr read =>
        have read := read.2
        unfold mark? at read
        split at read
        · cases read
        · split at read
          · cases read
            exact Nat.lt_succ_self _
          · cases read

/-! ## Whole texts -/

/-- The tokens of a text, if it is nothing but tokens and layout. -/
def tokens? (text : Text) : Option (List Token) :=
  match text with
  | [] => some []
  | char :: rest =>
      if Text.isLayout char then tokens? rest
      else
        match _token : token? (char :: rest) with
        | none => none
        | some (token, after) => (tokens? after).map (token :: ·)
termination_by text.length
decreasing_by
  · exact Nat.lt_succ_self _
  · exact length_lt_of_token? _token

theorem tokens?_nil : tokens? [] = some [] := by
  rw [tokens?.eq_def]

theorem tokens?_layout {char : Char} {rest : Text} (layout : Text.isLayout char = true) :
    tokens? (char :: rest) = tokens? rest := by
  rw [tokens?.eq_def]
  exact if_pos layout

theorem tokens?_token {char : Char} {rest after : Text} {token : Token}
    (visible : Text.isLayout char = false) (taken : token? (char :: rest) = some (token, after)) :
    tokens? (char :: rest) = (tokens? after).map (token :: ·) := by
  rw [tokens?.eq_def]
  dsimp only
  rw [if_neg (Bool.eq_false_iff.mp visible)]
  split
  case h_1 missing =>
    rw [taken] at missing
    cases missing
  case h_2 same =>
    rw [taken] at same
    cases same
    rfl

end Lexer

end SparqlText
