/-
# Assembled text as an encoding

Assembled text is what a sequence of symbols is encoded as: a character as itself,
and a node as its position between two marks. No character of a pattern is a mark,
and so the symbols can be told from the text (`encode_eq_append`,
`placeholder?_encode`).
-/

import SparqlText.Arrow.Reader
import SparqlText.Proofs.Arrow.Grammar
import SparqlText.Proofs.Decimal.Digits
import SparqlText.Proofs.Text.Runs

namespace SparqlText.ArrowPattern

/-- Symbols as assembled text, the first node among them having the given position. -/
def encode (position : Nat) : List Symbol → Text
  | [] => []
  | .char char :: rest => char :: encode position rest
  | .node :: rest => placeholder position ++ encode (position + 1) rest

@[simp]
theorem encode_nil (position : Nat) : encode position [] = [] := rfl

@[simp]
theorem encode_char (position : Nat) (char : Char) (rest : List Symbol) :
    encode position (.char char :: rest) = char :: encode position rest := rfl

@[simp]
theorem encode_node (position : Nat) (rest : List Symbol) :
    encode position (.node :: rest) = placeholder position ++ encode (position + 1) rest := rfl

@[simp]
theorem encode_chars (position : Nat) (text : Text) (rest : List Symbol) :
    encode position (chars text ++ rest) = text ++ encode position rest := by
  induction text with
  | nil => rfl
  | cons char text ih => exact congrArg (char :: ·) ih

theorem placeholder_eq_cons (position : Nat) (rest : Text) :
    placeholder position ++ rest = mark :: (Decimal.digits position ++ mark :: rest) := by
  simp [placeholder]

/-- Characters that begin an encoding are written characters, no mark being among
them. -/
theorem encode_eq_append {position : Nat} {text after : Text} {input : List Symbol}
    (unmarked : mark ∉ text) (encoded : encode position input = text ++ after) :
    ∃ rest, input = chars text ++ rest ∧ after = encode position rest := by
  induction text generalizing input with
  | nil => exact ⟨input, rfl, encoded.symm⟩
  | cons first text ih =>
      rw [List.mem_cons, not_or] at unmarked
      cases input with
      | nil => cases encoded
      | cons symbol input =>
          cases symbol with
          | char char =>
              rw [encode_char, List.cons_append, List.cons.injEq] at encoded
              obtain ⟨rfl, encoded⟩ := encoded
              obtain ⟨rest, rfl, same⟩ := ih unmarked.2 encoded
              exact ⟨rest, rfl, same⟩
          | node =>
              rw [encode_node, placeholder_eq_cons, List.cons_append, List.cons.injEq] at encoded
              exact absurd encoded.1 unmarked.1

/-! ## Assembling segments -/

theorem char_mem_symbols_iff {char : Char} {segments : List Segment} :
    Symbol.char char ∈ symbols segments ↔
      ∃ text, Segment.text text ∈ segments ∧ char ∈ text := by
  induction segments with
  | nil => simp [symbols]
  | cons segment rest ih =>
      cases segment with
      | text written =>
          simp [symbols, List.mem_append, char_mem_chars, ih, or_and_right, exists_or]
      | node id => simp [symbols, ih]

theorem count_node_symbols (segments : List Segment) :
    (symbols segments).count .node = (nodesOf segments).length := by
  induction segments with
  | nil => rfl
  | cons segment rest ih =>
      cases segment with
      | text written => rw [symbols, List.count_append, count_node_chars, Nat.zero_add, ih]; rfl
      | node id => rw [symbols, List.count_cons_self, ih]; rfl

theorem assembled_of_unmarked {position : Nat} {segments : List Segment}
    (unmarked : Symbol.char mark ∉ symbols segments) :
    assembled position segments = .ok (encode position (symbols segments)) := by
  induction segments generalizing position with
  | nil => rfl
  | cons segment rest ih =>
      cases segment with
      | text written =>
          rw [symbols, List.mem_append, not_or, char_mem_chars] at unmarked
          simp [assembled, symbols, unmarked.1, ih unmarked.2]
      | node id =>
          rw [symbols, List.mem_cons, not_or] at unmarked
          simp [assembled, symbols, ih unmarked.2]

theorem unmarked_of_assembled {position : Nat} {segments : List Segment} {text : Text}
    (assembly : assembled position segments = .ok text) :
    Symbol.char mark ∉ symbols segments := by
  induction segments generalizing position text with
  | nil => exact List.not_mem_nil
  | cons segment rest ih =>
      cases segment with
      | text written =>
          rw [assembled] at assembly
          split at assembly
          case isTrue => cases assembly
          case isFalse absent =>
            split at assembly
            case h_1 => cases assembly
            case h_2 after assembled =>
              rw [symbols, List.mem_append, not_or, char_mem_chars]
              exact ⟨fun member => absent (List.contains_iff_mem.mpr member), ih assembled⟩
      | node id =>
          rw [assembled] at assembly
          split at assembly
          case h_1 => cases assembly
          case h_2 after assembled =>
            rw [symbols, List.mem_cons, not_or]
            exact ⟨nofun, ih assembled⟩

/-- The segments of a pattern are assembled to the encoding of their symbols, and are
refused if there is a mark among them. -/
theorem assembled_eq_ok_iff {position : Nat} {segments : List Segment} {text : Text} :
    assembled position segments = .ok text ↔
      Symbol.char mark ∉ symbols segments ∧ text = encode position (symbols segments) := by
  constructor
  · intro assembly
    have unmarked := unmarked_of_assembled assembly
    rw [assembled_of_unmarked unmarked, Except.ok.injEq] at assembly
    exact ⟨unmarked, assembly.symm⟩
  · rintro ⟨unmarked, rfl⟩
    exact assembled_of_unmarked unmarked

/-! ## Placeholders -/

/-- A placeholder is read back as its position. -/
theorem placeholder?_placeholder (position : Nat) (rest : Text) :
    placeholder? (placeholder position ++ rest) =
      some (position, Text.size (Decimal.digits position) + 2, rest) := by
  have inside : ∀ char ∈ Decimal.digits position, (char != mark) = true := by
    intro char member
    have apart : char ≠ mark := by
      intro same
      subst same
      exact Decimal.not_mem_digits (by decide) position member
    exact bne_iff_ne.mpr apart
  have stop : (mark != mark) = false := by decide
  rw [placeholder_eq_cons, placeholder?, if_pos rfl]
  simp only [Text.takeWhile_run inside stop, Text.dropWhile_run inside stop,
    Decimal.natural?_digits, Option.map_some]

/-- What an encoding begins with is read as a position exactly where a node comes
first. -/
theorem placeholder?_encode {position right size : Nat} {input : List Symbol} {after : Text}
    (unmarked : Symbol.char mark ∉ input)
    (taken : placeholder? (encode position input) = some (right, size, after)) :
    ∃ rest, input = .node :: rest ∧ right = position ∧ after = encode (position + 1) rest := by
  cases input with
  | nil => cases taken
  | cons symbol rest =>
      cases symbol with
      | char char =>
          have other : char ≠ mark := by
            intro same
            subst same
            exact unmarked List.mem_cons_self
          rw [encode_char, placeholder?, if_neg other] at taken
          cases taken
      | node =>
          rw [encode_node, placeholder?_placeholder, Option.some.injEq, Prod.mk.injEq,
            Prod.mk.injEq] at taken
          exact ⟨rest, rfl, taken.1.symm, taken.2.2.symm⟩

end SparqlText.ArrowPattern
