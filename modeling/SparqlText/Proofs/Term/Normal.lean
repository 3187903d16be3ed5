/-
# Resolving a term again

The text of a term is itself a text that may be given, and it is resolved to the same term. A
variable is written with the mark `?` whichever mark it was given with, so this needs that no
allowed scheme makes the written variable an absolute reference.
-/

import SparqlText.Proofs.Term.Verb

namespace SparqlText.Term

variable {config : RenderConfig} {given : Text} {term : Term}

/-- A reference between angle brackets is resolved like the reference alone. -/
theorem reference_bracketed (config : RenderConfig) (inner : Text) :
    reference config ('<' :: inner ++ ['>']) = iri config ('<' :: inner ++ ['>']) := by
  have other : '<' :: inner ++ ['>'] ≠ keyword.text := by simp [keyword]
  rw [reference, Text.trim_between rfl rfl, resolved, if_neg other]
  rfl

theorem withoutBrackets_bracketed (inner : Text) :
    withoutBrackets ('<' :: inner ++ ['>']) = inner := by
  simp [withoutBrackets, Text.withoutLast?]

/-- A reference that lacks its closing bracket is refused. -/
theorem reference_unclosed {inner : Text} (solid : ∀ char ∈ inner, Text.isBlank char = false)
    (unclosed : '>' ∉ inner) : reference config ('<' :: inner) ≠ .ok term := by
  intro accepted
  have whole : ∀ char ∈ '<' :: inner, Text.isBlank char = false :=
    List.forall_mem_cons.mpr ⟨rfl, solid⟩
  have other : '<' :: inner ≠ keyword.text := by simp [keyword]
  have kept : withoutBrackets ('<' :: inner) = '<' :: inner := by
    have last : inner.getLast? ≠ some '>' := fun ends => unclosed (List.mem_of_getLast? ends)
    simp [withoutBrackets, Text.withoutLast?, last]
  rw [reference, Text.trim_eq_self whole, resolved, if_neg other] at accepted
  have clean := (iri_eq_ok_iff.mp accepted).2.1
  rw [kept] at clean
  exact absurd (clean '<' List.mem_cons_self) (by decide)

/-- No character of a name is white space. -/
theorem isBlank_of_isNameChar {char : Char} (inside : Lexer.isNameChar char = true) :
    Text.isBlank char = false := by
  simp only [Lexer.isNameChar, Name.isLocalChar, Name.isWord, Bool.or_eq_true, beq_iff_eq] at inside
  rcases inside with (((((held | rfl) | rfl) | rfl) | rfl) | rfl) | rfl
  case inl =>
    have bounds : ((65 ≤ char.toNat ∧ char.toNat ≤ 90) ∨ (97 ≤ char.toNat ∧ char.toNat ≤ 122)) ∨
        (48 ≤ char.toNat ∧ char.toNat ≤ 57) := Grammar.alphanumeric_of_isAlphanum held
    rw [← Bool.not_eq_true]
    simp only [Text.isBlank, Bool.or_eq_true, Bool.and_eq_true, decide_eq_true_eq, beq_iff_eq]
    omega
  all_goals rfl

/-- A variable is resolved to itself where no scheme makes it an absolute reference. -/
theorem reference_variable {name : Text} (named : Name.isIdentifier name = true)
    (apart : config.allows ('?' :: name) = false) :
    reference config ('?' :: name) = .ok ⟨'?' :: name⟩ := by
  have words := Name.isWord_of_mem_isIdentifier named
  have solid : ∀ char ∈ '?' :: name, Text.isBlank char = false :=
    List.forall_mem_cons.mpr
      ⟨rfl, fun char member => isBlank_of_isNameChar (isNameChar_of_isWord (words char member))⟩
  have other : '?' :: name ≠ keyword.text := by simp [keyword]
  rw [reference, Text.trim_eq_self solid, resolved, if_neg other, apart]
  exact var_eq_ok_iff.mpr ⟨named, rfl⟩

/-- The text of a term is resolved to the term, where no scheme begins with the mark of a
variable. -/
theorem reference_text (apart : ∀ name, config.allows ('?' :: name) = false)
    (accepted : reference config given = .ok term) : reference config term.text = .ok term := by
  have again := accepted
  rw [← reference_trim] at again
  rw [reference, resolved] at accepted
  split at accepted
  case isTrue =>
    cases accepted
    rfl
  split at accepted
  case isTrue =>
    obtain ⟨allowed, clean, rfl⟩ := iri_eq_ok_iff.mp accepted
    rw [reference_bracketed, iri_eq_ok_iff, withoutBrackets_bracketed]
    exact ⟨allowed, clean, rfl⟩
  split at accepted
  case isTrue =>
    obtain ⟨named, rfl⟩ := var_eq_ok_iff.mp accepted
    exact reference_variable named (apart _)
  -- Blank nodes and prefixed names are built as they are written.
  split at accepted
  case isTrue lead =>
    obtain ⟨label, whole⟩ := List.isPrefixOf_iff_prefix.mp lead
    rw [← whole] at accepted again
    obtain ⟨-, rfl⟩ := blank_append_eq_ok_iff.mp accepted
    exact again
  split at accepted
  case isTrue =>
    rw [text_of_curie accepted]
    exact again
  case isFalse => cases accepted

end SparqlText.Term
