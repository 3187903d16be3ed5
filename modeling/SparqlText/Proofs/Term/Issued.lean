/-
# Terms as tokens

A term that one of the checking constructors has built is one token of a query, and
the token is determined by what the constructor was given: the reference, the name,
or the text of a literal with its datatype or language tag. Nothing in the arguments
can make it two tokens or part of one.
-/

import SparqlText.Proofs.Literal.Plain
import SparqlText.Proofs.Term.Form
import SparqlText.Proofs.Token.Spelling

namespace SparqlText

/-- The word that the text of a reference of any kind is. -/
def Word.ofText : Text → Word
  | '<' :: inner => .reference inner.dropLast
  | text => .name text

namespace Term

open Lexer

/-! ## References -/

theorem isReferenceChar_of_isForbidden {char : Char} (clean : isForbidden char = false) :
    isReferenceChar char = true := by
  rw [isForbidden, Bool.or_eq_false_iff] at clean
  have space : char ≠ ' ' := by
    intro same
    subst same
    exact nomatch clean.1
  have printable : ¬char.toNat < 0x20 := by
    intro low
    have control : Text.isControl char = true := by simp [Text.isControl, low]
    rw [control] at clean
    exact nomatch clean.2
  have apart : char.toNat ≠ 0x20 := fun same => space (Char.toNat_inj.mp same)
  have above : 0x20 < char.toNat := by omega
  simp only [isReferenceChar, clean.1, above, Bool.not_false, decide_true, Bool.and_self]

theorem isNameChar_of_isWord {char : Char} (word : Name.isWord char = true) :
    isNameChar char = true := by
  simp [isNameChar, Name.isLocalChar, word]

theorem isNameChar_of_isLocalChar {char : Char} (inside : Name.isLocalChar char = true) :
    isNameChar char = true := by
  simp [isNameChar, inside]

/-- A form is a reference in angle brackets or made of the characters of names. -/
theorem Form.reference_or_name {config : RenderConfig} {text : Text} (form : Form config text) :
    (∃ inner, text = '<' :: inner ++ ['>'] ∧ ∀ char ∈ inner, isReferenceChar char = true) ∨
      (text ≠ [] ∧ ∀ char ∈ text, isNameChar char = true) := by
  cases form with
  | keyword => exact .inr ⟨List.cons_ne_nil _ _, List.all_eq_true.mp rfl⟩
  | @iri inner _ clean =>
      exact .inl ⟨inner, rfl, fun char member => isReferenceChar_of_isForbidden (clean char member)⟩
  | var named =>
      have inside := Name.isWord_of_mem_isIdentifier named
      refine .inr ⟨List.cons_ne_nil _ _, fun char member => ?_⟩
      cases member with
      | head => decide
      | tail _ member => exact isNameChar_of_isWord (inside char member)
  | blank labelled =>
      have inside := Name.isLocalChar_of_mem_isBlankLabel labelled
      have lead : ∀ char ∈ blankMark, isNameChar char = true := List.all_eq_true.mp rfl
      refine .inr ⟨List.cons_ne_nil _ _, fun char member => ?_⟩
      cases List.mem_append.mp member with
      | inl member => exact lead char member
      | inr member => exact isNameChar_of_isLocalChar (inside char member)
  | prefixed spaced named =>
      have inside := Name.isLocalChar_of_mem_isLocal named
      refine .inr ⟨by simp, fun char member => ?_⟩
      cases List.mem_append.mp member with
      | inl member =>
          cases spaced with
          | inl empty =>
              subst empty
              cases member
          | inr spaced =>
              exact isNameChar_of_isWord (Name.isWord_of_mem_isIdentifier spaced char member)
      | inr member =>
          cases member with
          | head => decide
          | tail _ member => exact isNameChar_of_isLocalChar (inside char member)

theorem ofText_reference (inner : Text) :
    Word.ofText ('<' :: inner ++ ['>']) = .reference inner := by
  rw [List.cons_append, Word.ofText, List.dropLast_concat]

theorem ofText_name {text : Text} (clean : ∀ char ∈ text, isNameChar char = true) :
    Word.ofText text = .name text := by
  unfold Word.ofText
  split
  · have named := clean '<' List.mem_cons_self
    exact absurd named (by decide)
  · rfl

theorem ofText_prefixed {space name : Text}
    (spaced : space = [] ∨ Name.isIdentifier space = true) :
    Word.ofText (space ++ ':' :: name) = .name (space ++ ':' :: name) := by
  cases spaced with
  | inl empty =>
      subst empty
      rfl
  | inr spaced =>
      cases space with
      | nil => cases spaced
      | cons first rest =>
          have word := Name.isWord_of_mem_isIdentifier spaced first List.mem_cons_self
          have other : first ≠ '<' := by
            intro same
            subst same
            exact absurd word (by decide)
          unfold Word.ofText
          split
          case h_1 same => exact absurd (List.cons.inj same).1 other
          case h_2 => rfl

/-- Every form of a reference is read as one word. -/
theorem Form.reads {config : RenderConfig} {text : Text} (form : Form config text) :
    Reads word? text (.ofText text) := by
  cases form.reference_or_name with
  | inl reference =>
      obtain ⟨inner, rfl, clean⟩ := reference
      rw [ofText_reference]
      exact reads_reference clean
  | inr name =>
      obtain ⟨nonempty, clean⟩ := name
      rw [ofText_name clean]
      exact reads_name nonempty clean

theorem ofWord_reference (iri : Text) : Token.ofWord (.reference iri) = .word (.reference iri) :=
  rfl

theorem ofWord_name {text : Text} (notTrue : text ≠ "true".toList)
    (notFalse : text ≠ "false".toList) : Token.ofWord (.name text) = .word (.name text) := by
  simp only [Token.ofWord, notTrue, notFalse, decide_false, Bool.or_self, Bool.false_eq_true,
    if_false]

/-- Every form but the keyword has a mark that no keyword has. -/
theorem Form.marked {config : RenderConfig} {text : Text} (form : Form config text) :
    text = ['a'] ∨ '<' ∈ text ∨ '?' ∈ text ∨ ':' ∈ text := by
  cases form with
  | keyword => exact .inl rfl
  | iri _ _ => simp
  | var _ => simp
  | blank _ => simp [blankMark]
  | prefixed _ _ => simp

/-- No form of a reference is a truth value. -/
theorem Form.ofWord {config : RenderConfig} {text : Text} (form : Form config text) :
    Token.ofWord (.ofText text) = .word (.ofText text) := by
  cases form.reference_or_name with
  | inl reference =>
      obtain ⟨inner, rfl, _⟩ := reference
      rw [ofText_reference, ofWord_reference]
  | inr name =>
      rw [ofText_name name.2]
      apply ofWord_name
      · intro same
        subst same
        exact absurd form.marked (by decide)
      · intro same
        subst same
        exact absurd form.marked (by decide)

/-- A form of a reference spells one word. -/
theorem Form.spells {config : RenderConfig} {text : Text} (form : Form config text) :
    Spells text [.word (.ofText text)] := by
  rw [← form.ofWord]
  exact form.reads.token.spells

/-! ## Literals -/

/-- The references of the vocabulary that literals are written with. -/
theorem reads_datatypeSuffix {datatype : Text}
    (clean : ∀ char ∈ datatype, isReferenceChar char = true) :
    Reads kind? (datatypeSuffix datatype) (.datatype (.reference datatype)) :=
  reads_datatype (reads_reference clean)

theorem isReferenceChar_of_mem_xsd (name : String)
    (clean : name.toList.all isReferenceChar = true) :
    ∀ char ∈ Vocabulary.xsd name, isReferenceChar char = true := by
  have space : ∀ char ∈ Vocabulary.xsdNamespace, isReferenceChar char = true :=
    List.all_eq_true.mp rfl
  exact List.forall_mem_append.mpr ⟨space, List.all_eq_true.mp clean⟩

theorem spells_string (text : Text) :
    Spells (Term.string text).text [.typed text Vocabulary.xsdString] := by
  have clean := isReferenceChar_of_mem_xsd "string" rfl
  exact (reads_long (reads_datatypeSuffix clean)).spells

/-- A literal whose lexical form is plain spells one token. -/
theorem spells_lexical {form datatype : Text} (plain : Literal.Plain form)
    (clean : ∀ char ∈ datatype, isReferenceChar char = true) :
    Spells (Term.lexical form datatype).text [.typed form datatype] :=
  (reads_short plain (reads_datatypeSuffix clean)).spells

theorem spells_integer (value : Int) :
    Spells (Term.integer value).text [.typed (Decimal.integer value) Vocabulary.xsdInteger] := by
  have clean := isReferenceChar_of_mem_xsd "integer" rfl
  exact spells_lexical (Literal.plain_integer value) clean

theorem spells_boolean (value : Bool) :
    Spells (Term.boolean value).text
      [.typed (Term.boolean value).text Vocabulary.xsdBoolean] := by
  have clean : ∀ char ∈ (Term.boolean value).text, isNameChar char = true := by
    cases value <;> exact List.all_eq_true.mp rfl
  have nonempty : (Term.boolean value).text ≠ [] := by cases value <;> exact List.cons_ne_nil _ _
  have whole := (reads_name nonempty clean).token.spells
  cases value with
  | false => exact whole
  | true => exact whole

/-! ## Issued terms -/

/-- A term is what a checking constructor built, and a token is what the arguments of
the constructor stand for. -/
inductive Issued : Term → Token → Prop
  | iri {config : RenderConfig} {reference : Text} {term : Term}
      (accepted : Term.iri config reference = .ok term) :
      Issued term (.word (.reference (withoutBrackets reference)))
  | var {name : Text} {term : Term} (accepted : Term.var name = .ok term) :
      Issued term (.word (.name ('?' :: withoutVariableMark name)))
  | blank {label : Text} {term : Term} (accepted : Term.blank label = .ok term) :
      Issued term (.word (.name (blankMark ++ bareLabel label)))
  | prefixed {space name : Text} {term : Term} (accepted : Term.prefixed space name = .ok term) :
      Issued term (.word (.name (space ++ ':' :: name)))
  | curie {text : Text} {term : Term} (accepted : Term.curie text = .ok term) :
      Issued term (.word (.name text))
  | reference {config : RenderConfig} {text : Text} {term : Term}
      (accepted : Term.reference config text = .ok term) : Issued term (.word (.ofText term.text))
  | predicate {config : RenderConfig} {key : Text} {term : Term}
      (accepted : Term.predicate config key = .ok term) : Issued term (.word (.ofText term.text))
  | typedLiteral {text datatype : Text} {kind term : Term}
      (resolved : Term.reference .standard datatype = .ok kind)
      (accepted : Term.typedLiteral text datatype = .ok term) :
      Issued term (.literal text (.datatype (.ofText kind.text)))
  | languageLiteral {text tag : Text} {term : Term}
      (accepted : Term.languageLiteral text tag = .ok term) :
      Issued term (.literal text (.language tag))
  | string (text : Text) : Issued (Term.string text) (.typed text Vocabulary.xsdString)
  | integer {value : Binary64} {whole : Int} {term : Term}
      (exact : value.exactInteger? = some whole)
      (accepted : Term.exactInteger value = .ok term) :
      Issued term (.typed (Decimal.integer whole) Vocabulary.xsdInteger)
  | boolean (value : Bool) :
      Issued (Term.boolean value) (.typed (Term.boolean value).text Vocabulary.xsdBoolean)

theorem typedLiteral_eq_ok {text datatype : Text} {kind term : Term}
    (resolved : reference .standard datatype = .ok kind)
    (accepted : typedLiteral text datatype = .ok term) :
    term.text = Literal.long text ++ '^' :: '^' :: kind.text := by
  rw [typedLiteral, resolved] at accepted
  dsimp only at accepted
  split at accepted
  · cases accepted
  · cases accepted
    simp

theorem languageLiteral_eq_ok_iff {text tag : Text} {term : Term} :
    languageLiteral text tag = .ok term ↔
      Name.isLanguageTag tag = true ∧ term = ⟨Literal.long text ++ '@' :: tag⟩ := by
  rw [languageLiteral]
  by_cases tagged : Name.isLanguageTag tag = true
  · simp [tagged, eq_comm]
  · simp [tagged]

theorem exactInteger_eq_ok {value : Binary64} {whole : Int} {term : Term}
    (same : value.exactInteger? = some whole) (accepted : exactInteger value = .ok term) :
    term = Term.integer whole := by
  rw [exactInteger, same] at accepted
  split at accepted
  · cases accepted
  · cases accepted
    rfl

theorem spells_prefixed {space name : Text} {term : Term}
    (accepted : prefixed space name = .ok term) :
    Spells term.text [.word (.name (space ++ ':' :: name))] := by
  obtain ⟨spaced, named, rfl⟩ := prefixed_eq_ok_iff.mp accepted
  have form : Form .standard _ := .prefixed spaced named
  rw [← ofText_prefixed spaced]
  exact form.spells

/-- An issued term is one token. -/
theorem Issued.spells {term : Term} {token : Token} (issued : Issued term token) :
    Spells term.text [token] := by
  cases issued with
  | iri accepted =>
      obtain ⟨allowed, clean, rfl⟩ := iri_eq_ok_iff.mp accepted
      rw [← ofText_reference]
      exact (Form.iri allowed clean).spells
  | var accepted =>
      obtain ⟨named, rfl⟩ := var_eq_ok_iff.mp accepted
      have form : Form .standard _ := .var named
      exact form.spells
  | blank accepted =>
      obtain ⟨labelled, rfl⟩ := blank_eq_ok_iff.mp accepted
      have form : Form .standard _ := .blank labelled
      exact form.spells
  | prefixed accepted => exact spells_prefixed accepted
  | curie accepted =>
      obtain ⟨space, name, rfl, _, accepted⟩ := curie_eq_ok_iff.mp accepted
      exact spells_prefixed accepted
  | reference accepted => exact (form_of_reference accepted).spells
  | predicate accepted => exact (form_of_predicate accepted).spells
  | typedLiteral resolved accepted =>
      rw [typedLiteral_eq_ok resolved accepted]
      exact (reads_long (reads_datatype (form_of_reference resolved).reads)).spells
  | languageLiteral accepted =>
      obtain ⟨tagged, rfl⟩ := languageLiteral_eq_ok_iff.mp accepted
      exact (reads_long (reads_language tagged)).spells
  | string text => exact spells_string text
  | integer same accepted =>
      rw [exactInteger_eq_ok same accepted]
      exact spells_integer _
  | boolean value => exact spells_boolean value

/-- A term stands for one token only, whichever constructor is said to have built
it. -/
theorem Issued.unique {term : Term} {first second : Token} (one : Issued term first)
    (other : Issued term second) : first = second := by
  have same := one.spells.tokens?_eq.symm.trans other.spells.tokens?_eq
  simpa using same

end Term

end SparqlText
