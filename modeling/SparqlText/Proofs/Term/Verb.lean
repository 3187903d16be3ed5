/-
# What texts in predicate position become

A predicate may be the keyword `a`, a reference in angle brackets, a variable or a prefixed
name: a `Verb`. Text that is given as a predicate is resolved like any other reference, and
blank nodes are references. `PredicateText` says what is written for a text that is accepted:
a verb, except that a blank node is written as it was given. It is the text alone, with the
schemes that are allowed, that decides between the two.
-/

import SparqlText.Proofs.Term.Shape
import SparqlText.Proofs.Text.Trimming

namespace SparqlText

namespace Term

/-! ## Verbs -/

/-- What may stand in predicate position under a configuration. A prefixed name has no
underscore alone as its prefix, which would make it a blank node. -/
inductive Verb (config : RenderConfig) : Text → Prop
  | keyword : Verb config ['a']
  | iri {inner : Text} (member : inner ∈ Grammar.reference config) :
      Verb config ('<' :: inner ++ ['>'])
  | var {name : Text} (named : name ∈ Grammar.identifier) : Verb config ('?' :: name)
  | prefixed {space name : Text} (spaced : space = [] ∨ space ∈ Grammar.identifier)
      (named : name ∈ Grammar.localName) (apart : ¬['_', ':'] <+: space ++ ':' :: name) :
      Verb config (space ++ ':' :: name)

variable {config : RenderConfig} {text : Text} {term : Term}

/-- No verb begins like a blank node. -/
theorem Verb.apart (verb : Verb config text) : ¬blankMark <+: text := by
  cases verb with
  | keyword => decide
  | iri => simp [blankMark]
  | var => simp [blankMark]
  | prefixed _ _ apart => exact apart

/-- A form of a reference is a verb, unless it begins like a blank node. -/
theorem Form.verb (form : Form config text) (apart : ¬blankMark <+: text) :
    Verb config text := by
  cases form with
  | keyword => exact .keyword
  | iri allowed clean => exact .iri (mem_reference allowed clean)
  | var named => exact .var (Grammar.mem_identifier named)
  | blank => exact absurd (List.prefix_append _ _) apart
  | prefixed spaced named =>
      exact .prefixed (spaced.imp_right Grammar.mem_identifier) (Grammar.mem_localName named) apart

/-! ## Texts that are accepted -/

/-- A text that is resolved to a blank node, if it is accepted: it begins like one, and with no
allowed scheme. -/
def NamesBlankNode (config : RenderConfig) (text : Text) : Prop :=
  blankMark <+: Text.trim text ∧ config.allows (Text.trim text) = false

/-- What is written for a text that is accepted as a predicate. -/
inductive PredicateText (config : RenderConfig) (given : Text) : Text → Prop
  | verb {written : Text} (verb : Verb config written) (other : ¬NamesBlankNode config given) :
      PredicateText config given written
  | blank {label : Text} (labelled : label ∈ Grammar.blankLabel)
      (names : NamesBlankNode config given) (whole : Text.trim given = blankMark ++ label) :
      PredicateText config given (blankMark ++ label)

/-- What is written is a verb exactly when no blank node was given. -/
theorem PredicateText.verb_iff {given written : Text}
    (predicated : PredicateText config given written) :
    Verb config written ↔ ¬NamesBlankNode config given := by
  cases predicated with
  | verb verb other => exact iff_of_true verb other
  | blank labelled names whole =>
      exact iff_of_false (fun verb => verb.apart (List.prefix_append _ _)) (not_not_intro names)

theorem bareLabel_append (label : Text) : bareLabel (blankMark ++ label) = label := by
  rw [bareLabel, (Text.after?_eq_some_iff _ _ label).mpr rfl]
  rfl

/-- A blank node that is accepted is built as it was written. -/
theorem blank_append_eq_ok_iff {label : Text} :
    blank (blankMark ++ label) = .ok term ↔
      Name.isBlankLabel label = true ∧ term = ⟨blankMark ++ label⟩ := by
  rw [blank_eq_ok_iff, bareLabel_append]

theorem text_of_curie (accepted : curie text = .ok term) : term.text = text := by
  obtain ⟨space, name, rfl, -, accepted⟩ := curie_eq_ok_iff.mp accepted
  obtain ⟨-, -, rfl⟩ := prefixed_eq_ok_iff.mp accepted
  rfl

theorem head?_of_blankMark (lead : blankMark <+: text) : text.head? = some '_' := by
  obtain ⟨label, rfl⟩ := lead
  rfl

/-- The text of a reference decides what is written for it. -/
theorem predicateText_of_reference {given : Text} (accepted : reference config given = .ok term) :
    PredicateText config given term.text := by
  rw [reference, resolved] at accepted
  split at accepted
  case isTrue same =>
    cases accepted
    refine .verb .keyword fun names => ?_
    rw [NamesBlankNode, same] at names
    exact absurd names.1 (by decide)
  split at accepted
  case isTrue absolute =>
    obtain ⟨allowed, clean, rfl⟩ := iri_eq_ok_iff.mp accepted
    refine .verb (.iri (mem_reference allowed clean)) fun names => ?_
    rw [head?_of_blankMark names.1, names.2] at absolute
    cases absolute
  case isFalse relative =>
    split at accepted
    case isTrue marked =>
      obtain ⟨named, rfl⟩ := var_eq_ok_iff.mp accepted
      refine .verb (.var (Grammar.mem_identifier named)) fun names => ?_
      rw [hasVariableMark, head?_of_blankMark names.1] at marked
      cases marked
    split at accepted
    case isTrue lead =>
      obtain ⟨label, whole⟩ := List.isPrefixOf_iff_prefix.mp lead
      rw [← whole] at accepted
      obtain ⟨labelled, rfl⟩ := blank_append_eq_ok_iff.mp accepted
      refine .blank (Grammar.mem_blankLabel labelled) ⟨⟨label, whole⟩, ?_⟩ whole.symm
      rw [Bool.or_eq_true, not_or] at relative
      exact Bool.eq_false_iff.mpr relative.2
    case isFalse apart =>
      rw [List.isPrefixOf_iff_prefix] at apart
      split at accepted
      case isTrue =>
        refine .verb ((form_of_curie accepted).verb ?_) fun names => apart names.1
        rwa [text_of_curie accepted]
      case isFalse => cases accepted

theorem reference_trim (config : RenderConfig) (text : Text) :
    reference config (Text.trim text) = reference config text := by
  rw [reference, Text.trim_trim, reference]

/-- The key of a property is no different, except that it may be an identifier. -/
theorem predicateText_of_predicate {given : Text} (accepted : predicate config given = .ok term) :
    PredicateText config given term.text := by
  rw [predicate] at accepted
  split at accepted
  case isTrue =>
    rw [reference_trim] at accepted
    exact predicateText_of_reference accepted
  case isFalse bare =>
    cases checked : checkIdentifier (Text.trim given) with
    | error reason =>
        rw [checked] at accepted
        cases accepted
    | ok =>
        rw [checked] at accepted
        cases accepted
        have named := Name.isLocal_of_isIdentifier (checkIdentifier_eq_ok_iff.mp checked)
        refine .verb (.prefixed (.inl rfl) (Grammar.mem_localName named) (by simp)) fun names => ?_
        have colon : ':' ∈ Text.trim given := names.1.mem (by decide)
        simp [colon] at bare

end Term

end SparqlText
