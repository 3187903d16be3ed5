/-
# What the constructors of terms build

Each constructor is described by exactly what it accepts and what it builds from it.
A reference of any kind has one of five written forms (`Form`), and every character
of a form is known from its class: none of them is layout, a quote or a bracket.
-/

import SparqlText.Proofs.Text.Runs
import SparqlText.Term

namespace SparqlText

/-! ## Characters of names -/

namespace Name

theorem isWord_of_mem_isIdentifier {name : Text} (named : isIdentifier name = true) :
    ∀ char ∈ name, isWord char = true := by
  cases name with
  | nil => exact nofun
  | cons first rest =>
      rw [isIdentifier, Bool.and_eq_true, List.all_eq_true] at named
      intro char member
      cases member with
      | head =>
          have letter := named.1
          rw [Bool.or_eq_true] at letter
          cases letter with
          | inl alpha => simp [isWord, Char.isAlphanum, alpha]
          | inr low => simp [isWord, low]
      | tail _ member => exact named.2 char member

theorem isLocalChar_of_mem_isLocal {name : Text} (named : isLocal name = true) :
    ∀ char ∈ name, isLocalChar char = true := by
  cases name with
  | nil => exact nofun
  | cons first rest =>
      simp only [isLocal, Bool.and_eq_true, List.all_eq_true] at named
      intro char member
      cases member with
      | head => simp [isLocalChar, named.1.1]
      | tail _ member => exact named.1.2 char member

theorem isLocalChar_of_mem_isBlankLabel {label : Text} (labelled : isBlankLabel label = true) :
    ∀ char ∈ label, isLocalChar char = true := by
  cases label with
  | nil => exact nofun
  | cons first rest =>
      simp only [isBlankLabel, Bool.and_eq_true, List.all_eq_true] at labelled
      intro char member
      cases member with
      | head => simp [isLocalChar, labelled.1]
      | tail _ member =>
          have inside := labelled.2 char member
          rw [Bool.or_eq_true] at inside
          cases inside with
          | inl word => simp [isLocalChar, word]
          | inr hyphen => simp [isLocalChar, hyphen]

/-- An identifier may stand behind the colon of a prefixed name. -/
theorem isLocal_of_isIdentifier {name : Text} (named : isIdentifier name = true) :
    isLocal name = true := by
  have words := isWord_of_mem_isIdentifier named
  cases name with
  | nil => cases named
  | cons first rest =>
      have locals : ∀ char ∈ rest, isLocalChar char = true := by
        intro char member
        simp [isLocalChar, words char (List.mem_cons_of_mem _ member)]
      have last : (first :: rest).getLast? ≠ some '.' := by
        intro ends
        have word := words '.' (List.mem_of_getLast? ends)
        exact absurd word (by decide)
      simp [isLocal, words first List.mem_cons_self, List.all_eq_true.mpr locals, last]

end Name

namespace Term

/-! ## Forms -/

/-- The written forms of references under a configuration. -/
inductive Form (config : RenderConfig) : Text → Prop
  | keyword : Form config ['a']
  | iri {inner : Text} (allowed : config.allows inner = true)
      (clean : ∀ char ∈ inner, isForbidden char = false) :
      Form config ('<' :: inner ++ ['>'])
  | var {name : Text} (named : Name.isIdentifier name = true) : Form config ('?' :: name)
  | blank {label : Text} (labelled : Name.isBlankLabel label = true) :
      Form config (blankMark ++ label)
  | prefixed {space name : Text} (spaced : space = [] ∨ Name.isIdentifier space = true)
      (named : Name.isLocal name = true) : Form config (space ++ ':' :: name)

variable {config : RenderConfig} {term : Term}

/-! ## The constructors -/

theorem checkIdentifier_eq_ok_iff {name : Text} :
    checkIdentifier name = .ok () ↔ Name.isIdentifier name = true := by
  rw [checkIdentifier]
  by_cases named : Name.isIdentifier name = true
  · simp [named]
  · simp [named]

theorem checkReference_eq_ok_iff {reference : Text} :
    checkReference config reference = .ok () ↔
      config.allows reference = true ∧ ∀ char ∈ reference, isForbidden char = false := by
  rw [checkReference]
  by_cases allowed : config.allows reference = true
  · cases found : reference.find? isForbidden with
    | none => simpa [allowed] using found
    | some char =>
        have forbidden := List.find?_some found
        have member := List.mem_of_find?_eq_some found
        simp only [allowed, if_true, reduceCtorEq, true_and, false_iff]
        intro clean
        rw [clean char member] at forbidden
        cases forbidden
  · simp [allowed]

theorem iri_eq_ok_iff {reference : Text} :
    iri config reference = .ok term ↔
      config.allows (withoutBrackets reference) = true ∧
        (∀ char ∈ withoutBrackets reference, isForbidden char = false) ∧
        term = ⟨'<' :: withoutBrackets reference ++ ['>']⟩ := by
  rw [← and_assoc, ← checkReference_eq_ok_iff, iri]
  cases checkReference config (withoutBrackets reference) with
  | error reason => simp
  | ok checked => simp [eq_comm]

theorem var_eq_ok_iff {name : Text} :
    var name = .ok term ↔
      Name.isIdentifier (withoutVariableMark name) = true ∧
        term = ⟨'?' :: withoutVariableMark name⟩ := by
  rw [← checkIdentifier_eq_ok_iff, var]
  cases checkIdentifier (withoutVariableMark name) with
  | error reason => simp
  | ok checked => simp [eq_comm]

/-- The label of a blank node without its mark. -/
def bareLabel (label : Text) : Text :=
  (Text.after? blankMark label).getD label

theorem blank_eq_ok_iff {label : Text} :
    blank label = .ok term ↔
      Name.isBlankLabel (bareLabel label) = true ∧ term = ⟨blankMark ++ bareLabel label⟩ := by
  rw [blank, bareLabel]
  by_cases labelled : Name.isBlankLabel ((Text.after? blankMark label).getD label) = true
  · simp [labelled, eq_comm]
  · simp [labelled]

theorem prefixed_eq_ok_iff {space name : Text} :
    prefixed space name = .ok term ↔
      (space = [] ∨ Name.isIdentifier space = true) ∧ Name.isLocal name = true ∧
        term = ⟨space ++ ':' :: name⟩ := by
  have spaced_iff : (space.isEmpty || Name.isIdentifier space) = true ↔
      space = [] ∨ Name.isIdentifier space = true := by simp
  rw [prefixed, ← spaced_iff]
  by_cases spaced : (space.isEmpty || Name.isIdentifier space) = true
  · by_cases named : Name.isLocal name = true
    · rw [if_pos spaced, if_pos named, Except.ok.injEq]
      constructor
      · intro same
        subst same
        exact ⟨spaced, named, rfl⟩
      · rintro ⟨_, _, rfl⟩
        rfl
    · rw [if_pos spaced, if_neg named]
      exact ⟨nofun, fun ⟨_, other, _⟩ => absurd other named⟩
  · rw [if_neg spaced]
    exact ⟨nofun, fun ⟨other, _⟩ => absurd other spaced⟩

/-- A prefixed name that is accepted is built as it was written. -/
theorem curie_eq_ok_iff {text : Text} :
    curie text = .ok term ↔
      ∃ space name, text = space ++ ':' :: name ∧ ':' ∉ space ∧
        prefixed space name = .ok term := by
  rw [curie]
  constructor
  · intro accepted
    split at accepted
    case h_1 => cases accepted
    case h_2 colon name ends =>
      have whole := Text.eq_takeWhile_append ends
      have stop : colon = ':' := by
        have first := List.head?_dropWhile_not (· != ':') text
        rw [ends] at first
        simpa using first
      rw [stop] at whole
      refine ⟨_, name, whole, ?_, accepted⟩
      intro member
      have other := Text.takeWhile_inside text ':' member
      cases other
  · rintro ⟨space, name, rfl, absent, accepted⟩
    have inside : ∀ char ∈ space, (char != ':') = true := by
      intro char member
      have apart : char ≠ ':' := by
        intro same
        subst same
        exact absent member
      exact bne_iff_ne.mpr apart
    have stop : (':' != ':') = false := by decide
    simp only [Text.takeWhile_run inside stop, Text.dropWhile_run inside stop, accepted]

/-! ## Any kind of reference -/

theorem form_of_prefixed {space name : Text} (accepted : prefixed space name = .ok term) :
    Form config term.text := by
  obtain ⟨spaced, named, rfl⟩ := prefixed_eq_ok_iff.mp accepted
  exact .prefixed spaced named

theorem form_of_iri {reference : Text} (accepted : iri config reference = .ok term) :
    Form config term.text := by
  obtain ⟨allowed, clean, rfl⟩ := iri_eq_ok_iff.mp accepted
  exact .iri allowed clean

theorem form_of_var {name : Text} (accepted : var name = .ok term) : Form config term.text := by
  obtain ⟨named, rfl⟩ := var_eq_ok_iff.mp accepted
  exact .var named

theorem form_of_blank {label : Text} (accepted : blank label = .ok term) :
    Form config term.text := by
  obtain ⟨labelled, rfl⟩ := blank_eq_ok_iff.mp accepted
  exact .blank labelled

theorem form_of_curie {text : Text} (accepted : curie text = .ok term) :
    Form config term.text := by
  obtain ⟨space, name, _, _, accepted⟩ := curie_eq_ok_iff.mp accepted
  exact form_of_prefixed accepted

theorem form_of_resolved {text : Text} (accepted : resolved config text = .ok term) :
    Form config term.text := by
  unfold resolved at accepted
  split at accepted
  · cases accepted
    exact .keyword
  split at accepted
  · exact form_of_iri accepted
  split at accepted
  · exact form_of_var accepted
  split at accepted
  · exact form_of_blank accepted
  split at accepted
  · exact form_of_curie accepted
  · cases accepted

/-- Every reference that is accepted is built in one of the forms. -/
theorem form_of_reference {text : Text} (accepted : reference config text = .ok term) :
    Form config term.text :=
  form_of_resolved accepted

/-- Every key that is accepted is built in one of the forms. A bare identifier is a name
in the default namespace. -/
theorem form_of_predicate {key : Text} (accepted : predicate config key = .ok term) :
    Form config term.text := by
  unfold predicate at accepted
  dsimp only at accepted
  split at accepted
  · exact form_of_reference accepted
  · split at accepted
    · cases accepted
    case h_2 checked =>
      cases accepted
      have named := Name.isLocal_of_isIdentifier (checkIdentifier_eq_ok_iff.mp checked)
      exact .prefixed (.inl rfl) named

end Term

end SparqlText
