/-
# What reading a description gives

The parts of a text with the shape of a description are resolved in order, the subject
first. The text is a description when each of them resolves, and is otherwise blamed at
the first that does not; a text without the shape is blamed where the shape ends.
-/

import Mathlib.Data.List.Forall2
import SparqlText.Proofs.Description.Grammar

namespace SparqlText.Description

/-- A text that can be a subject, and what it resolves to: any reference but the keyword. -/
def IsSubject (config : RenderConfig) (text : Text) (term : Term) : Prop :=
  Term.reference config text = .ok term ∧ term ≠ Term.keyword

/-- A text that can be a type, and what it resolves to: any reference but the keyword and
blank nodes. -/
def IsType (config : RenderConfig) (text : Text) (term : Term) : Prop :=
  Term.reference config text = .ok term ∧ term ≠ Term.keyword ∧ term.isBlankNode = false

/-- The description that the parts of a text resolve to. -/
structure Resolves (config : RenderConfig) (parts : Shape) (description : Description) :
    Prop where
  subject : IsSubject config parts.subject.text description.subject
  types : List.Forall₂ (fun part term => IsType config part.text term) parts.types
    description.types

/-- The first part that does not resolve. -/
inductive Offends (config : RenderConfig) : Shape → Part → Prop
  | subject {subject : Part} {types : List Part}
      (fails : ∀ term, ¬ IsSubject config subject.text term) :
      Offends config ⟨subject, types⟩ subject
  | type {subject part : Part} {earlier later : List Part} {term : Term}
      (resolved : IsSubject config subject.text term)
      (before : ∀ other ∈ earlier, ∃ term, IsType config other.text term)
      (fails : ∀ term, ¬ IsType config part.text term) :
      Offends config ⟨subject, earlier ++ part :: later⟩ part

/-! ## Resolution -/

theorem typeTerm_eq_ok_iff (config : RenderConfig) (text : Text) (term : Term) :
    typeTerm config text = .ok term ↔ IsType config text term := by
  rw [typeTerm, IsType]
  cases read : Term.reference config text with
  | error reason => simp
  | ok found =>
      by_cases refused : (found == Term.keyword || found.isBlankNode) = true
      · simp only [refused, if_true, Except.ok.injEq, reduceCtorEq, false_iff, not_and]
        rintro rfl apart
        simpa [apart] using refused
      · simp only [refused, Bool.false_eq_true, if_false, Except.ok.injEq]
        simp only [Bool.or_eq_true, beq_iff_eq, not_or, Bool.not_eq_true] at refused
        constructor
        · rintro rfl
          exact ⟨rfl, refused⟩
        · exact And.left

theorem resolvedTypes_eq_ok_iff (config : RenderConfig) (input : Text) (parts : List Part)
    (terms : List Term) :
    resolvedTypes config input parts = .ok terms ↔
      List.Forall₂ (fun part term => IsType config part.text term) parts terms := by
  induction parts generalizing terms with
  | nil =>
      rw [resolvedTypes, List.forall₂_nil_left_iff, Except.ok.injEq, eq_comm]
  | cons part rest ih =>
      have first (term : Term) := (typeTerm_eq_ok_iff config part.text term).symm
      simp only [List.forall₂_cons_left_iff, first, ← ih]
      rw [resolvedTypes]
      cases typeTerm config part.text with
      | error reason => simp
      | ok term =>
          cases resolvedTypes config input rest with
          | error reason => simp
          | ok found => simp [eq_comm]

/-- Types that do not all resolve are blamed at the first that does not. -/
theorem resolvedTypes_error {config : RenderConfig} {input : Text} {parts : List Part}
    {reason : Error} (failed : resolvedTypes config input parts = .error reason) :
    ∃ earlier part later fault, parts = earlier ++ part :: later ∧
      (∀ other ∈ earlier, ∃ term, IsType config other.text term) ∧
      (∀ term, ¬ IsType config part.text term) ∧
      reason = .unparsed input part.offset fault := by
  induction parts with
  | nil => cases failed
  | cons part rest ih =>
      rw [resolvedTypes] at failed
      cases read : typeTerm config part.text with
      | error refusal =>
          rw [read] at failed
          cases failed
          refine ⟨[], part, rest, .refused refusal, rfl, by simp, fun term type => ?_, rfl⟩
          rw [← typeTerm_eq_ok_iff, read] at type
          cases type
      | ok term =>
          rw [read] at failed
          cases resolved : resolvedTypes config input rest with
          | error reason =>
              rw [resolved] at failed
              cases failed
              obtain ⟨earlier, next, later, fault, rfl, before, fails, blamed⟩ := ih resolved
              have first := (typeTerm_eq_ok_iff config part.text term).mp read
              exact ⟨part :: earlier, next, later, fault, rfl,
                List.forall_mem_cons.mpr ⟨⟨term, first⟩, before⟩, fails, blamed⟩
          | ok terms =>
              rw [resolved] at failed
              cases failed

/-! ## Reading -/

section

variable {config : RenderConfig} {input : Text} {parts : Shape}

theorem subject_eq_keyword_iff {text : Text} {term : Term}
    (read : Term.reference config text = .ok term) :
    term = Term.keyword ↔ ∀ found, ¬ IsSubject config text found := by
  simp [IsSubject, read]

/-- A text with the shape is read as what its parts resolve to. -/
theorem read_eq_ok_iff_of_shaped (shaped : Shaped input parts) (description : Description) :
    read config input = .ok description ↔ Resolves config parts description := by
  have whole : Resolves config parts description ↔
      IsSubject config parts.subject.text description.subject ∧
        resolvedTypes config input parts.types = .ok description.types := by
    rw [resolvedTypes_eq_ok_iff]
    exact ⟨fun resolves => ⟨resolves.subject, resolves.types⟩,
      fun resolves => ⟨resolves.1, resolves.2⟩⟩
  rw [whole, read, (shape_eq_ok_iff input parts).mpr shaped, IsSubject]
  dsimp only
  cases found : Term.reference config parts.subject.text with
  | error refusal => simp
  | ok subject =>
      by_cases keyword : subject = Term.keyword
      · simp only [keyword, if_true, Except.ok.injEq, reduceCtorEq, false_iff, not_and]
        rintro ⟨same, other⟩
        exact absurd same.symm other
      · cases resolvedTypes config input parts.types with
        | error reason => simp [keyword]
        | ok types =>
            cases description
            simp only [keyword, if_false, Except.ok.injEq, Description.mk.injEq]
            constructor
            · rintro ⟨rfl, rfl⟩
              exact ⟨⟨rfl, keyword⟩, rfl⟩
            · rintro ⟨⟨rfl, -⟩, rfl⟩
              exact ⟨rfl, rfl⟩

/-- A text with the shape is blamed, if at all, at the first part that does not resolve. -/
theorem read_error_of_shaped (shaped : Shaped input parts) {reason : Error}
    (failed : read config input = .error reason) :
    ∃ part fault, Offends config parts part ∧ reason = .unparsed input part.offset fault := by
  rw [read, (shape_eq_ok_iff input parts).mpr shaped] at failed
  dsimp only at failed
  cases found : Term.reference config parts.subject.text with
  | error refusal =>
      rw [found] at failed
      cases failed
      refine ⟨parts.subject, _, .subject fun term subject => ?_, rfl⟩
      rw [IsSubject, found] at subject
      cases subject.1
  | ok subject =>
      rw [found] at failed
      dsimp only at failed
      split at failed
      case isTrue keyword =>
        cases failed
        exact ⟨parts.subject, _, .subject ((subject_eq_keyword_iff found).mp keyword), rfl⟩
      case isFalse other =>
        cases resolved : resolvedTypes config input parts.types with
        | ok types =>
            rw [resolved] at failed
            cases failed
        | error reason =>
            rw [resolved] at failed
            cases failed
            obtain ⟨earlier, part, later, fault, whole, before, fails, blamed⟩ :=
              resolvedTypes_error resolved
            refine ⟨part, fault, ?_, blamed⟩
            cases parts with
            | mk head types =>
                cases whole
                exact .type ⟨found, other⟩ before fails

end

/-- Reading succeeds on a text with the shape of a description whose parts all resolve, and on
no other text, and gives what they resolve to. It blames a text of the right shape at its first
part that does not resolve, and any other text where its shape goes wrong. -/
theorem read_follows_grammar (config : RenderConfig) (input : Text) :
    (∀ description, read config input = .ok description ↔
      ∃ parts, Shaped input parts ∧ Resolves config parts description) ∧
    (∀ parts, Shaped input parts → (∀ description, ¬ Resolves config parts description) →
      ∃ part fault, Offends config parts part ∧
        read config input = .error (.unparsed input part.offset fault)) ∧
    ((∀ parts, ¬ Shaped input parts) →
      ∃ offset, GoesWrong input offset ∧
        read config input = .error (.unparsed input offset .notDescription)) := by
  refine ⟨fun description => ⟨fun accepted => ?_, ?_⟩, ?_, fun unshaped => ?_⟩
  · cases found : shape input with
    | error offset =>
        rw [read, found] at accepted
        cases accepted
    | ok parts =>
        have shaped := (shape_eq_ok_iff input parts).mp found
        exact ⟨parts, shaped, (read_eq_ok_iff_of_shaped shaped description).mp accepted⟩
  · rintro ⟨parts, shaped, resolves⟩
    exact (read_eq_ok_iff_of_shaped shaped description).mpr resolves
  · intro parts shaped unresolved
    cases result : read config input with
    | ok description =>
        exact absurd ((read_eq_ok_iff_of_shaped shaped description).mp result)
          (unresolved description)
    | error reason =>
        obtain ⟨part, fault, offends, rfl⟩ := read_error_of_shaped shaped result
        exact ⟨part, fault, offends, rfl⟩
  · cases found : shape input with
    | ok parts => exact absurd ((shape_eq_ok_iff input parts).mp found) (unshaped parts)
    | error offset =>
        refine ⟨offset, shape_eq_error found, ?_⟩
        rw [read, found]

/-- A comma with no type behind it is where the shape ends, behind the layout before it. -/
example : shape "?x a ?y , ".toList = .error 8 := by cbv

end SparqlText.Description
