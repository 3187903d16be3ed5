/-
# Names of statements

The three terms of a statement are hashed on a line each, and the first sixty-four bits of the
hash name the statement. A term that is built from checked parts is one line, so the lines are
the terms again, and different statements are hashed as different bytes: under one lead two of
them have one name only where their bytes collide in those bits. What properties a statement
carries, and which configuration it keeps, makes no difference to its name.

Nothing is said here of how hard it is to find a collision.
-/

import SparqlText.Proofs.Value.Clean
import SparqlText.Relationship

namespace SparqlText

/-! ## Bytes and digits -/

/-- Two texts with the same bytes are the same text. -/
theorem Text.utf8_injective : Function.Injective Text.utf8 := by
  intro first second same
  have bytes : first.utf8Encode = second.utf8Encode := congrArg List.toByteArray same
  rw [← String.toByteArray_ofList, ← String.toByteArray_ofList, String.toByteArray_inj] at bytes
  exact String.ofList_injective bytes

namespace Digest

theorem twoHexDigits_inj {first second : UInt8} (same : twoHexDigits first = twoHexDigits second) :
    first = second := by
  have digits : ∀ one other : Fin 16, Nat.digitChar one = Nat.digitChar other → one = other := by
    decide
  have digit {one other : Nat} (low : one < 16) (below : other < 16)
      (written : Nat.digitChar one = Nat.digitChar other) : one = other :=
    congrArg Fin.val (digits ⟨one, low⟩ ⟨other, below⟩ written)
  have small := first.toNat_lt
  have narrow := second.toNat_lt
  simp only [twoHexDigits, List.cons.injEq, and_true] at same
  have high := digit (by omega) (by omega) same.1
  have low := digit (by omega) (by omega) same.2
  apply UInt8.toNat_inj.mp
  omega

/-- The digits of bytes determine the bytes. -/
theorem flatMap_twoHexDigits_injective :
    Function.Injective fun bytes : List UInt8 => bytes.flatMap twoHexDigits := by
  intro first
  induction first with
  | nil =>
      intro second same
      cases second with
      | nil => rfl
      | cons byte rest => cases same
  | cons byte first ih =>
      intro second same
      cases second with
      | nil => cases same
      | cons other second =>
          simp only [List.flatMap_cons] at same
          obtain ⟨head, tail⟩ := List.append_inj same rfl
          rw [twoHexDigits_inj head, ih tail]

/-! ## Lines -/

/-- A line ends at the first line break. -/
theorem line_inj {line other rest rest' : Text} (one : '\n' ∉ line) (two : '\n' ∉ other)
    (same : line ++ '\n' :: rest = other ++ '\n' :: rest') : line = other ∧ rest = rest' := by
  have stop : ('\n' != '\n') = false := by decide
  have inside {line : Text} (clean : '\n' ∉ line) : ∀ char ∈ line, (char != '\n') = true := by
    intro char member
    rw [bne_iff_ne]
    rintro rfl
    exact clean member
  have line := congrArg (List.takeWhile (· != '\n')) same
  have behind := congrArg (List.dropWhile (· != '\n')) same
  rw [Text.takeWhile_run (inside one) stop, Text.takeWhile_run (inside two) stop] at line
  rw [Text.dropWhile_run (inside one) stop, Text.dropWhile_run (inside two) stop] at behind
  exact ⟨line, (List.cons.inj behind).2⟩

end Digest

/-! ## Statements -/

namespace Relationship

/-- The three terms of a statement are built from checked parts. -/
structure Produced (relationship : Relationship) : Prop where
  source : relationship.source.Produced
  predicate : relationship.predicate.Produced
  target : relationship.target.Produced

/-- The two statements have the same terms, whatever their properties and configurations. -/
def SameStatement (first second : Relationship) : Prop :=
  first.source.text = second.source.text ∧ first.predicate.text = second.predicate.text ∧
    first.target.text = second.target.text

/-- The bytes of a statement that are hashed for its name. -/
def hashed (relationship : Relationship) : List UInt8 :=
  Digest.statementBytes relationship.source.text relationship.predicate.text
    relationship.target.text

end Relationship

/-- Two different messages whose hashes agree in their first sixty-four bits. -/
def Digest.Collide (first second : List UInt8) : Prop :=
  first ≠ second ∧
    (Sha256.hash first).take keptBytes = (Sha256.hash second).take keptBytes

namespace Relationship

variable {first second : Relationship}

theorem SameStatement.hashed_eq (same : first.SameStatement second) :
    first.hashed = second.hashed := by
  rw [hashed, same.1, same.2.1, same.2.2, hashed]

/-- Statements that are built from checked parts are hashed as the same bytes only where they
are the same. -/
theorem hashed_eq_iff (one : first.Produced) (other : second.Produced) :
    first.hashed = second.hashed ↔ first.SameStatement second := by
  refine ⟨fun same => ?_, SameStatement.hashed_eq⟩
  have lines := Text.utf8_injective same
  simp only [Digest.statementText, List.append_assoc, List.cons_append] at lines
  obtain ⟨source, behind⟩ :=
    Digest.line_inj one.source.not_mem_lineBreak other.source.not_mem_lineBreak lines
  obtain ⟨predicate, target⟩ :=
    Digest.line_inj one.predicate.not_mem_lineBreak other.predicate.not_mem_lineBreak behind
  exact ⟨source, predicate, target⟩

/-- Under one lead, two names are the same where the kept bits of the hashes are. -/
theorem reificationId_eq_iff_kept {config other : RenderConfig}
    (lead : config.reificationLead = other.reificationLead) :
    first.reificationId config = second.reificationId other ↔
      (Sha256.hash first.hashed).take Digest.keptBytes =
        (Sha256.hash second.hashed).take Digest.keptBytes := by
  have digits : first.reificationId config = second.reificationId other ↔
      ((Sha256.hash first.hashed).take Digest.keptBytes).flatMap Digest.twoHexDigits =
        ((Sha256.hash second.hashed).take Digest.keptBytes).flatMap Digest.twoHexDigits := by
    rw [reificationId, reificationId, lead, Term.raw.injEq, List.append_right_inj]
    rfl
  rw [digits]
  exact Digest.flatMap_twoHexDigits_injective.eq_iff

/-- Statements that are built from checked parts are hashed as the same bytes exactly where they
are the same, and under one lead they have the same name exactly where they are the same or
their bytes collide in the first sixty-four bits of the hash. -/
theorem names_of_statements (one : first.Produced) (other : second.Produced) :
    (first.hashed = second.hashed ↔ first.SameStatement second) ∧
    ∀ config config' : RenderConfig, config.reificationLead = config'.reificationLead →
      (first.reificationId config = second.reificationId config' ↔
        first.SameStatement second ∨ Digest.Collide first.hashed second.hashed) := by
  have bytes := hashed_eq_iff one other
  refine ⟨bytes, fun config config' lead => ?_⟩
  rw [reificationId_eq_iff_kept lead, ← bytes, Digest.Collide]
  by_cases same : first.hashed = second.hashed
  · simp [same]
  · simp [same]

/-- A statement about a text that stands in a list with a variable. -/
def sample (text : Text) : Relationship where
  config := .standard
  source := ⟨['?', 'a']⟩
  predicate := ⟨[':', 'p']⟩
  target := Value.arrayTerm true [(Term.string text).text, ['?', 'b']]

theorem produced_sample (text : Text) : (sample text).Produced where
  source := .issued (.var (show Term.var ['a'] = .ok _ from rfl))
  predicate := .issued (.curie (show Term.curie [':', 'p'] = .ok _ from rfl))
  target := by
    have second : Term.var ['b'] = .ok ⟨['?', 'b']⟩ := rfl
    have list : (Value.array [.string text, .term ⟨['?', 'b']⟩]).toTerm .standard false =
        .ok (sample text).target := rfl
    refine .converted ?_ list
    intro held member
    cases List.mem_singleton.mp member
    exact .issued (.var second)

/-- A line break in a text is hashed apart from the two characters that are written for it. -/
theorem names_of_lineBreak :
    let first := sample ['\n']
    let second := sample ['\\', 'n']
    (first.Produced ∧ second.Produced) ∧ first.hashed ≠ second.hashed ∧
      (first.reificationId .standard = second.reificationId .standard ↔
        Digest.Collide first.hashed second.hashed) := by
  intro first second
  have different : ¬first.SameStatement second := by
    rintro ⟨-, -, same⟩
    revert same
    decide
  have one : first.Produced := produced_sample _
  have other : second.Produced := produced_sample _
  obtain ⟨bytes, names⟩ := names_of_statements one other
  refine ⟨⟨one, other⟩, fun same => different (bytes.mp same), ?_⟩
  rw [names .standard .standard rfl]
  exact or_iff_right different

end Relationship

end SparqlText
