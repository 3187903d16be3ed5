/-
# Instants there and back

An instant is converted to a literal where its year has four digits, and to nothing
otherwise. What the literal is worth in a program is the same second with the
nanoseconds cut to whole milliseconds, and a leap second is still one.
-/

import SparqlText.Proofs.Results.RoundTrip
import SparqlText.Proofs.Timestamp.ReadBack

namespace SparqlText

namespace Timestamp

variable {timestamp : Timestamp}

theorem isLeap_toMillisecond (timestamp : Timestamp) :
    timestamp.toMillisecond.isLeap = timestamp.isLeap := by
  rw [Bool.eq_iff_iff, isLeap_iff, isLeap_iff, toMillisecond]
  unfold nanosPerSecond
  dsimp only
  omega

/-- An instant is written without white space. -/
theorem trim_millisecondText (writable : timestamp.isWritable = true) :
    Text.trim timestamp.millisecondText = timestamp.millisecondText := by
  have field (width value : Nat) :
      ∀ char ∈ Decimal.padded width value, Text.isBlank char = false :=
    fun char member => Text.isBlank_of_isDigit (Decimal.ofDigits_padded width value char member)
  have year : yearText timestamp.date.year = Decimal.padded 4 timestamp.date.year.toNat :=
    if_pos writable
  have hyphen : Text.isBlank '-' = false := rfl
  have letter : Text.isBlank 'T' = false := rfl
  have colon : Text.isBlank ':' = false := rfl
  have point : Text.isBlank '.' = false := rfl
  have zone : Text.isBlank 'Z' = false := rfl
  apply Text.trim_eq_self
  rw [millisecondText, wholeText, year]
  simp only [List.forall_mem_append, List.forall_mem_cons, List.not_mem_nil, false_imp_iff,
    implies_true, and_true, true_and, hyphen, letter, colon, point, zone]
  exact ⟨⟨⟨⟨⟨⟨field _ _, field _ _⟩, field _ _⟩, field _ _⟩, field _ _⟩, field _ _⟩, field _ _⟩

end Timestamp

/-- The text of an instant that can be written is that instant to the millisecond. -/
theorem Native.ofLexical?_dateTime {timestamp : Timestamp}
    (writable : timestamp.isWritable = true) :
    ofLexical? Vocabulary.xsdDateTime timestamp.millisecondText =
      some (.timestamp timestamp.toMillisecond) := by
  have known : DatatypeClass.ofDatatype Vocabulary.xsdDateTime = .temporal :=
    (DatatypeClass.ofDatatype_xsd "dateTime").trans (by decide)
  rw [ofLexical?, known]
  dsimp only
  rw [Timestamp.trim_millisecondText writable, Timestamp.read?,
    Timestamp.rfc3339?_millisecondText writable]
  rfl

namespace Value

variable {config : RenderConfig} {strict : Bool} {timestamp : Timestamp}

theorem toTerm_timestamp_of_isWritable (writable : timestamp.isWritable = true) :
    (Value.timestamp timestamp).toTerm config strict =
      .ok (Term.lexical timestamp.millisecondText Vocabulary.xsdDateTime) := by
  rw [toTerm, timestampTerm, if_pos writable]
  rfl

theorem toTerm_timestamp_of_not_isWritable (outside : ¬timestamp.isWritable = true) :
    (Value.timestamp timestamp).toTerm config strict =
      .error (.refused (.yearOutOfRange timestamp)) := by
  rw [toTerm, timestampTerm, if_neg outside]
  rfl

/-- An instant is converted exactly where the year of its date lies between 0 and 9999, the
date being the one that exists and has the instant's day. It then comes back cut to whole
milliseconds, a leap second as a leap second. -/
theorem returned_timestamp (config : RenderConfig) (strict : Bool) (timestamp : Timestamp) :
    (timestamp.date.isValid = true ∧
      timestamp.date.dayNumber = timestamp.seconds / (secondsPerDay : Int)) ∧
    ((∃ term, (Value.timestamp timestamp).toTerm config strict = .ok term) ↔
      0 ≤ timestamp.date.year ∧ timestamp.date.year ≤ 9999) ∧
    (Value.timestamp timestamp).returned config strict =
      (if 0 ≤ timestamp.date.year ∧ timestamp.date.year ≤ 9999 then
        .ok (some (.timestamp timestamp.toMillisecond))
      else .error (.refused (.yearOutOfRange timestamp))) ∧
    timestamp.toMillisecond.seconds = timestamp.seconds ∧
    timestamp.toMillisecond.nanoseconds = timestamp.nanoseconds / 1000000 * 1000000 ∧
    timestamp.toMillisecond.isLeap = timestamp.isLeap := by
  refine ⟨timestamp.isValid_date, ?_, ?_, rfl, rfl, timestamp.isLeap_toMillisecond⟩
  · rw [← Timestamp.isWritable_iff]
    by_cases writable : timestamp.isWritable = true
    · exact iff_of_true ⟨_, toTerm_timestamp_of_isWritable writable⟩ writable
    · rw [toTerm_timestamp_of_not_isWritable writable]
      exact iff_of_false nofun writable
  · simp only [← Timestamp.isWritable_iff]
    by_cases writable : timestamp.isWritable = true
    · have converted : (Value.timestamp timestamp).toTerm config strict = _ :=
        toTerm_timestamp_of_isWritable writable
      have built : timestampTerm timestamp =
          .ok (Term.lexical timestamp.millisecondText Vocabulary.xsdDateTime) :=
        if_pos writable
      rw [if_pos writable, returned_eq converted (spells_timestampTerm built),
        Native.ofLexical?_dateTime writable]
      rfl
    · rw [if_neg writable, returned, toTerm_timestamp_of_not_isWritable writable]
      rfl

end Value

end SparqlText
