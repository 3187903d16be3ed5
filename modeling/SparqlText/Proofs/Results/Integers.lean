/-
# Integers of 64 bits

Under a datatype of whole numbers a literal is worth an integer where it spells one of 64 bits:
decimal digits behind at most one sign, with any number of zeros in front, and white space
around all of that. The bounds are not symmetric, and the first integer beyond either of them is
too much. A literal that is worth no integer stays the text that it is, to the last space.
-/

import SparqlText.Proofs.Results.RoundTrip

namespace SparqlText

/-! ## Literals of whole numbers -/

namespace Native

/-- A signed numeral with white space around it, and the integer that it denotes. -/
def SpellsInteger (lexical : Text) (whole : ℤ) : Prop :=
  ∃ front numeral behind, lexical = front ++ numeral ++ behind ∧
    (∀ char ∈ front, Text.isBlank char = true) ∧
    (∀ char ∈ behind, Text.isBlank char = true) ∧ Decimal.Signed numeral whole

/-- The white space around a numeral is what trimming takes. -/
theorem spellsInteger_iff {lexical : Text} {whole : ℤ} :
    SpellsInteger lexical whole ↔ Decimal.Signed (Text.trim lexical) whole := by
  constructor
  · rintro ⟨front, numeral, behind, rfl, before, after, signed⟩
    rwa [Text.trim_append_blank after, Text.trim_blank_append before,
      Text.trim_eq_self signed.not_isBlank]
  · intro signed
    obtain ⟨front, behind, whole, before, after⟩ := Text.exists_trim lexical
    exact ⟨front, Text.trim lexical, behind, whole, before, after, signed⟩

end Native

namespace Binding

variable {binding : Binding} {name : String}

/-- A literal with a datatype is worth what its form is, or else that form. -/
theorem toNative_of_datatype {datatype : Text} (other : binding.kind ≠ .uri)
    (typed : binding.datatype = some datatype) :
    binding.toNative =
      (Native.ofLexical? datatype binding.lexical).getD (.text binding.lexical) := by
  rw [toNative, typed]
  cases kind : binding.kind with
  | uri => exact absurd kind other
  | literal => rfl
  | typedLiteral => rfl
  | blankNode => rfl

/-- A binding that is no reference, under a datatype of whole numbers, is worth an integer of 64
bits exactly where it spells it; it is worth some integer exactly where it spells one within the
bounds; and where it is worth none it is its own text. -/
theorem toNative_integerFamily (other : binding.kind ≠ .uri)
    (known : name.toList ∈ Vocabulary.integerFamily)
    (typed : binding.datatype = some (Vocabulary.xsd name)) :
    (∀ word : Int64, binding.toNative = .integer word ↔
      Native.SpellsInteger binding.lexical word.toInt) ∧
    ((∃ word : Int64, binding.toNative = .integer word) ↔
      ∃ whole : ℤ, Native.SpellsInteger binding.lexical whole ∧
        -2 ^ 63 ≤ whole ∧ whole ≤ 2 ^ 63 - 1) ∧
    ((¬∃ word : Int64, binding.toNative = .integer word) →
      binding.toNative = .text binding.lexical) := by
  have worth := toNative_of_datatype other typed
  rw [Native.ofLexical?_integerFamily known] at worth
  have exactly (word : Int64) : binding.toNative = .integer word ↔
      Native.SpellsInteger binding.lexical word.toInt := by
    rw [worth, Native.spellsInteger_iff, ← Native.integer64?_eq_some_iff]
    cases Native.integer64? (Text.trim binding.lexical) with
    | none => exact iff_of_false nofun nofun
    | some word => simp
  refine ⟨exactly, ?_, fun none => ?_⟩
  · constructor
    · rintro ⟨word, same⟩
      exact ⟨word.toInt, (exactly word).mp same, Native.exists_toInt_eq_iff.mp ⟨word, rfl⟩⟩
    · rintro ⟨whole, spelled, within⟩
      obtain ⟨word, rfl⟩ := Native.exists_toInt_eq_iff.mpr within
      exact ⟨word, (exactly word).mpr spelled⟩
  · cases read : Native.integer64? (Text.trim binding.lexical) with
    | none =>
        rw [worth, read]
        rfl
    | some word =>
        rw [read] at worth
        exact absurd ⟨word, worth⟩ none

/-- The least integer of 64 bits with zeros in front and white space of two kinds around it, and
one more than the greatest, each under a datatype whose own bounds are narrower. -/
theorem toNative_integerFamily_limits :
    let least : Binding :=
      { kind := .typedLiteral,
        lexical := ['\u00a0'] ++ '-' :: "0009223372036854775808".toList ++ ['\u3000', '\n'],
        datatype := some (Vocabulary.xsd "unsignedByte") }
    let beyond : Binding :=
      { kind := .literal, lexical := ' ' :: '+' :: "9223372036854775808".toList,
        datatype := some (Vocabulary.xsd "unsignedByte") }
    "unsignedByte".toList ∈ Vocabulary.integerFamily ∧
    (least.kind ≠ .uri ∧ least.toNative = .integer Int64.minValue) ∧
    (beyond.kind ≠ .uri ∧ beyond.toNative = .text beyond.lexical) := by
  have known : "unsignedByte".toList ∈ Vocabulary.integerFamily := by decide
  have digits : Decimal.OfDigits "0009223372036854775808".toList := List.all_eq_true.mp rfl
  have spelled : Decimal.Signed ('-' :: "0009223372036854775808".toList) Int64.minValue.toInt :=
    .negative (by decide) digits
  refine ⟨known, ⟨by decide, ?_⟩, by decide, ?_⟩
  · exact ((toNative_integerFamily (by decide) known rfl).1 Int64.minValue).mpr
      ⟨['\u00a0'], _, ['\u3000', '\n'], rfl, List.all_eq_true.mp rfl, List.all_eq_true.mp rfl,
        spelled⟩
  · refine (toNative_integerFamily (by decide) known rfl).2.2 ?_
    rintro ⟨word, same⟩
    cases same

end Binding

end SparqlText
