/-
# Doubles and their text

The plain text of a finite double is read back as that double, sign of zero included. What
is chosen as the shortest decimal reads back because only such decimals are candidates and
the exact value, which is rounded to the number itself, ends the list of them. Its text is
read as a decimal of the same value, and a double depends on the value only.
-/

import SparqlText.Binary64.Plain
import SparqlText.Proofs.Binary64.Rounding

namespace SparqlText.Binary64

variable {number : Binary64}

/-! ## The shortest decimal -/

theorem toRat_exactDecimal (number : Binary64) : number.exactDecimal.toRat = number.magnitude := by
  rw [exactDecimal, magnitude]
  split
  case isTrue above =>
    obtain ⟨count, same⟩ := Int.eq_ofNat_of_zero_le above
    simp [Decimal.toRat, same]
  case isFalse below =>
    obtain ⟨count, same⟩ : ∃ count : Nat, number.scale = -count :=
      ⟨(-number.scale).toNat, by omega⟩
    have ten : (10 : ℚ) ^ count = 5 ^ count * 2 ^ count := by
      rw [← mul_pow]
      norm_num
    simp only [Decimal.toRat, same, neg_neg, Int.toNat_natCast, Nat.pow_eq, Nat.cast_mul,
      Nat.cast_pow, Nat.cast_ofNat, zpow_neg, zpow_natCast, ten]
    field_simp

theorem readsBack_exactDecimal (finite : number.isFinite = true) :
    number.readsBack number.exactDecimal = true := by
  rw [readsBack, beq_iff_eq, ofDecimal_eq, toRat_exactDecimal, rounded_magnitude finite]

/-- What is chosen on a grid reads back. -/
theorem readsBack_of_onGrid? {exponent : Int} {chosen : Decimal}
    (found : number.onGrid? exponent = some chosen) : number.readsBack chosen = true := by
  unfold onGrid? at found
  dsimp only at found
  split at found
  case h_1 lower upper =>
    cases found
    split
    · exact upper
    · exact lower
  case h_2 lower _ =>
    cases found
    exact lower
  case h_3 _ upper =>
    cases found
    exact upper
  case h_4 => cases found

theorem readsBack_shortest (finite : number.isFinite = true) :
    number.readsBack number.shortest = true := by
  rw [shortest]
  cases found : (List.range 17).findSome? fun index : Nat =>
      number.onGrid? (leadingPosition number.ratio.1 number.ratio.2 - (index + 1 : Nat)) with
  | none => exact readsBack_exactDecimal finite
  | some chosen =>
      obtain ⟨index, _, onGrid⟩ := List.exists_of_findSome?_eq_some found
      exact readsBack_of_onGrid? onGrid

theorem ofDecimal_shortest (finite : number.isFinite = true) :
    ofDecimal number.negative number.shortest = number :=
  beq_iff_eq.mp (readsBack_shortest finite)

/-! ## Plain text -/

/-- The decimal that the magnitude of a finite number is written as. -/
def shown (number : Binary64) : Decimal :=
  if number.significand = 0 then ⟨0, 0⟩ else number.shortest

theorem ofDecimal_shown (finite : number.isFinite = true) :
    ofDecimal number.negative number.shown = number := by
  rw [shown]
  split
  case isTrue empty => exact (eq_zero empty).symm
  case isFalse => exact ofDecimal_shortest finite

theorem plain_eq (finite : number.isFinite = true) :
    number.plain =
      if number.negative then '-' :: number.shown.positional else number.shown.positional := by
  have zero : (⟨0, 0⟩ : Decimal).positional = ['0'] := rfl
  rw [plain, isNaN_of_isFinite finite, finite, if_neg Bool.false_ne_true, shown,
    apply_ite Decimal.positional, zero]
  rfl

/-- No name of a number begins with a digit. -/
theorem named?_of_isDigit (negative : Bool) {first : Char} (rest : Text)
    (digit : first.isDigit = true) : named? negative ((first :: rest).map Char.toLower) = none := by
  have lower : first.toLower = first := by
    have bounds := Decimal.toNat_of_isDigit digit
    unfold Char.toLower
    split
    case isTrue upper =>
      have least : 65 ≤ first.toNat := upper.1
      omega
    case isFalse => rfl
  have apart (name : Text) (letter : name.head?.any Char.isDigit = false) :
      (first :: rest).map Char.toLower ≠ name := by
    intro same
    rw [← same, List.map_cons, lower, List.head?_cons, Option.any_some, digit] at letter
    cases letter
  rw [named?, if_neg, if_neg (apart _ rfl)]
  simp only [apart "inf".toList rfl, apart "infinity".toList rfl, decide_false, Bool.or_self,
    Bool.false_eq_true, not_false_eq_true]

/-- A decimal without sign is read and rounded, with the sign that stood before it. -/
theorem read?_of_denotes {text magnitude : Text} {negative : Bool} {decimal : Decimal}
    (denotes : Decimal.Denotes magnitude decimal)
    (signed : Decimal.splitSign text = (negative, magnitude)) :
    read? text = some (ofDecimal negative decimal) := by
  obtain ⟨first, rest, rfl, digit⟩ := denotes.exists_cons
  obtain ⟨other, taken, same⟩ := denotes.read?
  rw [read?, signed]
  dsimp only
  rw [named?_of_isDigit negative rest digit]
  dsimp only
  rw [taken, Option.map_some, ofDecimal_eq, ofDecimal_eq, same]

/-- A finite double is read back from its plain text. -/
theorem read?_plain (finite : number.isFinite = true) : read? number.plain = some number := by
  have denotes := Decimal.denotes_positional number.shown
  have back := ofDecimal_shown finite
  rw [plain_eq finite]
  split
  case isTrue negative =>
    rw [negative] at back
    rw [read?_of_denotes denotes rfl, back]
  case isFalse positive =>
    obtain ⟨first, rest, same, digit⟩ := denotes.exists_cons
    have signed : Decimal.splitSign number.shown.positional =
        (false, number.shown.positional) := by
      rw [same]
      exact Decimal.splitSign_of_isDigit rest digit
    rw [Bool.not_eq_true] at positive
    rw [positive] at back
    rw [read?_of_denotes denotes signed, back]

/-- The plain text of a finite double is of digits, points and a sign. -/
theorem digit_or_mark_of_mem_plain (finite : number.isFinite = true) :
    ∀ char ∈ number.plain, char.isDigit = true ∨ char = '.' ∨ char = '-' := by
  have inside := (Decimal.denotes_positional number.shown).digit_or_point
  intro char member
  rw [plain_eq finite] at member
  split at member
  · rcases List.mem_cons.mp member with sign | member
    · exact .inr (.inr sign)
    · exact (inside char member).imp_right .inl
  · exact (inside char member).imp_right .inl

end SparqlText.Binary64
