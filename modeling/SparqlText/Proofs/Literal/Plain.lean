/-
# Lexical forms that need no escapes

The lexical forms of numbers and instants are made of digits and a few marks. Between
double quotes they stand for themselves.
-/

import SparqlText.Binary64.Plain
import SparqlText.Proofs.Decimal.Digits
import SparqlText.Proofs.Literal.Body
import SparqlText.Timestamp.Basic

namespace SparqlText.Literal

theorem isPlain_of_isDigit {char : Char} (digit : char.isDigit = true) : IsPlain char := by
  have bounds := Decimal.toNat_of_isDigit digit
  refine ⟨by omega, ?_, ?_⟩
  · intro same
    subst same
    exact absurd bounds (by decide)
  · intro same
    subst same
    exact absurd bounds (by decide)

/-- Every character of a text is plain. -/
def Plain (text : Text) : Prop :=
  ∀ char ∈ text, IsPlain char

theorem plain_of_all {text : Text} (all : text.all (fun char => decide (IsPlain char)) = true) :
    Plain text :=
  fun char member => of_decide_eq_true (List.all_eq_true.mp all char member)

theorem plain_nil : Plain [] := nofun

theorem plain_cons_iff {char : Char} {text : Text} :
    Plain (char :: text) ↔ IsPlain char ∧ Plain text :=
  List.forall_mem_cons

theorem plain_append_iff {first second : Text} :
    Plain (first ++ second) ↔ Plain first ∧ Plain second :=
  List.forall_mem_append

theorem Plain.mono {text other : Text} (plain : Plain text) (part : other ⊆ text) : Plain other :=
  fun char member => plain char (part member)

theorem plain_zeros (count : Nat) : Plain (List.replicate count '0') := by
  intro char member
  rw [List.eq_of_mem_replicate member]
  exact isPlain_of_isDigit (by decide)

/-! ## Decimal numbers -/

theorem plain_digits (value : Nat) : Plain (Decimal.digits value) :=
  fun _ member => isPlain_of_isDigit (Decimal.isDigit_of_mem_digits member)

theorem plain_padded (width value : Nat) : Plain (Decimal.padded width value) :=
  plain_append_iff.mpr ⟨plain_zeros _, plain_digits value⟩

theorem isPlain_mark {char : Char} (mark : char ∈ ['-', '+', '.', ':', 'T', 'Z']) :
    IsPlain char := by
  simp only [List.mem_cons, List.not_mem_nil, or_false] at mark
  rcases mark with rfl | rfl | rfl | rfl | rfl | rfl <;> exact ⟨by decide, by decide, by decide⟩

theorem plain_integer (value : Int) : Plain (Decimal.integer value) := by
  cases value with
  | ofNat value => exact plain_digits value
  | negSucc value => exact plain_cons_iff.mpr ⟨isPlain_mark (by simp), plain_digits _⟩

theorem Plain.withoutTrailingZeros {digits : Text} (plain : Plain digits) :
    Plain (Decimal.withoutTrailingZeros digits) := by
  apply plain.mono
  intro char member
  have kept := (List.dropWhile_sublist (l := digits.reverse) (· == '0')).subset
    (List.mem_reverse.mp member)
  exact List.mem_reverse.mp kept

theorem plain_positional (number : Decimal) : Plain number.positional := by
  have all := plain_digits number.coefficient
  unfold Decimal.positional
  dsimp only
  split
  · exact plain_append_iff.mpr ⟨all, plain_zeros _⟩
  · have filled (count : Nat) :
        Plain (List.replicate count '0' ++ Decimal.digits number.coefficient) :=
      plain_append_iff.mpr ⟨plain_zeros count, all⟩
    have whole (text : Text) (plain : Plain text) (count : Nat) : Plain (text.take count) :=
      plain.mono (List.take_subset count text)
    have fraction (text : Text) (plain : Plain text) (count : Nat) :
        Plain (Decimal.withoutTrailingZeros (text.drop count)) :=
      (plain.mono (List.drop_subset count text)).withoutTrailingZeros
    split
    · exact whole _ (filled _) _
    · exact plain_append_iff.mpr ⟨whole _ (filled _) _,
        plain_cons_iff.mpr ⟨isPlain_mark (by simp), fraction _ (filled _) _⟩⟩

theorem plain_double (number : Binary64) : Plain number.plain := by
  unfold Binary64.plain
  split
  · exact plain_of_all rfl
  · have magnitude : Plain (if !number.isFinite then "inf".toList
        else if number.significand = 0 then ['0'] else number.shortest.positional) := by
      split
      · exact plain_of_all rfl
      split
      · exact plain_of_all rfl
      · exact plain_positional _
    dsimp only
    by_cases negative : number.negative = true
    · rw [if_pos negative]
      exact plain_cons_iff.mpr ⟨isPlain_mark (by simp), magnitude⟩
    · rw [if_neg negative]
      exact magnitude

/-! ## Instants -/

theorem plain_yearText (year : Int) : Plain (Timestamp.yearText year) := by
  unfold Timestamp.yearText
  split
  · exact plain_padded 4 _
  · split
    · exact plain_cons_iff.mpr ⟨isPlain_mark (by simp), plain_padded 4 _⟩
    · exact plain_cons_iff.mpr ⟨isPlain_mark (by simp), plain_padded 4 _⟩

theorem plain_wholeText (timestamp : Timestamp) : Plain timestamp.wholeText := by
  have field (char : Char) (mark : char ∈ ['-', '+', '.', ':', 'T', 'Z']) (value : Nat) :
      Plain (char :: Decimal.padded 2 value) :=
    plain_cons_iff.mpr ⟨isPlain_mark mark, plain_padded 2 value⟩
  have hyphen := field '-' (by simp)
  have colon := field ':' (by simp)
  simp only [Timestamp.wholeText, plain_append_iff]
  exact ⟨⟨⟨⟨⟨plain_yearText _, hyphen _⟩, hyphen _⟩, field 'T' (by simp) _⟩, colon _⟩, colon _⟩

theorem plain_millisecondText (timestamp : Timestamp) : Plain timestamp.millisecondText := by
  have zone : Plain ['Z'] := plain_cons_iff.mpr ⟨isPlain_mark (by simp), plain_nil⟩
  have milliseconds (value : Nat) : Plain ('.' :: Decimal.padded 3 value) :=
    plain_cons_iff.mpr ⟨isPlain_mark (by simp), plain_padded 3 value⟩
  exact plain_append_iff.mpr
    ⟨plain_append_iff.mpr ⟨plain_wholeText timestamp, milliseconds _⟩, zone⟩

end SparqlText.Literal
