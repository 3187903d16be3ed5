/-
# Decimal digits

The digits of a natural number are read back as that number, and a digit is none of
the characters that other notation uses.
-/

import SparqlText.Decimal

namespace SparqlText.Decimal

theorem isDigit_of_mem_digits {value : Nat} {char : Char} (member : char ∈ digits value) :
    char.isDigit = true :=
  Nat.isDigit_of_mem_toDigits (by decide) (by decide) member

theorem toNat_of_isDigit {char : Char} (digit : char.isDigit = true) :
    48 ≤ char.toNat ∧ char.toNat ≤ 57 := by
  rw [Char.isDigit, Bool.and_eq_true, decide_eq_true_eq, decide_eq_true_eq] at digit
  exact digit

theorem digits_ne_nil (value : Nat) : digits value ≠ [] :=
  Nat.toDigits_ne_nil

theorem not_mem_digits {char : Char} (other : char.isDigit = false) (value : Nat) :
    char ∉ digits value := by
  intro member
  rw [isDigit_of_mem_digits member] at other
  exact Bool.noConfusion other

/-- A number is read back from its digits. -/
theorem natural?_digits (value : Nat) : natural? (digits value) = some value := by
  have all : (digits value).all Char.isDigit = true :=
    List.all_eq_true.mpr fun _ member => isDigit_of_mem_digits member
  have nonempty : (digits value).isEmpty = false :=
    List.isEmpty_eq_false_iff.mpr (digits_ne_nil value)
  rw [natural?, all, nonempty]
  exact congrArg some (Nat.ofDigitChars_ten_toDigits (n := value))

end SparqlText.Decimal
