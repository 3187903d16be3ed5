/-
# The values of doubles

A finite double is a rational number. Whether a double is an integer, and which one, is
computed from a numerator and a denominator; it is so exactly when the rational number is
that integer.
-/

import Mathlib.Algebra.Order.Field.Power
import Mathlib.Tactic.NormNum
import SparqlText.Binary64.Basic
import SparqlText.Proofs.Decimal.Numeral

namespace SparqlText.Binary64

variable {number : Binary64}

/-! ## Magnitudes -/

/-- The magnitude of a finite number. -/
def magnitude (number : Binary64) : ℚ := number.significand * 2 ^ number.scale

/-- The numerator and the denominator are those of the magnitude. -/
theorem ratio_eq (number : Binary64) :
    0 < number.ratio.2 ∧ (number.ratio.1 : ℚ) / number.ratio.2 = number.magnitude :=
  ratio_pow_eq (by norm_num) number.significand number.scale

theorem magnitude_eq_zero_iff : number.magnitude = 0 ↔ number.significand = 0 := by
  have scaled : (2 : ℚ) ^ number.scale ≠ 0 := zpow_ne_zero _ (by norm_num)
  rw [magnitude, mul_eq_zero, Nat.cast_eq_zero, or_iff_left scaled]

/-- Only zeros have no significand. -/
theorem eq_zero (empty : number.significand = 0) : number = zero number.negative := by
  obtain ⟨negative, biased, fraction⟩ := number
  rw [significand] at empty
  split at empty
  case isTrue subnormal =>
    have first : biased = 0 := Fin.ext subnormal
    have second : fraction = 0 := Fin.ext empty
    rw [first, second, zero]
  case isFalse =>
    have positive : 0 < Nat.pow 2 52 := Nat.pow_pos (by norm_num)
    omega

theorem isNaN_of_isFinite (finite : number.isFinite = true) : number.isNaN = false := by
  have below : number.biased.val < 2047 := of_decide_eq_true finite
  simp [isNaN, below.ne]

theorem significand_lt (number : Binary64) : number.significand < 2 ^ 53 := by
  have field := number.fraction.isLt
  have pow : Nat.pow 2 52 = 4503599627370496 := rfl
  rw [significand]
  split <;> omega

/-! ## Integers -/

/-- The rational number that a finite double is. Zeros of either sign are one number. -/
def toRat (number : Binary64) : ℚ :=
  if number.negative then -number.magnitude else number.magnitude

theorem magnitude_nonneg (number : Binary64) : 0 ≤ number.magnitude :=
  mul_nonneg (Nat.cast_nonneg _) (zpow_nonneg (by norm_num) _)

theorem abs_toRat (number : Binary64) : |number.toRat| = number.magnitude := by
  rw [toRat]
  split
  · rw [abs_neg, abs_of_nonneg number.magnitude_nonneg]
  · rw [abs_of_nonneg number.magnitude_nonneg]

/-- The denominator of a double that is an integer divides its numerator. -/
theorem dvd_of_toRat_eq {whole : ℤ} (same : number.toRat = whole) :
    number.ratio.2 ∣ number.ratio.1 := by
  obtain ⟨positive, quotient⟩ := number.ratio_eq
  have bottom : (number.ratio.2 : ℚ) ≠ 0 := Nat.cast_ne_zero.mpr positive.ne'
  rw [← abs_toRat, same, ← Int.cast_abs, ← Int.natCast_natAbs, Int.cast_natCast,
    div_eq_iff bottom] at quotient
  exact ⟨whole.natAbs, by rw [Nat.mul_comm]; exact_mod_cast quotient⟩

/-- The integer that is computed is the rational number that the double is. -/
theorem integer?_eq_some_iff (finite : number.isFinite = true) {whole : ℤ} :
    number.integer? = some whole ↔ number.toRat = whole := by
  obtain ⟨positive, quotient⟩ := number.ratio_eq
  rw [integer?]
  dsimp only
  -- Without a remainder the quotient is the magnitude, and the sign is put before both.
  by_cases divides : number.ratio.2 ∣ number.ratio.1
  · obtain ⟨count, same⟩ := divides
    have bottom : (number.ratio.2 : ℚ) ≠ 0 := Nat.cast_ne_zero.mpr positive.ne'
    have under : (number.ratio.2 : ℤ) ≠ 0 := Nat.cast_ne_zero.mpr positive.ne'
    have counted : number.magnitude = count := by
      rw [← quotient, same, Nat.cast_mul, mul_div_cancel_left₀ _ bottom]
    have rest : number.ratio.1 % number.ratio.2 = 0 := by rw [same, Nat.mul_mod_right]
    rw [finite, rest, same, toRat, counted, Nat.cast_mul, Int.mul_ediv_cancel_left _ under]
    simp only [beq_self_eq_true, Bool.and_self, if_true, Option.some.injEq]
    split
    · exact_mod_cast Iff.rfl
    · exact_mod_cast Iff.rfl
  · have rest : ¬number.ratio.1 % number.ratio.2 = 0 := mt Nat.dvd_of_mod_eq_zero divides
    have other : ¬number.toRat = whole := mt dvd_of_toRat_eq divides
    simp [rest, other]

/-- So is the one that is kept if it is in the range of exact integers. -/
theorem exactInteger?_eq_some_iff (finite : number.isFinite = true) {whole : ℤ} :
    number.exactInteger? = some whole ↔
      number.toRat = whole ∧ whole.natAbs ≤ 2 ^ 53 - 1 := by
  rw [exactInteger?, Option.filter_eq_some_iff, integer?_eq_some_iff finite, decide_eq_true_eq]
  rfl

/-- Zeros of either sign are the integer zero. -/
theorem exactInteger?_zero (negative : Bool) : (zero negative).exactInteger? = some 0 := by
  have empty : (zero negative).magnitude = 0 := magnitude_eq_zero_iff.mpr rfl
  apply (exactInteger?_eq_some_iff rfl).mpr
  constructor
  · rw [toRat, empty, neg_zero, ite_self, Int.cast_zero]
  · exact Nat.zero_le _

end SparqlText.Binary64
