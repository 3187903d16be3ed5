/-
# Numerals

A decimal number denotes a rational one. Positional notation is a whole part and perhaps
a fraction behind a point, of digits both, and what is read back from it denotes the same
rational number. The two decimal numbers need not be equal: zeros that were filled in are
read as digits, and those that a fraction would end in are not there to be read.

What is read as an integer are digits behind at most one sign, and nothing else.
-/

import Mathlib.Algebra.Order.Field.Power
import Mathlib.Algebra.Order.Field.Rat
import Mathlib.Data.Int.Log
import Mathlib.Data.Rat.Floor
import Mathlib.Data.Rat.Cast.Order
import Mathlib.Tactic.NormNum
import Mathlib.Tactic.Ring
import SparqlText.Proofs.Decimal.Digits
import SparqlText.Proofs.Text.Runs

namespace SparqlText

/-! ## Units of a power -/

/-- A number of units of a power, as a numerator and a positive denominator. -/
theorem ratio_pow_eq {base : ℕ} (some : 0 < base) (count : ℕ) (exponent : ℤ) :
    let ratio :=
      if 0 ≤ exponent then (count * Nat.pow base exponent.toNat, 1)
      else (count, Nat.pow base (-exponent).toNat)
    0 < ratio.2 ∧ (ratio.1 : ℚ) / ratio.2 = count * base ^ exponent := by
  dsimp only
  split
  case isTrue above =>
    obtain ⟨places, rfl⟩ := Int.eq_ofNat_of_zero_le above
    refine ⟨Nat.one_pos, ?_⟩
    simp
  case isFalse below =>
    obtain ⟨places, rfl⟩ : ∃ places : ℕ, exponent = -places := ⟨(-exponent).toNat, by omega⟩
    refine ⟨Nat.pow_pos some, ?_⟩
    simp [div_eq_mul_inv]

section Logarithms

variable {base count bound : ℕ} (above : 1 < base) (some : 0 < count) (exponent : ℤ)

include above some

theorem units_pos : (0 : ℚ) < count * base ^ exponent :=
  mul_pos (Nat.cast_pos.mpr some) (zpow_pos (Nat.cast_pos.mpr (Nat.zero_lt_of_lt above)) _)

/-- A count below a power moves the logarithm below the sum of the exponents. -/
theorem log_units_lt (below : count < base ^ bound) :
    Int.log base ((count : ℚ) * base ^ exponent) < bound + exponent := by
  have positive : (0 : ℚ) < base := Nat.cast_pos.mpr (Nat.zero_lt_of_lt above)
  apply (Int.lt_zpow_iff_log_lt above (units_pos above some exponent)).mp
  rw [zpow_add₀ positive.ne', zpow_natCast]
  exact mul_lt_mul_of_pos_right (by exact_mod_cast below) (zpow_pos positive _)

/-- A count that is not below a power keeps the logarithm from falling below the sum of the
exponents. -/
theorem le_log_units (least : base ^ bound ≤ count) :
    bound + exponent ≤ Int.log base ((count : ℚ) * base ^ exponent) := by
  have positive : (0 : ℚ) < base := Nat.cast_pos.mpr (Nat.zero_lt_of_lt above)
  apply (Int.zpow_le_iff_le_log above (units_pos above some exponent)).mp
  rw [zpow_add₀ positive.ne', zpow_natCast]
  exact mul_le_mul_of_nonneg_right (by exact_mod_cast least) (zpow_pos positive _).le

end Logarithms

namespace Decimal

/-- The rational number that a decimal number is. -/
def toRat (number : Decimal) : ℚ := number.coefficient * 10 ^ number.exponent

/-- Zeros may stand among the digits or in the exponent. -/
theorem toRat_shift (coefficient places : Nat) (exponent : Int) :
    toRat ⟨coefficient * 10 ^ places, exponent⟩ = toRat ⟨coefficient, exponent + places⟩ := by
  have nonzero : (10 : ℚ) ≠ 0 := by norm_num
  rw [toRat, toRat, zpow_add₀ nonzero, zpow_natCast]
  push_cast
  ring

theorem toRat_eq_zero_iff {number : Decimal} : number.toRat = 0 ↔ number.coefficient = 0 := by
  have scaled : (10 : ℚ) ^ number.exponent ≠ 0 := zpow_ne_zero _ (by norm_num)
  rw [toRat, mul_eq_zero, Nat.cast_eq_zero, or_iff_left scaled]

theorem toRat_pos {number : Decimal} (nonzero : number.coefficient ≠ 0) : 0 < number.toRat :=
  units_pos (by norm_num) (Nat.pos_of_ne_zero nonzero) number.exponent

/-- The numerator and the denominator are those of the number. -/
theorem ratio_eq (number : Decimal) :
    0 < number.ratio.2 ∧ (number.ratio.1 : ℚ) / number.ratio.2 = number.toRat :=
  ratio_pow_eq (by norm_num) number.coefficient number.exponent

/-- A number lies between the powers of ten that the number of its digits gives. -/
theorem digits_bounds {value : Nat} (nonzero : value ≠ 0) :
    10 ^ ((digits value).length - 1) ≤ value ∧ value < 10 ^ (digits value).length := by
  have length_le_iff {count : Nat} (some : 0 < count) :
      (digits value).length ≤ count ↔ value < 10 ^ count :=
    Nat.length_toDigits_le_iff (by norm_num) some
  have begun : 0 < (digits value).length := Nat.length_toDigits_pos
  refine ⟨?_, (length_le_iff begun).mp le_rfl⟩
  by_contra less
  rw [Nat.not_le] at less
  by_cases single : (digits value).length = 1
  · rw [single] at less
    exact nonzero (Nat.lt_one_iff.mp less)
  · have shorter := (length_le_iff (by omega)).mpr less
    omega

/-- The position of the point is one above the logarithm. -/
theorem magnitude_eq {number : Decimal} (nonzero : number.coefficient ≠ 0) :
    number.magnitude = Int.log 10 number.toRat + 1 := by
  have base : 1 < 10 := by norm_num
  have some : 0 < number.coefficient := Nat.pos_of_ne_zero nonzero
  have begun : 0 < (digits number.coefficient).length := Nat.length_toDigits_pos
  obtain ⟨above, below⟩ := digits_bounds nonzero
  have upper : Int.log 10 number.toRat < _ := log_units_lt base some number.exponent below
  have lower : _ ≤ Int.log 10 number.toRat := le_log_units base some number.exponent above
  rw [magnitude]
  omega

/-! ## Digits -/

/-- Every character of a text is a decimal digit. -/
def OfDigits (text : Text) : Prop := ∀ char ∈ text, char.isDigit = true

theorem ofDigits_digits (value : Nat) : OfDigits (digits value) :=
  fun _ member => isDigit_of_mem_digits member

theorem ofDigits_zeros (count : Nat) : OfDigits (List.replicate count '0') := by
  intro char member
  rw [List.eq_of_mem_replicate member]
  rfl

theorem ofDigits_append_iff {first second : Text} :
    OfDigits (first ++ second) ↔ OfDigits first ∧ OfDigits second :=
  List.forall_mem_append

theorem value_append (first second : Text) :
    value (first ++ second) = value first * 10 ^ second.length + value second := by
  rw [value, Nat.ofDigitChars_append, Nat.ofDigitChars_eq_ofDigitChars_zero, Nat.mul_comm]

theorem value_zeros (count : Nat) : value (List.replicate count '0') = 0 := by
  rw [value, Nat.ofDigitChars_replicate_zero, Nat.mul_zero]

theorem value_digits (value : Nat) : Decimal.value (digits value) = value :=
  Nat.ofDigitChars_ten_toDigits

/-- Zeros before digits change nothing. -/
theorem value_filled (count value : Nat) :
    Decimal.value (List.replicate count '0' ++ digits value) = value := by
  rw [value_append, value_zeros, Nat.zero_mul, Nat.zero_add, value_digits]

/-- The zeros that digits end in are all that is left out. -/
theorem exists_zeros (digits : Text) :
    ∃ count, withoutTrailingZeros digits ++ List.replicate count '0' = digits := by
  have zeros : ∀ char ∈ digits.reverse.takeWhile (· == '0'), char = '0' :=
    fun char member => beq_iff_eq.mp (List.mem_takeWhile_imp (p := (· == '0')) member)
  refine ⟨(digits.reverse.takeWhile (· == '0')).length, ?_⟩
  rw [withoutTrailingZeros, ← List.reverse_replicate, ← List.eq_replicate_of_mem zeros,
    ← List.reverse_append, List.takeWhile_append_dropWhile, List.reverse_reverse]

/-! ## Integers -/

/-- A text that begins with a digit has no sign. -/
theorem splitSign_of_isDigit {first : Char} (rest : Text) (digit : first.isDigit = true) :
    splitSign (first :: rest) = (false, first :: rest) := by
  unfold splitSign
  split
  case h_1 same =>
    obtain ⟨rfl, _⟩ := List.cons.inj same
    cases digit
  case h_2 same =>
    obtain ⟨rfl, _⟩ := List.cons.inj same
    cases digit
  case h_3 => rfl

/-- Digits behind at most one sign, and the integer that they denote. -/
inductive Signed : Text → ℤ → Prop
  | unsigned {digits : Text} (nonempty : digits ≠ []) (inside : OfDigits digits) :
      Signed digits (value digits)
  | positive {digits : Text} (nonempty : digits ≠ []) (inside : OfDigits digits) :
      Signed ('+' :: digits) (value digits)
  | negative {digits : Text} (nonempty : digits ≠ []) (inside : OfDigits digits) :
      Signed ('-' :: digits) (-(value digits : ℤ))

theorem natural?_eq_some_iff {text : Text} {whole : ℕ} :
    natural? text = some whole ↔ text ≠ [] ∧ OfDigits text ∧ value text = whole := by
  rw [natural?]
  split
  case isTrue digits =>
    rw [Bool.and_eq_true, Bool.not_eq_true', List.isEmpty_eq_false_iff, List.all_eq_true]
      at digits
    rw [Option.some.injEq]
    exact ⟨fun same => ⟨digits.1, digits.2, same⟩, fun parts => parts.2.2⟩
  case isFalse other =>
    rw [Bool.and_eq_true, Bool.not_eq_true', List.isEmpty_eq_false_iff, List.all_eq_true] at other
    constructor
    · intro read
      cases read
    · rintro ⟨nonempty, inside, -⟩
      exact absurd ⟨nonempty, inside⟩ other

/-- A signed numeral is read as the integer that it denotes. -/
theorem Signed.integer?_eq {text : Text} {whole : ℤ} (signed : Signed text whole) :
    integer? text = some whole := by
  cases signed with
  | unsigned nonempty inside =>
      obtain ⟨first, rest, rfl⟩ := List.exists_cons_of_ne_nil nonempty
      have digit : first.isDigit = true := inside first List.mem_cons_self
      rw [integer?, splitSign_of_isDigit rest digit]
      dsimp only
      rw [natural?_eq_some_iff.mpr ⟨nonempty, inside, rfl⟩]
      rfl
  | positive nonempty inside =>
      rw [integer?, splitSign]
      dsimp only
      rw [natural?_eq_some_iff.mpr ⟨nonempty, inside, rfl⟩]
      rfl
  | negative nonempty inside =>
      rw [integer?, splitSign]
      dsimp only
      rw [natural?_eq_some_iff.mpr ⟨nonempty, inside, rfl⟩]
      rfl

/-- Whatever is read as an integer is a signed numeral of it. -/
theorem signed_of_integer? {text : Text} {whole : ℤ} (read : integer? text = some whole) :
    Signed text whole := by
  rw [integer?] at read
  dsimp only at read
  cases digits : natural? (splitSign text).2 with
  | none =>
      rw [digits] at read
      cases read
  | some magnitude =>
      obtain ⟨nonempty, inside, rfl⟩ := natural?_eq_some_iff.mp digits
      rw [digits] at read
      obtain rfl := Option.some.inj read
      revert nonempty inside
      unfold splitSign
      split
      case h_1 => exact .negative
      case h_2 => exact .positive
      case h_3 => exact .unsigned

theorem integer?_eq_some_iff {text : Text} {whole : ℤ} :
    integer? text = some whole ↔ Signed text whole :=
  ⟨signed_of_integer?, Signed.integer?_eq⟩

/-- The decimal form of an integer is a numeral of it. -/
theorem signed_integer (whole : ℤ) : Signed (integer whole) whole := by
  cases whole with
  | ofNat whole =>
      have numeral := Signed.unsigned (digits_ne_nil whole) (ofDigits_digits whole)
      rwa [value_digits] at numeral
  | negSucc whole =>
      have numeral := Signed.negative (digits_ne_nil (whole + 1)) (ofDigits_digits (whole + 1))
      rwa [value_digits] at numeral

/-! ## Whole part and fraction -/

/-- A whole part, with a point and a fraction behind it if there is one. -/
def numeral (whole fraction : Text) : Text :=
  if fraction.isEmpty then whole else whole ++ '.' :: fraction

/-- A numeral without exponent is read as its digits over a power of ten. -/
theorem read?_numeral {whole fraction : Text} (nonempty : whole ≠ []) (left : OfDigits whole)
    (right : OfDigits fraction) :
    read? (numeral whole fraction) = some ⟨value (whole ++ fraction), -fraction.length⟩ := by
  have taken (text : Text) (inside : OfDigits text) : text.takeWhile Char.isDigit = text :=
    List.takeWhile_eq_self_iff.mpr inside
  have dropped (text : Text) (inside : OfDigits text) : text.dropWhile Char.isDigit = [] :=
    List.dropWhile_eq_nil_iff.mpr inside
  have point : Char.isDigit '.' = false := rfl
  have begun : whole.isEmpty = false := List.isEmpty_eq_false_iff.mpr nonempty
  cases fraction with
  | nil => simp [numeral, read?, exponent?, taken whole left, dropped whole left, nonempty]
  | cons first rest =>
      rw [numeral, List.isEmpty_cons, if_neg Bool.false_ne_true, read?,
        Text.takeWhile_run left point, Text.dropWhile_run left point]
      simp [taken _ right, dropped _ right, begun, exponent?]

/-- A text is positional notation of a number: a numeral whose digits, over the power of
ten that their place behind the point gives, are the number. -/
def Denotes (text : Text) (number : Decimal) : Prop :=
  ∃ whole fraction, whole ≠ [] ∧ OfDigits whole ∧ OfDigits fraction ∧
    text = numeral whole fraction ∧
    toRat ⟨value (whole ++ fraction), -fraction.length⟩ = number.toRat

/-- A whole number is its digits and zeros. -/
theorem denotes_whole (number : Decimal) {zeros : Nat} (scaled : number.exponent = zeros) :
    Denotes (digits number.coefficient ++ List.replicate zeros '0') number := by
  have all : OfDigits (digits number.coefficient ++ List.replicate zeros '0') :=
    ofDigits_append_iff.mpr ⟨ofDigits_digits _, ofDigits_zeros zeros⟩
  refine ⟨_, [], List.append_ne_nil_of_left_ne_nil (digits_ne_nil _) _, all, nofun, rfl, ?_⟩
  rw [List.append_nil, value_append, value_digits, value_zeros, Nat.add_zero,
    List.length_replicate, toRat_shift, toRat, toRat, scaled]
  simp

/-- Digits on both sides of a point may have zeros before them and none behind. -/
theorem denotes_parts (number : Decimal) {whole fraction filled : Text} {places : Nat}
    (scaled : number.exponent = -(places : Int)) (nonempty : whole ≠ [])
    (parts : whole ++ fraction = filled) (count : fraction.length = places)
    (inside : OfDigits filled) (same : value filled = number.coefficient) :
    Denotes (numeral whole (withoutTrailingZeros fraction)) number := by
  obtain ⟨zeros, stripped⟩ := exists_zeros fraction
  generalize withoutTrailingZeros fraction = kept at stripped ⊢
  subst parts stripped
  rw [← List.append_assoc, ofDigits_append_iff, ofDigits_append_iff] at inside
  rw [List.length_append, List.length_replicate] at count
  refine ⟨whole, kept, nonempty, inside.1.1, inside.1.2, rfl, ?_⟩
  have shifted : value (whole ++ kept) * 10 ^ zeros = number.coefficient := by
    rw [← same, ← List.append_assoc, value_append _ (List.replicate zeros '0'), value_zeros,
      List.length_replicate, Nat.add_zero]
  calc toRat ⟨value (whole ++ kept), -kept.length⟩
      = toRat ⟨value (whole ++ kept), number.exponent + zeros⟩ := by
        congr 2
        omega
    _ = toRat ⟨number.coefficient, number.exponent⟩ := by rw [← toRat_shift, shifted]

theorem denotes_positional (number : Decimal) : Denotes number.positional number := by
  rw [positional]
  dsimp only
  by_cases above : 0 ≤ number.exponent
  · rw [if_pos above]
    exact denotes_whole number (Int.toNat_of_nonneg above).symm
  · rw [if_neg above]
    have scaled : number.exponent = -((-number.exponent).toNat : Int) := by omega
    generalize (-number.exponent).toNat = places at scaled ⊢
    -- Zeros before the digits leave at least one of them for the whole part.
    generalize filling : List.replicate (places + 1 - (digits number.coefficient).length) '0' ++
      digits number.coefficient = filled
    have inside : OfDigits filled := by
      rw [← filling]
      exact ofDigits_append_iff.mpr ⟨ofDigits_zeros _, ofDigits_digits _⟩
    have same : value filled = number.coefficient := by rw [← filling, value_filled]
    have long : places < filled.length := by
      rw [← filling, List.length_append, List.length_replicate]
      omega
    have nonempty : filled.take (filled.length - places) ≠ [] := by
      apply List.ne_nil_of_length_pos
      rw [List.length_take]
      omega
    have count : (filled.drop (filled.length - places)).length = places := by
      rw [List.length_drop]
      omega
    exact denotes_parts number scaled nonempty (List.take_append_drop _ filled) count inside same

/-- What is read from positional notation denotes the number that was written. -/
theorem Denotes.read? {text : Text} {number : Decimal} (denotes : Denotes text number) :
    ∃ other, Decimal.read? text = some other ∧ other.toRat = number.toRat := by
  obtain ⟨whole, fraction, nonempty, left, right, rfl, same⟩ := denotes
  exact ⟨_, read?_numeral nonempty left right, same⟩

/-- Positional notation begins with a digit. -/
theorem Denotes.exists_cons {text : Text} {number : Decimal} (denotes : Denotes text number) :
    ∃ first rest, text = first :: rest ∧ first.isDigit = true := by
  obtain ⟨whole, fraction, nonempty, left, _, rfl, _⟩ := denotes
  obtain ⟨first, rest, rfl⟩ := List.exists_cons_of_ne_nil nonempty
  rw [numeral]
  split
  · exact ⟨first, rest, rfl, left first List.mem_cons_self⟩
  · exact ⟨first, rest ++ '.' :: fraction, rfl, left first List.mem_cons_self⟩

/-- Positional notation is of digits and points. -/
theorem Denotes.digit_or_point {text : Text} {number : Decimal} (denotes : Denotes text number) :
    ∀ char ∈ text, char.isDigit = true ∨ char = '.' := by
  obtain ⟨whole, fraction, _, left, right, rfl, _⟩ := denotes
  intro char member
  rw [numeral] at member
  split at member
  · exact .inl (left char member)
  · rcases List.mem_append.mp member with before | behind
    · exact .inl (left char before)
    · rcases List.mem_cons.mp behind with point | behind
      · exact .inr point
      · exact .inl (right char behind)

end Decimal

end SparqlText
