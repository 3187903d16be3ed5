/-
# Rounding

Rounding to the nearest number of the format is a function of the rational number that is
rounded: it counts in the power of two that is 52 below the binary logarithm, within the
range of the format, and takes the nearest count. The computation on numerators and
denominators is this function, and so is the one on decimals, whose shortcuts for what is
far outside the range change nothing. A number of the format is what its own magnitude is
rounded to.
-/

import Mathlib.Algebra.Order.Floor.Semifield
import Mathlib.Tactic.FieldSimp
import Mathlib.Tactic.Linarith
import SparqlText.Binary64.Nearest
import SparqlText.Proofs.Binary64.Value
import SparqlText.Proofs.Decimal.Numeral

namespace SparqlText

/-! ## Rational numbers -/

/-- The natural number nearest to a rational one, a half going to the even neighbour. -/
def halfEven (value : ℚ) : ℕ :=
  if 1 / 2 < value - ⌊value⌋₊ ∨ value - ⌊value⌋₊ = 1 / 2 ∧ ⌊value⌋₊ % 2 = 1 then ⌊value⌋₊ + 1
  else ⌊value⌋₊

theorem halfEven_natCast (value : ℕ) : halfEven value = value := by
  simp [halfEven]

theorem halfEven_of_lt_half {value : ℚ} (small : value < 1 / 2) : halfEven value = 0 := by
  have floor : ⌊value⌋₊ = 0 := Nat.floor_eq_zero.mpr (by linarith)
  rw [halfEven, floor, Nat.cast_zero, sub_zero, if_neg]
  rintro (above | half)
  · exact absurd above (not_lt.mpr small.le)
  · exact absurd half.1 small.ne

theorem floor_le_halfEven (value : ℚ) : ⌊value⌋₊ ≤ halfEven value := by
  rw [halfEven]
  split <;> omega

theorem nearestNat_eq (numerator : ℕ) {denominator : ℕ} (positive : 0 < denominator) :
    nearestNat numerator denominator = halfEven (numerator / denominator) := by
  have bottom : (0 : ℚ) < denominator := Nat.cast_pos.mpr positive
  have rest : (numerator / denominator : ℚ) - (numerator / denominator : ℕ) =
      (numerator % denominator : ℕ) / denominator := by
    have whole : (denominator : ℚ) * (numerator / denominator : ℕ) +
        (numerator % denominator : ℕ) = numerator := by
      exact_mod_cast Nat.div_add_mod numerator denominator
    field_simp
    linarith
  have above : (1 / 2 : ℚ) < (numerator % denominator : ℕ) / denominator ↔
      denominator < 2 * (numerator % denominator) := by
    rw [div_lt_div_iff₀ two_pos bottom, one_mul, mul_comm]
    exact_mod_cast Iff.rfl
  have half : ((numerator % denominator : ℕ) / denominator : ℚ) = 1 / 2 ↔
      2 * (numerator % denominator) = denominator := by
    rw [div_eq_div_iff bottom.ne' two_ne_zero, one_mul, mul_comm]
    exact_mod_cast Iff.rfl
  rw [nearestNat, halfEven, Nat.floor_div_eq_div, rest]
  simp only [above, half, Bool.or_eq_true, Bool.and_eq_true, decide_eq_true_eq, beq_iff_eq]

namespace Binary64

variable {numerator denominator : Nat} {number : Binary64}

/-- The power of two that a positive number is counted in: 52 below its logarithm, but not
below the smallest one. -/
def unit (value : ℚ) : Int := max (Int.log 2 value - 52) (-1074)

/-- A nonnegative rational number rounded to the format, with a sign before it. A count that
is rounded up to 2^53 is carried into the exponent field, which is then the right one. -/
def rounded (negative : Bool) (value : ℚ) : Binary64 :=
  if value = 0 then zero negative
  else
    ofMagnitudeBits negative
      ((unit value + 1074).toNat * Nat.pow 2 52 + halfEven (value / 2 ^ unit value))

/-! ## Ratios -/

/-- Units of a ratio are counted by one division of natural numbers. -/
theorem unitsOfScale_eq (positive : 0 < denominator) (scale : Int) :
    unitsOfScale numerator denominator scale =
      halfEven ((numerator / denominator : ℚ) / 2 ^ scale) := by
  rw [unitsOfScale]
  split
  case isTrue above =>
    obtain ⟨count, rfl⟩ := Int.eq_ofNat_of_zero_le above
    have power : 0 < Nat.pow 2 count := Nat.pow_pos (by norm_num)
    rw [Int.toNat_natCast, nearestNat_eq _ (Nat.mul_pos positive power), zpow_natCast, Nat.pow_eq,
      Nat.cast_mul, Nat.cast_pow, Nat.cast_ofNat, div_div]
  case isFalse below =>
    obtain ⟨count, rfl⟩ : ∃ count : Nat, scale = -count := ⟨(-scale).toNat, by omega⟩
    rw [neg_neg, Int.toNat_natCast, nearestNat_eq _ positive, zpow_neg, zpow_natCast, Nat.pow_eq,
      Nat.cast_mul, Nat.cast_pow, Nat.cast_ofNat, div_inv_eq_mul, mul_div_right_comm]

/-- The comparison by which a guess is corrected is one with a power of two. -/
theorem lt_units_iff (numerator : Nat) (positive : 0 < denominator) (scale : Int) :
    (if 0 ≤ scale then decide (numerator < denominator * Nat.pow 2 52 * Nat.pow 2 scale.toNat)
      else decide (numerator * Nat.pow 2 (-scale).toNat < denominator * Nat.pow 2 52)) = true ↔
      (numerator : ℚ) / denominator < 2 ^ (scale + 52) := by
  have two : (2 : ℚ) ≠ 0 := by norm_num
  have own : (0 : ℚ) < denominator := Nat.cast_pos.mpr positive
  rw [zpow_add₀ two, div_lt_iff₀ own]
  split
  case isTrue above =>
    obtain ⟨count, rfl⟩ := Int.eq_ofNat_of_zero_le above
    rw [decide_eq_true_eq, Int.toNat_natCast, ← Nat.cast_lt (α := ℚ), zpow_natCast]
    simp only [Nat.pow_eq, Nat.cast_mul, Nat.cast_pow, Nat.cast_ofNat]
    rw [show (2 : ℚ) ^ (52 : ℤ) = 2 ^ 52 from zpow_natCast 2 52,
      mul_comm (2 ^ count * 2 ^ 52 : ℚ), mul_assoc, mul_comm (2 ^ 52 : ℚ)]
  case isFalse below =>
    obtain ⟨count, rfl⟩ : ∃ count : Nat, scale = -count := ⟨(-scale).toNat, by omega⟩
    have power : (0 : ℚ) < 2 ^ count := pow_pos (by norm_num) count
    rw [decide_eq_true_eq, neg_neg, Int.toNat_natCast, ← Nat.cast_lt (α := ℚ), zpow_neg,
      zpow_natCast]
    simp only [Nat.pow_eq, Nat.cast_mul, Nat.cast_pow, Nat.cast_ofNat]
    rw [show (2 : ℚ) ^ (52 : ℤ) = 2 ^ 52 from zpow_natCast 2 52, ← lt_div_iff₀ power]
    field_simp

/-- The difference of the logarithms of numerator and denominator is the logarithm of the
ratio or one more. -/
theorem log_ratio_bounds (some : 0 < numerator) (positive : 0 < denominator) :
    (Nat.log2 numerator : Int) - Nat.log2 denominator - 1 ≤
        Int.log 2 ((numerator : ℚ) / denominator) ∧
      Int.log 2 ((numerator : ℚ) / denominator) ≤
        (Nat.log2 numerator : Int) - Nat.log2 denominator := by
  have two : (2 : ℚ) ≠ 0 := by norm_num
  have base : 1 < 2 := by norm_num
  have top : (0 : ℚ) < numerator := Nat.cast_pos.mpr some
  have bottom : (0 : ℚ) < denominator := Nat.cast_pos.mpr positive
  have quotient : (0 : ℚ) < numerator / denominator := div_pos top bottom
  have topAbove : (2 : ℚ) ^ (Nat.log2 numerator) ≤ numerator := by
    exact_mod_cast Nat.log2_self_le some.ne'
  have topBelow : (numerator : ℚ) < 2 ^ (Nat.log2 numerator + 1) := by
    exact_mod_cast Nat.lt_log2_self
  have bottomAbove : (2 : ℚ) ^ (Nat.log2 denominator) ≤ denominator := by
    exact_mod_cast Nat.log2_self_le positive.ne'
  have bottomBelow : (denominator : ℚ) < 2 ^ (Nat.log2 denominator + 1) := by
    exact_mod_cast Nat.lt_log2_self
  generalize Nat.log2 numerator = first at topAbove topBelow ⊢
  generalize Nat.log2 denominator = second at bottomAbove bottomBelow ⊢
  constructor
  · apply (Int.zpow_le_iff_le_log base quotient).mp
    rw [Nat.cast_ofNat, sub_sub, zpow_sub₀ two, zpow_natCast, ← Nat.cast_succ, zpow_natCast]
    gcongr
  · have less : Int.log 2 ((numerator : ℚ) / denominator) < first + 1 - second := by
      apply (Int.lt_zpow_iff_log_lt base quotient).mp
      rw [Nat.cast_ofNat, zpow_sub₀ two, ← Nat.cast_succ, zpow_natCast, zpow_natCast]
      gcongr
    omega

/-- The guess is corrected to the power of two that the ratio is counted in. -/
theorem scaleOfRatio_eq (some : 0 < numerator) (positive : 0 < denominator) :
    scaleOfRatio numerator denominator = unit (numerator / denominator) := by
  have quotient : (0 : ℚ) < numerator / denominator :=
    div_pos (Nat.cast_pos.mpr some) (Nat.cast_pos.mpr positive)
  obtain ⟨lower, upper⟩ := log_ratio_bounds some positive
  rw [scaleOfRatio, unit]
  generalize (Nat.log2 numerator : Int) - Nat.log2 denominator = difference at lower upper ⊢
  -- The ratio is below the power of two of the guess exactly if its logarithm is the lower
  -- one of the two that are left.
  have corrected := lt_units_iff numerator positive (difference - 52)
  rw [sub_add_cancel, ← Nat.cast_ofNat (R := ℚ) (n := 2),
    Int.lt_zpow_iff_log_lt (by norm_num) quotient] at corrected
  by_cases below : Int.log 2 ((numerator : ℚ) / denominator) < difference
  · rw [if_pos (corrected.mpr below)]
    omega
  · rw [if_neg (mt corrected.mp below)]
    omega

theorem ofRatio_eq (negative : Bool) (positive : 0 < denominator) :
    ofRatio negative numerator denominator = rounded negative (numerator / denominator) := by
  have bottom : (denominator : ℚ) ≠ 0 := Nat.cast_ne_zero.mpr positive.ne'
  rw [ofRatio, rounded]
  by_cases none : numerator = 0
  · rw [if_pos none, if_pos (by rw [none, Nat.cast_zero, zero_div])]
  · have other : (numerator / denominator : ℚ) ≠ 0 :=
      div_ne_zero (Nat.cast_ne_zero.mpr none) bottom
    rw [if_neg none, if_neg other]
    dsimp only
    rw [scaleOfRatio_eq (Nat.pos_of_ne_zero none) positive, unitsOfScale_eq positive]

/-! ## Numbers of the format -/

/-- A significand counts the power of two that its number is counted in. -/
theorem unit_magnitude (nonzero : number.significand ≠ 0) :
    unit number.magnitude = number.scale := by
  have base : 1 < 2 := by norm_num
  have some : 0 < number.significand := Nat.pos_of_ne_zero nonzero
  rw [unit]
  -- Below the normal range the smallest power is counted, whatever the logarithm is.
  by_cases subnormal : number.biased.val = 0
  · have least : number.scale = -1074 := by simp [scale, subnormal]
    have small : number.significand < 2 ^ 52 := by
      rw [significand, if_pos subnormal]
      exact number.fraction.isLt
    have upper : Int.log 2 number.magnitude < _ := log_units_lt base some number.scale small
    omega
  · have normal : -1074 ≤ number.scale := by
      rw [scale]
      omega
    have large : 2 ^ 52 ≤ number.significand := by
      rw [significand, if_neg subnormal]
      exact Nat.le_add_right _ _
    have lower : _ ≤ Int.log 2 number.magnitude := le_log_units base some number.scale large
    have upper : Int.log 2 number.magnitude < _ :=
      log_units_lt base some number.scale number.significand_lt
    omega

/-- The exponent field counts the powers of two from the smallest one. A leading one in the
significand is one more in that field. -/
theorem bits_eq (number : Binary64) :
    (number.scale + 1074).toNat * Nat.pow 2 52 + number.significand =
      number.biased.val * Nat.pow 2 52 + number.fraction.val := by
  rw [scale, significand]
  split
  case isTrue subnormal => simp [subnormal]
  case isFalse normal =>
    obtain ⟨before, same⟩ := Nat.exists_eq_succ_of_ne_zero normal
    rw [same]
    have counted : ((max (before.succ) 1 : ℕ) - 1075 + 1074 : Int).toNat = before := by omega
    rw [counted, Nat.succ_mul, Nat.add_assoc]

/-- The fields of a finite number are taken out of its bits. -/
theorem ofMagnitudeBits_eq (finite : number.isFinite = true) :
    ofMagnitudeBits number.negative
      (number.biased.val * Nat.pow 2 52 + number.fraction.val) = number := by
  have below : number.biased.val < 2047 := of_decide_eq_true finite
  have field := number.fraction.isLt
  have positive : 0 < Nat.pow 2 52 := Nat.zero_lt_of_lt field
  have within : number.biased.val * Nat.pow 2 52 + number.fraction.val < 2047 * Nat.pow 2 52 :=
    calc _ < (number.biased.val + 1) * Nat.pow 2 52 := by
          rw [Nat.succ_mul]
          exact Nat.add_lt_add_left field _
      _ ≤ 2047 * Nat.pow 2 52 := Nat.mul_le_mul_right _ below
  rw [ofMagnitudeBits, if_pos within]
  obtain ⟨negative, biased, fraction⟩ := number
  congr 1
  · apply Fin.ext
    rw [Fin.val_ofNat, Nat.mul_comm, Nat.mul_add_div positive, Nat.div_eq_of_lt field,
      Nat.add_zero, Nat.mod_eq_of_lt biased.isLt]
  · apply Fin.ext
    rw [Fin.val_ofNat, Nat.mul_comm, Nat.mul_add_mod, Nat.mod_eq_of_lt field]

/-- A finite number is what its own magnitude is rounded to. -/
theorem rounded_magnitude (finite : number.isFinite = true) :
    rounded number.negative number.magnitude = number := by
  rw [rounded]
  by_cases none : number.magnitude = 0
  · rw [if_pos none, ← eq_zero (magnitude_eq_zero_iff.mp none)]
  · have power : (2 : ℚ) ^ number.scale ≠ 0 := zpow_ne_zero _ (by norm_num)
    have some : number.significand ≠ 0 := mt magnitude_eq_zero_iff.mpr none
    rw [if_neg none, unit_magnitude some, magnitude, mul_div_cancel_right₀ _ power,
      halfEven_natCast, bits_eq, ofMagnitudeBits_eq finite]

/-! ## Decimals -/

-- Powers with exponents above a few hundred are not evaluated, but their fifth roots are.

theorem two_pow_le_ten_pow : (2 : ℚ) ^ (1024 : ℤ) ≤ 10 ^ 310 :=
  calc (2 : ℚ) ^ (1024 : ℤ) = 2 ^ 1024 := zpow_natCast 2 1024
    _ ≤ 2 ^ (205 * 5) := pow_le_pow_right₀ (by norm_num) (by norm_num)
    _ = (2 ^ 205) ^ 5 := pow_mul 2 205 5
    _ ≤ (10 ^ 62) ^ 5 := pow_le_pow_left₀ (by positivity) (by norm_num) 5
    _ = 10 ^ 310 := (pow_mul 10 62 5).symm

theorem ten_pow_inv_le_two_pow : ((10 : ℚ) ^ 331)⁻¹ ≤ 2 ^ (-1075 : ℤ) := by
  have powers : (2 : ℚ) ^ 1075 ≤ 10 ^ 331 :=
    calc (2 : ℚ) ^ 1075 = (2 ^ 215) ^ 5 := pow_mul 2 215 5
      _ ≤ (10 ^ 65) ^ 5 := pow_le_pow_left₀ (by positivity) (by norm_num) 5
      _ = 10 ^ 325 := (pow_mul 10 65 5).symm
      _ ≤ 10 ^ 331 := pow_le_pow_right₀ (by norm_num) (by norm_num)
  calc ((10 : ℚ) ^ 331)⁻¹ ≤ (2 ^ 1075)⁻¹ := inv_anti₀ (by positivity) powers
    _ = 2 ^ (-1075 : ℤ) := (zpow_neg_coe_of_pos 2 (by norm_num)).symm

/-- What has more than 310 digits before the point is beyond the largest number. -/
theorem rounded_of_large (negative : Bool) {value : ℚ} (large : 10 ^ 310 ≤ value) :
    rounded negative value = infinity negative := by
  have base : 1 < 2 := by norm_num
  have two : (0 : ℚ) < 2 := by norm_num
  have beyond : (2 : ℚ) ^ (1024 : ℤ) ≤ value := two_pow_le_ten_pow.trans large
  have positive : 0 < value := lt_of_lt_of_le (zpow_pos two _) beyond
  have log : 1024 ≤ Int.log 2 value := (Int.zpow_le_iff_le_log base positive).mp beyond
  have counted : unit value = Int.log 2 value - 52 := by
    rw [unit]
    omega
  have many : 2 ^ 52 ≤ halfEven (value / 2 ^ unit value) := by
    refine le_trans (Nat.le_floor ?_) (floor_le_halfEven _)
    rw [counted, le_div_iff₀ (zpow_pos two _), Nat.cast_pow, Nat.cast_ofNat, ← zpow_natCast,
      ← zpow_add₀ two.ne', Nat.cast_ofNat, add_sub_cancel]
    exact Int.zpow_log_le_self base positive
  have field : 2046 ≤ (unit value + 1074).toNat := by omega
  rw [rounded, if_neg positive.ne', ofMagnitudeBits, if_neg]
  rw [Nat.not_lt]
  calc 2047 * Nat.pow 2 52 = 2046 * Nat.pow 2 52 + 2 ^ 52 := rfl
    _ ≤ _ := Nat.add_le_add (Nat.mul_le_mul_right _ field) many

/-- What has more than 330 zeros behind the point is nearer to zero than to any other
number. -/
theorem rounded_of_small (negative : Bool) {value : ℚ} (nonnegative : 0 ≤ value)
    (small : value < (10 ^ 331)⁻¹) : rounded negative value = zero negative := by
  rw [rounded]
  split
  · rfl
  case isFalse nonzero =>
    have positive : 0 < value := lt_of_le_of_ne nonnegative (Ne.symm nonzero)
    have below : value < 2 ^ (-1075 : ℤ) := lt_of_lt_of_le small ten_pow_inv_le_two_pow
    have log : Int.log 2 value < -1075 :=
      (Int.lt_zpow_iff_log_lt (by norm_num) positive).mp below
    have counted : unit value = -1074 := by
      rw [unit]
      omega
    have none : halfEven (value / 2 ^ (-1074 : ℤ)) = 0 := by
      apply halfEven_of_lt_half
      have two : (2 : ℚ) ≠ 0 := by norm_num
      rw [div_lt_iff₀ (zpow_pos (by norm_num) _)]
      calc value < 2 ^ (-1075 : ℤ) := below
        _ = 1 / 2 * 2 ^ (-1074 : ℤ) := by
          rw [show (-1074 : ℤ) = -1075 + 1 by norm_num, zpow_add_one₀ two]
          ring
    rw [counted, none]
    rfl

/-- Decimals are rounded, those that are settled by the position of their point too. -/
theorem ofDecimal_eq (negative : Bool) (number : Decimal) :
    ofDecimal negative number = rounded negative number.toRat := by
  rw [ofDecimal]
  split
  case isTrue none => rw [Decimal.toRat_eq_zero_iff.mpr none, rounded, if_pos rfl]
  case isFalse nonzero =>
    have base : 1 < 10 := by norm_num
    have positive : 0 < number.toRat := Decimal.toRat_pos nonzero
    obtain ⟨bottom, same⟩ := number.ratio_eq
    rw [Decimal.magnitude_eq nonzero, ofRatio_eq negative bottom, same]
    split
    case isTrue above =>
      have large : (10 : ℚ) ^ (310 : ℤ) ≤ number.toRat :=
        (Int.zpow_le_iff_le_log base positive).mpr (by omega)
      rw [rounded_of_large negative large]
    split
    case isTrue below =>
      have small : number.toRat < (10 : ℚ) ^ (-331 : ℤ) :=
        (Int.lt_zpow_iff_log_lt base positive).mpr (by omega)
      rw [rounded_of_small negative positive.le small]
    case isFalse => rfl

end Binary64

end SparqlText
