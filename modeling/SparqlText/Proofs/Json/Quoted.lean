/-
# Written strings

A written string is read back as the text that it was written from, whatever follows its closing
quote. No character is written as one half of a surrogate pair, so the elements that are read
are the characters of the text.
-/

import SparqlText.Json.Quoted

namespace SparqlText.Json

/-- The digits that control codes are written with are read as their values. -/
theorem hexValue?_lowerHexDigit {digit : Nat} (small : digit < 16) :
    hexValue? (lowerHexDigit digit) = some digit := by
  have all : ∀ digit : Fin 16, hexValue? (lowerHexDigit digit) = some digit.val := by decide
  exact all ⟨digit, small⟩

/-- A code below the surrogates is a character of its own. -/
theorem ofCode_toNat {char : Char} (low : char.toNat < 0xd800) :
    Unit16.ofCode char.toNat = .scalar char := by
  have whole : ¬(isHighHalf char.toNat || isLowHalf char.toNat) = true := by
    simp only [isHighHalf, isLowHalf, Bool.or_eq_true, Bool.and_eq_true, decide_eq_true_eq]
    omega
  rw [Unit16.ofCode, if_neg whole, Char.ofNat_toNat]

/-- A written character is read as itself. -/
theorem readBody?_writtenChar (char : Char) (rest : Text) :
    readBody? (writtenChar char ++ rest) =
      (readBody? rest).map fun (units, after) => (.scalar char :: units, after) := by
  unfold writtenChar
  split
  case isTrue marked =>
    rw [Bool.or_eq_true, decide_eq_true_eq, decide_eq_true_eq] at marked
    rcases marked with rfl | rfl
    · rfl
    · rfl
  split
  case isTrue same => subst same; rfl
  split
  case isTrue same => subst same; rfl
  split
  case isTrue same => subst same; rfl
  split
  case isTrue same => subst same; rfl
  split
  case isTrue same => subst same; rfl
  split
  case isTrue control =>
    have digits : fourHexValue? '0' '0' (lowerHexDigit (char.toNat / 16))
        (lowerHexDigit (char.toNat % 16)) = some char.toNat := by
      have zero : hexValue? '0' = some 0 := rfl
      rw [fourHexValue?, zero, hexValue?_lowerHexDigit (by omega),
        hexValue?_lowerHexDigit (by omega)]
      simp
      omega
    simp only [List.cons_append, List.nil_append]
    rw [readBody?, digits]
    dsimp only
    rw [ofCode_toNat (by omega)]
  case isFalse unmarked _ _ _ _ _ printable =>
    rw [Bool.or_eq_true, decide_eq_true_eq, decide_eq_true_eq, not_or] at unmarked
    simp [readBody?, unmarked, printable]

/-- A written body is read up to its closing quote, whatever follows it. -/
theorem readBody?_flatMap_writtenChar (text rest : Text) :
    readBody? (text.flatMap writtenChar ++ '\x22' :: rest) =
      some (text.map Unit16.scalar, rest) := by
  induction text with
  | nil => rfl
  | cons char text ih =>
      rw [List.flatMap_cons, List.append_assoc, readBody?_writtenChar, ih]
      rfl

/-- Characters alone denote the text of them. -/
theorem textOfUnits?_scalars (text : Text) :
    textOfUnits? (text.map Unit16.scalar) = some text := by
  induction text with
  | nil => rfl
  | cons char text ih =>
      rw [List.map_cons, textOfUnits?, ih]
      rfl

end SparqlText.Json
