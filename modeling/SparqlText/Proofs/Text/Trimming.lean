/-
# Trimmed texts

Trimming leaves a text alone when there is no white space at either end of it. What it leaves
is such a text, so trimming twice is trimming once. What it takes is white space in front and
behind, and white space that is put there does not count.
-/

import Mathlib.Data.List.DropRight
import SparqlText.Text.Blank

namespace SparqlText.Text

theorem trimStart_trim (text : Text) : trimStart (trim text) = trim text := by
  rw [trimStart, List.dropWhile_eq_self_iff]
  intro some
  have lead : trim text <+: trimStart text := List.rdropWhile_prefix isBlank _
  rw [lead.getElem some]
  exact List.dropWhile_get_zero_not isBlank text (Nat.lt_of_lt_of_le some lead.length_le)

@[simp]
theorem trim_trim (text : Text) : trim (trim text) = trim text := by
  rw [trim, trimStart_trim]
  exact List.rdropWhile_idempotent isBlank (trimStart text)

/-- A text between two characters that are not white space is not changed by trimming. -/
theorem trim_between {first last : Char} (opened : isBlank first = false)
    (closed : isBlank last = false) (inner : Text) :
    trim (first :: inner ++ [last]) = first :: inner ++ [last] := by
  have lead : trimStart (first :: inner ++ [last]) = first :: inner ++ [last] :=
    List.dropWhile_cons_of_neg (Bool.not_eq_true _ ▸ opened)
  rw [trim, lead]
  exact List.rdropWhile_concat_neg isBlank _ last (Bool.not_eq_true _ ▸ closed)

/-- A text without white space is not changed by trimming. -/
theorem trim_eq_self {text : Text} (none : ∀ char ∈ text, isBlank char = false) :
    trim text = text := by
  have lead : trimStart text = text :=
    List.dropWhile_eq_self_iff.mpr fun some => by simp [none _ (List.getElem_mem some)]
  rw [trim, lead]
  exact List.rdropWhile_eq_self_iff.mpr fun some => by simp [none _ (List.getLast_mem some)]

/-! ## What is taken -/

/-- A text is what trimming leaves of it with white space in front and behind. -/
theorem exists_trim (text : Text) :
    ∃ front behind, text = front ++ trim text ++ behind ∧
      (∀ char ∈ front, isBlank char = true) ∧ ∀ char ∈ behind, isBlank char = true := by
  have start : text.takeWhile isBlank ++ trimStart text = text :=
    List.takeWhile_append_dropWhile
  have tail : trim text ++ (trimStart text).rtakeWhile isBlank = trimStart text :=
    List.rdropWhile_append_rtakeWhile
  refine ⟨text.takeWhile isBlank, (trimStart text).rtakeWhile isBlank, ?_,
    fun _ member => List.mem_takeWhile_imp member, fun _ member => List.mem_rtakeWhile_imp member⟩
  rw [List.append_assoc, tail, start]

/-- White space in front of a text does not count. -/
theorem trim_blank_append {front : Text} (blank : ∀ char ∈ front, isBlank char = true)
    (text : Text) : trim (front ++ text) = trim text := by
  rw [trim, trimStart, List.dropWhile_append_of_pos blank]
  rfl

/-- White space behind a text does not count. -/
theorem trim_append_blank {behind : Text} (blank : ∀ char ∈ behind, isBlank char = true)
    (text : Text) : trim (text ++ behind) = trim text := by
  have ended (kept : Text) : trimEnd (kept ++ behind) = trimEnd kept := by
    have reversed : ∀ char ∈ behind.reverse, isBlank char = true :=
      fun char member => blank char (List.mem_reverse.mp member)
    rw [trimEnd, List.reverse_append, List.dropWhile_append_of_pos reversed]
    rfl
  rw [trim, trim, trimStart, trimStart, List.dropWhile_append]
  split
  case isTrue empty =>
    rw [List.isEmpty_iff.mp empty, List.dropWhile_eq_nil_iff.mpr blank]
  case isFalse => exact ended _

end SparqlText.Text
