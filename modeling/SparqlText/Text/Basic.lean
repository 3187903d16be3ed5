/-
# Text

Everything this library reads and writes is a list of characters. Readers and
writers are then recursions over one kind of data, and what a reader leaves
unread is a tail of what it was given. Offsets into a text count the bytes of
its UTF-8 form.
-/

namespace SparqlText

/-- Text as the list of its characters. -/
abbrev Text := List Char

namespace Text

/-- What follows `lead` in a text that begins with it. -/
def after? : (lead text : Text) → Option Text
  | [], text => some text
  | _ :: _, [] => none
  | first :: lead, char :: text =>
      if first = char then after? lead text else none

/-- A text begins with `lead` exactly when it is `lead` followed by the rest. -/
theorem after?_eq_some_iff (lead text rest : Text) :
    after? lead text = some rest ↔ text = lead ++ rest := by
  induction lead generalizing text with
  | nil => simp [after?]
  | cons first lead ih =>
      cases text with
      | nil => simp [after?]
      | cons char text =>
          by_cases h : first = char
          · simp [after?, h, ih]
          · simp [after?, h, eq_comm]

theorem after?_eq_none_iff (lead text : Text) : after? lead text = none ↔ ¬lead <+: text := by
  rw [Option.eq_none_iff_forall_ne_some]
  constructor
  · rintro none ⟨rest, rfl⟩
    exact none rest ((after?_eq_some_iff _ _ _).mpr rfl)
  · intro apart rest found
    rw [after?_eq_some_iff] at found
    exact apart ⟨rest, found.symm⟩

/-- The text without one trailing `last`, if it ends in that character. -/
def withoutLast? (last : Char) (text : Text) : Option Text :=
  if text.getLast? = some last then some text.dropLast else none

/-- Texts written one after the other with `separator` between neighbours. -/
def join (separator : Text) : List Text → Text
  | [] => []
  | [text] => text
  | text :: next :: rest => text ++ separator ++ join separator (next :: rest)

@[simp]
theorem join_nil (separator : Text) : join separator [] = [] := rfl

@[simp]
theorem join_singleton (separator text : Text) : join separator [text] = text := rfl

theorem join_cons_of_ne_nil (separator text : Text) {rest : List Text}
    (nonempty : rest ≠ []) :
    join separator (text :: rest) = text ++ separator ++ join separator rest := by
  cases rest with
  | nil => exact absurd rfl nonempty
  | cons next rest => rfl

/-- Each of several texts stands in what they are joined to. -/
theorem sublist_join (separator : Text) {texts : List Text} {text : Text}
    (member : text ∈ texts) : List.Sublist text (join separator texts) := by
  induction texts with
  | nil => cases member
  | cons first rest ih =>
      cases rest with
      | nil =>
          rw [List.mem_singleton.mp member]
          exact List.Sublist.refl _
      | cons next rest =>
          rw [join_cons_of_ne_nil separator first (List.cons_ne_nil next rest),
            List.append_assoc]
          rcases List.mem_cons.mp member with rfl | later
          · exact List.sublist_append_left _ _
          · exact ((ih later).trans (List.sublist_append_right _ _)).trans
              (List.sublist_append_right _ _)

/-- The bytes of a text's UTF-8 form. -/
def utf8 (text : Text) : List UInt8 :=
  text.flatMap String.utf8EncodeChar

/-- The number of bytes of a text's UTF-8 form. -/
def size : Text → Nat
  | [] => 0
  | char :: text => char.utf8Size + size text

/-- The most bytes that there can be room for in one text. -/
def capacity : Nat := Nat.pow 2 63 - 1

@[simp]
theorem size_nil : size [] = 0 := rfl

@[simp]
theorem size_cons (char : Char) (text : Text) :
    size (char :: text) = char.utf8Size + size text := rfl

theorem size_append (first second : Text) :
    size (first ++ second) = size first + size second := by
  induction first with
  | nil => simp
  | cons char first ih => simp [ih, Nat.add_assoc]

theorem size_spaces (count : Nat) : size (List.replicate count ' ') = count := by
  induction count with
  | zero => rfl
  | succ count ih =>
      rw [List.replicate_succ, size_cons, ih, Nat.add_comm]
      rfl

theorem size_le_of_sublist {part text : Text} (within : List.Sublist part text) :
    size part ≤ size text := by
  induction within with
  | slnil => exact Nat.le_refl _
  | cons char _ ih => exact Nat.le_trans ih (Nat.le_add_left _ _)
  | cons_cons char _ ih => exact Nat.add_le_add_left ih _

theorem length_utf8 (text : Text) : (utf8 text).length = size text := by
  induction text with
  | nil => rfl
  | cons char text ih =>
      have ih' : (List.flatMap String.utf8EncodeChar text).length = size text := ih
      simp [utf8, ih']

end Text

end SparqlText
