/-
# Byte offsets

An offset counts bytes, and so a text cannot be cut at every one of them.
`splitAt?` cuts a text where the bytes in front of the cut are the bytes of whole
characters (`splitAt?_eq_some_iff`), and `IsBoundary` says that an offset is such a
place. A cut at any other offset is no cut at all, and not a cut nearby.
-/

import SparqlText.Proofs.Text.Runs

namespace SparqlText.Text

/-! ## Cuts -/

/-- A text cut in two at an offset. There are no two parts where the offset is inside a
character or behind the end. -/
def splitAt? (offset : Nat) : Text → Option (Text × Text)
  | [] => if offset = 0 then some ([], []) else none
  | char :: text =>
      if offset = 0 then some ([], char :: text)
      else if offset < char.utf8Size then none
      else
        (splitAt? (offset - char.utf8Size) text).map fun (front, rest) => (char :: front, rest)

/-- The part of a text in front of an offset. -/
def upTo? (offset : Nat) (text : Text) : Option Text :=
  (splitAt? offset text).map Prod.fst

/-- The part of a text from an offset on. -/
def from? (offset : Nat) (text : Text) : Option Text :=
  (splitAt? offset text).map Prod.snd

/-- An offset at which a text can be cut. -/
def IsBoundary (offset : Nat) (text : Text) : Prop :=
  ∃ front rest, text = front ++ rest ∧ size front = offset

theorem size_eq_zero_iff {text : Text} : size text = 0 ↔ text = [] := by
  cases text with
  | nil => simp
  | cons char text =>
      have positive := char.utf8Size_pos
      rw [size_cons]
      exact ⟨fun zero => by omega, nofun⟩

/-- The parts of a text are those whose sizes the offset tells. -/
theorem splitAt?_eq_some_iff {offset : Nat} {text front rest : Text} :
    splitAt? offset text = some (front, rest) ↔ text = front ++ rest ∧ size front = offset := by
  induction text generalizing offset front with
  | nil =>
      rw [splitAt?]
      split
      case isTrue zero =>
        subst zero
        rw [Option.some.injEq, Prod.mk.injEq, size_eq_zero_iff, List.nil_eq_append_iff]
        exact ⟨fun ⟨first, second⟩ => ⟨⟨first.symm, second.symm⟩, first.symm⟩,
          fun ⟨⟨first, second⟩, _⟩ => ⟨first.symm, second.symm⟩⟩
      case isFalse positive =>
        refine ⟨nofun, ?_⟩
        rintro ⟨whole, rfl⟩
        rw [List.nil_eq_append_iff] at whole
        exact absurd (size_eq_zero_iff.mpr whole.1) positive
  | cons char text ih =>
      rw [splitAt?]
      split
      case isTrue zero =>
        subst zero
        rw [Option.some.injEq, Prod.mk.injEq, size_eq_zero_iff]
        constructor
        · rintro ⟨rfl, rfl⟩
          exact ⟨rfl, rfl⟩
        · rintro ⟨whole, rfl⟩
          exact ⟨rfl, whole⟩
      case isFalse positive =>
        split
        case isTrue inside =>
          refine ⟨nofun, ?_⟩
          rintro ⟨whole, rfl⟩
          cases front with
          | nil => exact absurd rfl positive
          | cons first front =>
              rw [List.cons_append, List.cons.injEq] at whole
              obtain ⟨rfl, _⟩ := whole
              rw [size_cons] at inside
              omega
        case isFalse outside =>
          rw [Option.map_eq_some_iff]
          constructor
          · rintro ⟨⟨before, after⟩, cut, same⟩
            rw [Prod.mk.injEq] at same
            obtain ⟨rfl, rfl⟩ := same
            obtain ⟨rfl, measured⟩ := ih.mp cut
            refine ⟨rfl, ?_⟩
            rw [size_cons, measured]
            omega
          · rintro ⟨whole, rfl⟩
            cases front with
            | nil => exact absurd rfl positive
            | cons first front =>
                rw [List.cons_append, List.cons.injEq] at whole
                obtain ⟨rfl, rfl⟩ := whole
                refine ⟨(front, rest), ih.mpr ⟨rfl, ?_⟩, rfl⟩
                rw [size_cons, Nat.add_sub_cancel_left]

theorem upTo?_append (front rest : Text) : upTo? (size front) (front ++ rest) = some front := by
  rw [upTo?, splitAt?_eq_some_iff.mpr ⟨rfl, rfl⟩]
  rfl

theorem from?_append (front rest : Text) : from? (size front) (front ++ rest) = some rest := by
  rw [from?, splitAt?_eq_some_iff.mpr ⟨rfl, rfl⟩]
  rfl

/-- A text can be cut at its boundaries and nowhere else. -/
theorem isBoundary_iff_splitAt?_isSome {offset : Nat} {text : Text} :
    IsBoundary offset text ↔ (splitAt? offset text).isSome := by
  rw [Option.isSome_iff_exists, Prod.exists]
  exact exists_congr fun _ => exists_congr fun _ => splitAt?_eq_some_iff.symm

instance (offset : Nat) (text : Text) : Decidable (IsBoundary offset text) :=
  decidable_of_iff _ isBoundary_iff_splitAt?_isSome.symm

theorem isBoundary_size_append (front rest : Text) : IsBoundary (size front) (front ++ rest) :=
  ⟨front, rest, rfl, rfl⟩

theorem IsBoundary.le {offset : Nat} {text : Text} (boundary : IsBoundary offset text) :
    offset ≤ size text := by
  obtain ⟨front, rest, rfl, rfl⟩ := boundary
  rw [size_append]
  exact Nat.le_add_right _ _

theorem size_map {exchange : Char → Char}
    (same : ∀ char, (exchange char).utf8Size = char.utf8Size) (text : Text) :
    size (text.map exchange) = size text := by
  induction text with
  | nil => rfl
  | cons char text ih => rw [List.map_cons, size_cons, size_cons, same, ih]

/-- Characters can be exchanged for others of the same size without moving a
boundary. -/
theorem IsBoundary.map {offset : Nat} {text : Text} {exchange : Char → Char}
    (same : ∀ char, (exchange char).utf8Size = char.utf8Size)
    (boundary : IsBoundary offset text) : IsBoundary offset (text.map exchange) := by
  obtain ⟨front, rest, rfl, rfl⟩ := boundary
  rw [List.map_append, ← size_map same front]
  exact isBoundary_size_append _ _

example : ¬IsBoundary 2 "aé".toList := by decide

/-! ## Searching -/

/-- The offset of the first character of a text in a class. -/
def offsetOf? (p : Char → Bool) : Text → Option Nat
  | [] => none
  | char :: text => if p char then some 0 else (offsetOf? p text).map (char.utf8Size + ·)

/-- A search stops where the characters outside the class end, if they do. -/
theorem offsetOf?_not (p : Char → Bool) (text : Text) :
    offsetOf? (fun char => !p char) text =
      if text.dropWhile p = [] then none else some (size (text.takeWhile p)) := by
  induction text with
  | nil => rfl
  | cons char text ih =>
      rw [offsetOf?, List.dropWhile_cons, List.takeWhile_cons]
      cases p char with
      | false => rfl
      | true =>
          rw [if_neg (by decide), if_pos rfl, if_pos rfl, ih]
          split
          · rfl
          · rfl

theorem upTo?_takeWhile (p : Char → Bool) (text : Text) :
    upTo? (size (text.takeWhile p)) text = some (text.takeWhile p) := by
  have cut := upTo?_append (text.takeWhile p) (text.dropWhile p)
  rwa [List.takeWhile_append_dropWhile] at cut

theorem from?_takeWhile (p : Char → Bool) (text : Text) :
    from? (size (text.takeWhile p)) text = some (text.dropWhile p) := by
  have cut := from?_append (text.takeWhile p) (text.dropWhile p)
  rwa [List.takeWhile_append_dropWhile] at cut

end SparqlText.Text
