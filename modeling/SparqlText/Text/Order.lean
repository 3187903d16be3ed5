/-
# Order of texts, and mappings from texts

Texts are ordered by the code points of their characters, which is also the order
of their UTF-8 forms. A mapping keeps its entries in the order of their keys, each
key once, so two mappings with the same entries are equal.
-/

import SparqlText.Text.Basic

namespace SparqlText

namespace Text

/-- The order of texts: at the first difference the lower code point comes first,
and a text comes before its continuations. -/
def before : Text → Text → Bool
  | _, [] => false
  | [], _ :: _ => true
  | first :: text, char :: other =>
      if first = char then before text other else decide (first.toNat < char.toNat)

@[simp]
theorem before_self (text : Text) : before text text = false := by
  induction text with
  | nil => rfl
  | cons char text ih => simp [before, ih]

theorem before_trans {first second third : Text} (lower : before first second = true)
    (upper : before second third = true) : before first third = true := by
  induction first generalizing second third with
  | nil =>
      cases third with
      | nil => cases second <;> simp [before] at upper
      | cons char text => rfl
  | cons char text ih =>
      cases second with
      | nil => simp [before] at lower
      | cons other middle =>
          cases third with
          | nil => simp [before] at upper
          | cons last rest =>
              simp only [before] at lower upper ⊢
              by_cases same : char = other
              · subst same
                rw [if_pos rfl] at lower
                by_cases next : char = last
                · subst next
                  rw [if_pos rfl] at upper ⊢
                  exact ih lower upper
                · rw [if_neg next] at upper ⊢
                  exact upper
              · rw [if_neg same, decide_eq_true_eq] at lower
                by_cases next : other = last
                · subst next
                  rw [if_neg same, decide_eq_true_eq]
                  exact lower
                · rw [if_neg next, decide_eq_true_eq] at upper
                  have differ : char ≠ last := by
                    intro equal
                    subst equal
                    omega
                  rw [if_neg differ, decide_eq_true_eq]
                  omega

/-- Of two texts that differ one comes first. -/
theorem before_or_before_of_ne {first second : Text} (differ : first ≠ second) :
    before first second = true ∨ before second first = true := by
  induction first generalizing second with
  | nil =>
      cases second with
      | nil => exact absurd rfl differ
      | cons char text => exact Or.inl rfl
  | cons char text ih =>
      cases second with
      | nil => exact Or.inr rfl
      | cons other rest =>
          by_cases same : char = other
          · subst same
            have inner : text ≠ rest := fun equal => differ (by rw [equal])
            simpa [before] using ih inner
          · have codes : char.toNat ≠ other.toNat := fun equal =>
              same (Char.toNat_inj.mp equal)
            simp only [before, if_neg same, if_neg (Ne.symm same), decide_eq_true_eq]
            omega

end Text

/-! ## Sorted entries -/

/-- Give `key` a value: a value that it had is replaced, and a new key takes its
place in the order of the keys. -/
def insertSorted {Value : Type} (key : Text) (value : Value) :
    List (Text × Value) → List (Text × Value)
  | [] => [(key, value)]
  | (other, held) :: rest =>
      if key = other then (key, value) :: rest
      else if Text.before key other then (key, value) :: (other, held) :: rest
      else (other, held) :: insertSorted key value rest

/-- The entries in the order of their keys, the last of each key alone. -/
def sortedByKey {Value : Type} (entries : List (Text × Value)) :
    List (Text × Value) :=
  entries.foldl (fun sorted entry => insertSorted entry.1 entry.2 sorted) []

/-- Entries in the order of their keys, each key once. -/
def KeysInOrder {Value : Type} (entries : List (Text × Value)) : Prop :=
  entries.Pairwise fun first second => Text.before first.1 second.1 = true

theorem fst_mem_of_mem_insertSorted {Value : Type} {key : Text} {value : Value}
    {entries : List (Text × Value)} {entry : Text × Value}
    (member : entry ∈ insertSorted key value entries) :
    entry.1 = key ∨ entry ∈ entries := by
  induction entries with
  | nil =>
      simp only [insertSorted, List.mem_singleton] at member
      exact Or.inl (by rw [member])
  | cons first rest ih =>
      obtain ⟨other, held⟩ := first
      rw [insertSorted] at member
      split at member
      · rcases List.mem_cons.mp member with rfl | member
        · exact Or.inl rfl
        · exact Or.inr (List.mem_cons_of_mem _ member)
      · split at member
        · rcases List.mem_cons.mp member with rfl | member
          · exact Or.inl rfl
          · exact Or.inr member
        · rcases List.mem_cons.mp member with rfl | member
          · exact Or.inr List.mem_cons_self
          · exact (ih member).imp id (List.mem_cons_of_mem _)

/-- Insertion keeps the order of the keys. -/
theorem KeysInOrder.insertSorted {Value : Type} {entries : List (Text × Value)}
    (ordered : KeysInOrder entries) (key : Text) (value : Value) :
    KeysInOrder (insertSorted key value entries) := by
  induction entries with
  | nil => simp [SparqlText.insertSorted, KeysInOrder]
  | cons first rest ih =>
      obtain ⟨other, held⟩ := first
      obtain ⟨least, tail⟩ := List.pairwise_cons.mp ordered
      rw [SparqlText.insertSorted]
      split
      · rename_i same
        subst same
        exact List.pairwise_cons.mpr ⟨least, tail⟩
      · rename_i differ
        split
        · rename_i lower
          refine List.pairwise_cons.mpr ⟨?_, ordered⟩
          intro entry member
          rcases List.mem_cons.mp member with rfl | member
          · exact lower
          · exact Text.before_trans lower (least entry member)
        · rename_i upper
          refine List.pairwise_cons.mpr ⟨?_, ih tail⟩
          intro entry member
          rcases fst_mem_of_mem_insertSorted member with equal | member
          · rw [equal]
            exact (Text.before_or_before_of_ne differ).resolve_left upper
          · exact least entry member

theorem keysInOrder_sortedByKey {Value : Type} (entries : List (Text × Value)) :
    KeysInOrder (sortedByKey entries) := by
  have general (sorted : List (Text × Value)) (ordered : KeysInOrder sorted) :
      KeysInOrder
        (entries.foldl (fun sorted entry => insertSorted entry.1 entry.2 sorted) sorted) := by
    induction entries generalizing sorted with
    | nil => exact ordered
    | cons entry rest ih => exact ih _ (ordered.insertSorted entry.1 entry.2)
  exact general [] List.Pairwise.nil

/-- A key behind all others goes to the end. -/
theorem insertSorted_of_before {Value : Type} {key : Text} {sorted : List (Text × Value)}
    (behind : ∀ entry ∈ sorted, Text.before entry.1 key = true) (value : Value) :
    insertSorted key value sorted = sorted ++ [(key, value)] := by
  induction sorted with
  | nil => rfl
  | cons first rest ih =>
      obtain ⟨other, held⟩ := first
      obtain ⟨lower, later⟩ := List.forall_mem_cons.mp behind
      have differ : key ≠ other := by
        rintro rfl
        simp at lower
      have upper : ¬Text.before key other = true := by
        intro upper
        have looped := Text.before_trans lower upper
        simp at looped
      rw [insertSorted, if_neg differ, if_neg upper, ih later]
      rfl

/-- Entries that are in order are not changed by sorting them. -/
theorem sortedByKey_of_keysInOrder {Value : Type} {entries : List (Text × Value)}
    (ordered : KeysInOrder entries) : sortedByKey entries = entries := by
  have general (sorted rest : List (Text × Value)) (ordered : KeysInOrder (sorted ++ rest)) :
      rest.foldl (fun sorted entry => insertSorted entry.1 entry.2 sorted) sorted =
        sorted ++ rest := by
    induction rest generalizing sorted with
    | nil => exact (List.append_nil sorted).symm
    | cons entry rest ih =>
        have behind := fun other among => (List.pairwise_append.mp ordered).2.2 other among
          entry List.mem_cons_self
        have next : KeysInOrder (sorted ++ [entry] ++ rest) := by rwa [List.append_assoc]
        rw [List.foldl_cons, insertSorted_of_before behind]
        exact (ih (sorted ++ [entry]) next).trans (List.append_assoc sorted [entry] rest)
  exact general [] entries ordered

/-! ## Mappings -/

/-- A value for each of some texts. -/
structure Mapping (Value : Type) where
  entries : List (Text × Value)
  ordered : KeysInOrder entries

namespace Mapping

@[ext]
theorem ext {Value : Type} {first second : Mapping Value}
    (equal : first.entries = second.entries) : first = second := by
  cases first
  cases second
  cases equal
  rfl

instance {Value : Type} [DecidableEq Value] : DecidableEq (Mapping Value) :=
  fun first second =>
    if equal : first.entries = second.entries then isTrue (ext equal)
    else isFalse fun same => equal (by rw [same])

/-- The mapping of a list of entries, the last of each key alone. -/
def ofEntries {Value : Type} (entries : List (Text × Value)) : Mapping Value :=
  ⟨sortedByKey entries, keysInOrder_sortedByKey entries⟩

@[simp]
theorem ofEntries_entries {Value : Type} (mapping : Mapping Value) :
    ofEntries mapping.entries = mapping :=
  ext (sortedByKey_of_keysInOrder mapping.ordered)

/-- The mapping with every value changed. -/
def map {Value Other : Type} (change : Value → Other) (mapping : Mapping Value) :
    Mapping Other where
  entries := mapping.entries.map fun entry => (entry.1, change entry.2)
  ordered := by
    rw [KeysInOrder, List.pairwise_map]
    exact mapping.ordered

end Mapping

end SparqlText
