/-
# Why a value is not converted

A value is made of places: itself, and the values and keys that it holds at any depth. They
have an order, the one in which a document would write them, with the key of an entry before
its value. `Defect` says of a place alone why no term stands for it, without regard to what
stands around it or inside it.

A value is converted exactly where none of its places has a defect, and otherwise the error is
that of the first place that has one. Conversion looks at the places in their order and at no
place twice, so every step of it is `Decided` by the places that it has looked at.
-/

import SparqlText.Proofs.Timestamp.ReadBack
import SparqlText.Proofs.Value.Nulls

namespace SparqlText.Value

/-! ## Places -/

/-- A place in a value: a value, or the key of an entry. -/
inductive Place
  | value (value : Value)
  | key (key : Key)

mutual

/-- The places of a value in the order in which they are written. -/
def places : Value → List Place
  | .array items => .value (.array items) :: itemPlaces items
  | .record entries => .value (.record entries) :: entryPlaces entries
  | value => [.value value]

/-- The places of an array's items. -/
def itemPlaces : List Value → List Place
  | [] => []
  | item :: rest => places item ++ itemPlaces rest

/-- The places of a record's entries, each key before its value. -/
def entryPlaces : List (Key × Value) → List Place
  | [] => []
  | (key, value) :: rest => (.key key :: places value) ++ entryPlaces rest

end

theorem itemPlaces_eq_flatMap (items : List Value) : itemPlaces items = items.flatMap places := by
  induction items with
  | nil => rfl
  | cons item rest ih => rw [itemPlaces, ih, List.flatMap_cons]

/-- The places of an entry. -/
def keyedPlaces (entry : Key × Value) : List Place := .key entry.1 :: places entry.2

theorem entryPlaces_eq_flatMap (entries : List (Key × Value)) :
    entryPlaces entries = entries.flatMap keyedPlaces := by
  induction entries with
  | nil => rfl
  | cons entry rest ih => rw [entryPlaces, ih, List.flatMap_cons, keyedPlaces]

/-! ## Defects -/

/-- A place that no term stands for, and the error that says so. -/
inductive Defect (config : RenderConfig) (strict : Bool) : Place → Error → Prop
  | null (refused : strict = true) : Defect config strict (.value .null) .nullValue
  | emptyArray : Defect config strict (.value (.array [])) (.emptyCollection .array)
  | emptyRecord : Defect config strict (.value (.record [])) (.emptyCollection .record)
  | number {number : Binary64} (notFinite : number.isFinite = false) :
      Defect config strict (.value (.number number)) (.refused (.decimalNotFinite number))
  | timestamp {timestamp : Timestamp}
      (outside : ¬(0 ≤ timestamp.date.year ∧ timestamp.date.year ≤ 9999)) :
      Defect config strict (.value (.timestamp timestamp)) (.refused (.yearOutOfRange timestamp))
  | key {text : Text} {reason : Refusal} (rejected : Term.predicate config text = .error reason) :
      Defect config strict (.key (.name text)) (.refused reason)

/-- A place without a defect. -/
def Sound (config : RenderConfig) (strict : Bool) (place : Place) : Prop :=
  ∀ reason, ¬Defect config strict place reason

/-- The defect of the first place that has one. -/
inductive FirstDefect (config : RenderConfig) (strict : Bool) : List Place → Error → Prop
  | here {place : Place} {rest : List Place} {reason : Error}
      (defect : Defect config strict place reason) :
      FirstDefect config strict (place :: rest) reason
  | later {place : Place} {rest : List Place} {reason : Error} (sound : Sound config strict place)
      (first : FirstDefect config strict rest reason) :
      FirstDefect config strict (place :: rest) reason

variable {config : RenderConfig} {strict : Bool}

/-- A place has one defect at most. -/
theorem Defect.unique {place : Place} {first second : Error}
    (one : Defect config strict place first) (other : Defect config strict place second) :
    first = second := by
  cases one with
  | key rejected =>
      cases other with
      | key again =>
          rw [rejected] at again
          cases again
          rfl
  | _ => cases other; rfl

theorem FirstDefect.unique {places : List Place} {first second : Error}
    (one : FirstDefect config strict places first)
    (other : FirstDefect config strict places second) : first = second := by
  induction one with
  | here defect =>
      cases other with
      | here again => exact defect.unique again
      | later sound => exact absurd defect (sound _)
  | later sound _ ih =>
      cases other with
      | here again => exact absurd again (sound _)
      | later _ again => exact ih again

theorem FirstDefect.exists_defect {places : List Place} {reason : Error}
    (first : FirstDefect config strict places reason) :
    ∃ place ∈ places, Defect config strict place reason := by
  induction first with
  | here defect => exact ⟨_, List.mem_cons_self, defect⟩
  | later _ _ ih =>
      obtain ⟨place, member, defect⟩ := ih
      exact ⟨place, List.mem_cons_of_mem _ member, defect⟩

theorem FirstDefect.append {before : List Place} {reason : Error}
    (first : FirstDefect config strict before reason) (after : List Place) :
    FirstDefect config strict (before ++ after) reason := by
  induction first with
  | here defect => exact .here defect
  | later sound _ ih => exact .later sound ih

theorem FirstDefect.behind {before after : List Place} {reason : Error}
    (sound : ∀ place ∈ before, Sound config strict place)
    (first : FirstDefect config strict after reason) :
    FirstDefect config strict (before ++ after) reason := by
  induction before with
  | nil => exact first
  | cons place before ih =>
      obtain ⟨head, others⟩ := List.forall_mem_cons.mp sound
      exact .later head (ih others)

/-! ## Results that places decide -/

/-- A result that is had where all of the places are sound, and is the first defect otherwise. -/
inductive Decided (config : RenderConfig) (strict : Bool) {Result : Type} (places : List Place) :
    Except Error Result → Prop
  | converted {result : Result} (sound : ∀ place ∈ places, Sound config strict place) :
      Decided config strict places (.ok result)
  | failed {reason : Error} (first : FirstDefect config strict places reason) :
      Decided config strict places (.error reason)

section

variable {First Second Result : Type} {place : Place} {places before after : List Place}

theorem Decided.cons (sound : Sound config strict place) {result : Except Error Result}
    (decided : Decided config strict places result) :
    Decided config strict (place :: places) result := by
  cases decided with
  | converted others => exact .converted (List.forall_mem_cons.mpr ⟨sound, others⟩)
  | failed first => exact .failed (.later sound first)

theorem Decided.map {result : Except Error First} (finish : First → Result)
    (decided : Decided config strict places result) :
    Decided config strict places (result.map finish) := by
  cases decided with
  | converted sound => exact .converted sound
  | failed first => exact .failed first

/-- A step and a further step that is taken only where the first does not fail are decided by
the places of the first and then those of the second. -/
theorem Decided.bind {first : Except Error First} {second : Except Error Second}
    (finish : First → Second → Result) (one : Decided config strict before first)
    (other : Decided config strict after second) :
    Decided config strict (before ++ after)
      (first.bind fun value => second.map (finish value)) := by
  cases one with
  | failed defect => exact .failed (defect.append after)
  | converted sound =>
      cases other with
      | converted others => exact .converted (List.forall_mem_append.mpr ⟨sound, others⟩)
      | failed defect => exact .failed (.behind sound defect)

theorem cons_eq_bind_of_inOrder {Item : Type} {convert : Item → Except Error First}
    {put : Item → First → Result → Result} {all : List Item → Except Error Result}
    (ordered : InOrder convert put all) (item : Item) (rest : List Item) :
    all (item :: rest) = (convert item).bind fun part => (all rest).map (put item part) := by
  rw [ordered]
  cases convert item with
  | error reason => rfl
  | ok part => cases all rest <;> rfl

/-- A conversion in order is decided by the places of its items, one item after the other. -/
theorem decided_of_inOrder {Item : Type} {convert : Item → Except Error First}
    {put : Item → First → Result → Result} {all : List Item → Except Error Result}
    (ordered : InOrder convert put all) {whole : Result} (empty : all [] = .ok whole)
    {placesOf : Item → List Place} {items : List Item}
    (each : ∀ item ∈ items, Decided config strict (placesOf item) (convert item)) :
    Decided config strict (items.flatMap placesOf) (all items) := by
  induction items with
  | nil =>
      rw [empty]
      exact .converted nofun
  | cons item rest ih =>
      obtain ⟨head, others⟩ := List.forall_mem_cons.mp each
      rw [cons_eq_bind_of_inOrder ordered]
      exact head.bind (put item) (ih others)

end

/-! ## One place -/

theorem decided_number (double : Binary64) :
    Decided config strict [.value (.number double)] (orRefused (numberTerm double)) := by
  cases finite : double.isFinite with
  | false =>
      have refused : numberTerm double = .error (.decimalNotFinite double) := by
        rw [numberTerm, finite]
        rfl
      rw [refused]
      exact .failed (.here (.number finite))
  | true =>
      have sound : Sound config strict (.value (.number double)) := by
        intro reason defect
        cases defect with
        | number notFinite =>
            rw [finite] at notFinite
            cases notFinite
      rw [numberTerm, finite]
      cases double.exactInteger? <;> exact .converted (List.forall_mem_singleton.mpr sound)

theorem decided_timestamp (instant : Timestamp) :
    Decided config strict [.value (.timestamp instant)] (orRefused (timestampTerm instant)) := by
  rw [timestampTerm]
  by_cases writable : instant.isWritable = true
  · have sound : Sound config strict (.value (.timestamp instant)) := by
      intro reason defect
      cases defect with
      | timestamp outside => exact outside (Timestamp.isWritable_iff.mp writable)
    rw [if_pos writable]
    exact .converted (List.forall_mem_singleton.mpr sound)
  · rw [if_neg writable]
    exact .failed (.here (.timestamp fun inside => writable (Timestamp.isWritable_iff.mpr inside)))

theorem decided_key (key : Key) :
    Decided config strict [.key key] (orRefused (keyTerm config key)) := by
  cases key with
  | name text =>
      rw [keyTerm]
      cases resolved : Term.predicate config text with
      | error reason => exact .failed (.here (.key resolved))
      | ok predicate =>
          have sound : Sound config strict (.key (.name text)) := by
            intro reason defect
            cases defect with
            | key rejected =>
                rw [resolved] at rejected
                cases rejected
          exact .converted (List.forall_mem_singleton.mpr sound)
  | term held => exact .converted (List.forall_mem_singleton.mpr nofun)

theorem decided_entry {entry : Key × Value}
    (value : Decided config strict (places entry.2) (entry.2.toTerm config strict)) :
    Decided config strict (keyedPlaces entry) (entryText config strict entry) := by
  have written : entryText config strict entry =
      (orRefused (keyTerm config entry.1)).bind fun predicate =>
        (entry.2.toTerm config strict).map fun object =>
          predicate.text ++ ' ' :: object.text := by
    rw [entryText]
    cases orRefused (keyTerm config entry.1) with
    | error reason => rfl
    | ok predicate => cases entry.2.toTerm config strict <;> rfl
  rw [written]
  exact (decided_key entry.1).bind _ value

/-- The places of an array's items decide about the array, if it has any. -/
theorem decided_array {items : List Value} (some : items ≠ [])
    (each : ∀ item ∈ items, Decided config strict item.places (item.toTerm config strict)) :
    Decided config strict (places (.array items)) (toTerm config strict (.array items)) := by
  have written : toTerm config strict (.array items) =
      (itemTexts config strict items).map (arrayTerm (items.all isScalar)) := by
    rw [toTerm_array some]
    cases itemTexts config strict items <;> rfl
  have sound : Sound config strict (.value (.array items)) := by
    intro reason defect
    cases defect
    exact some rfl
  have inside := decided_of_inOrder (inOrder_itemTexts config strict) rfl each
  rw [written, places, itemPlaces_eq_flatMap]
  exact (inside.map _).cons sound

/-- The places of a record's entries decide about the record, if it has any. -/
theorem decided_record {entries : List (Key × Value)} (some : entries ≠ [])
    (each : ∀ entry ∈ entries,
      Decided config strict (keyedPlaces entry) (entryText config strict entry)) :
    Decided config strict (places (.record entries)) (toTerm config strict (.record entries)) := by
  have written : toTerm config strict (.record entries) =
      (entryTexts config strict entries).map recordTerm := by
    rw [toTerm_record some]
    cases entryTexts config strict entries <;> rfl
  have sound : Sound config strict (.value (.record entries)) := by
    intro reason defect
    cases defect
    exact some rfl
  have inside := decided_of_inOrder (inOrder_entryTexts config strict) rfl each
  rw [written, places, entryPlaces_eq_flatMap]
  exact (inside.map _).cons sound

/-! ## All places -/

mutual

/-- A conversion is decided by the places of the value in their order. -/
theorem decided_toTerm : ∀ value : Value,
    Decided config strict value.places (value.toTerm config strict)
  | .null => by
      cases strict with
      | true => exact .failed (.here (.null rfl))
      | false => exact .converted (List.forall_mem_singleton.mpr nofun)
  | .string _ => .converted (List.forall_mem_singleton.mpr nofun)
  | .integer _ => .converted (List.forall_mem_singleton.mpr nofun)
  | .boolean _ => .converted (List.forall_mem_singleton.mpr nofun)
  | .term _ => .converted (List.forall_mem_singleton.mpr nofun)
  | .number double => decided_number double
  | .timestamp instant => decided_timestamp instant
  | .array [] => .failed (.here .emptyArray)
  | .array (first :: rest) =>
      decided_array (List.cons_ne_nil first rest) (decided_items (first :: rest))
  | .record [] => .failed (.here .emptyRecord)
  | .record (first :: rest) =>
      decided_record (List.cons_ne_nil first rest) (decided_entries (first :: rest))

theorem decided_items : ∀ items : List Value, ∀ item ∈ items,
    Decided config strict item.places (item.toTerm config strict)
  | [], _, member => nomatch member
  | first :: rest, item, member => by
      cases member with
      | head => exact decided_toTerm first
      | tail _ member => exact decided_items rest item member

theorem decided_entries : ∀ entries : List (Key × Value), ∀ entry ∈ entries,
    Decided config strict (keyedPlaces entry) (entryText config strict entry)
  | [], _, member => nomatch member
  | (key, value) :: rest, entry, member => by
      cases member with
      | head => exact decided_entry (decided_toTerm value)
      | tail _ member => exact decided_entries rest entry member

end

/-- A value is converted exactly where no place in it has a defect: no empty array or record, no
double that is not finite, no instant whose year is outside 0 to 9999, no key that is refused as
a predicate and, where nulls are refused, no null. Otherwise the error is that of the first place
that has a defect. -/
theorem toTerm_fails_at_first_defect (config : RenderConfig) (strict : Bool) (value : Value) :
    ((∃ term, value.toTerm config strict = .ok term) ↔
      ∀ place ∈ value.places, ∀ reason, ¬Defect config strict place reason) ∧
    ∀ reason, value.toTerm config strict = .error reason ↔
      FirstDefect config strict value.places reason := by
  have decided : Decided config strict value.places (value.toTerm config strict) :=
    decided_toTerm value
  generalize value.toTerm config strict = result at decided
  cases decided with
  | @converted term sound =>
      refine ⟨iff_of_true ⟨term, rfl⟩ sound, fun reason => iff_of_false nofun fun first => ?_⟩
      obtain ⟨place, member, defect⟩ := first.exists_defect
      exact sound place member reason defect
  | @failed reason first =>
      obtain ⟨place, member, defect⟩ := first.exists_defect
      refine ⟨iff_of_false nofun fun sound => sound place member reason defect, fun other => ?_⟩
      rw [Except.error.injEq]
      exact ⟨fun same => same ▸ first, first.unique⟩

/-- Of three defects the error is that of the key, which stands before its value and behind an
entry without a defect. -/
example :
    toTerm .standard false (.record
      [(.name ['k'], .boolean true), (.name ['b', ' ', 'k'], .array []),
        (.name ['l'], .record [])]) =
      .error (.refused (.malformedIdentifier ['b', ' ', 'k'])) := rfl

end SparqlText.Value
