/-
# Nulls at every depth

A null may stand anywhere in a value, and so what becomes of nulls is a matter of the whole
value. Where nulls are refused, a value that holds one is not converted. Where they are not,
a value is converted as if the empty string stood in place of every null, and a value in
which it does is converted alike whether nulls are refused or not.

The same is then said of everything that converts values in order: the elements of an array
that stands for several objects, and the pairs of a block.
-/

import SparqlText.Pattern

namespace SparqlText

/-! ## Conversions in order -/

/-- A conversion of lists takes its items in order: it fails with the first item that fails
and otherwise puts each before the rest. -/
def InOrder {Item Part Whole : Type} (convert : Item → Except Error Part)
    (put : Item → Part → Whole → Whole) (all : List Item → Except Error Whole) : Prop :=
  ∀ first rest, all (first :: rest) =
    match convert first with
    | .error reason => .error reason
    | .ok part =>
        match all rest with
        | .error reason => .error reason
        | .ok whole => .ok (put first part whole)

/-- A list is not converted where one of its items is not. -/
theorem InOrder.fails {Item Part Whole : Type} {convert : Item → Except Error Part}
    {put : Item → Part → Whole → Whole} {all : List Item → Except Error Whole}
    (ordered : InOrder convert put all) {items : List Item} {item : Item} (member : item ∈ items)
    (failed : ∃ reason, convert item = .error reason) :
    ∃ reason, all items = .error reason := by
  induction items with
  | nil => cases member
  | cons first rest ih =>
      rw [ordered]
      cases converted : convert first with
      | error reason => exact ⟨reason, rfl⟩
      | ok part =>
          cases member with
          | head =>
              obtain ⟨reason, failed⟩ := failed
              rw [failed] at converted
              cases converted
          | tail _ member =>
              obtain ⟨reason, failed⟩ := ih member
              exact ⟨reason, by simp only [failed]⟩

namespace Value

/-! ## Nulls in values -/

/-- A value that is null, or an array or record that holds such a value. -/
inductive HasNull : Value → Prop
  | null : HasNull .null
  | item {items : List Value} {item : Value} (member : item ∈ items) (inside : HasNull item) :
      HasNull (.array items)
  | entry {entries : List (Key × Value)} {key : Key} {value : Value}
      (member : (key, value) ∈ entries) (inside : HasNull value) : HasNull (.record entries)

mutual

/-- A value with the empty string in place of every null. -/
def withoutNulls : Value → Value
  | .null => .string []
  | .array items => .array (itemsWithoutNulls items)
  | .record entries => .record (entriesWithoutNulls entries)
  | value => value

/-- The items of an array, each without nulls. -/
def itemsWithoutNulls : List Value → List Value
  | [] => []
  | item :: rest => withoutNulls item :: itemsWithoutNulls rest

/-- The entries of a record, the value of each without nulls. -/
def entriesWithoutNulls : List (Key × Value) → List (Key × Value)
  | [] => []
  | (key, value) :: rest => (key, withoutNulls value) :: entriesWithoutNulls rest

end

theorem itemsWithoutNulls_eq_map (items : List Value) :
    itemsWithoutNulls items = items.map withoutNulls := by
  induction items with
  | nil => rfl
  | cons item rest ih => rw [itemsWithoutNulls, ih, List.map_cons]

theorem isScalar_withoutNulls (value : Value) : value.withoutNulls.isScalar = value.isScalar := by
  cases value <;> rfl

mutual

theorem not_hasNull_withoutNulls : ∀ value : Value, ¬value.withoutNulls.HasNull
  | .null => nofun
  | .string _ => nofun
  | .integer _ => nofun
  | .number _ => nofun
  | .boolean _ => nofun
  | .timestamp _ => nofun
  | .term _ => nofun
  | .array items => by
      rintro (_ | ⟨member, inside⟩)
      exact not_hasNull_items items _ member inside
  | .record entries => by
      rintro (_ | _ | ⟨member, inside⟩)
      exact not_hasNull_entries entries _ _ member inside

theorem not_hasNull_items : ∀ (items : List Value),
    ∀ item ∈ itemsWithoutNulls items, ¬item.HasNull
  | [], _, member => nomatch member
  | first :: rest, item, member => by
      cases member with
      | head => exact not_hasNull_withoutNulls first
      | tail _ member => exact not_hasNull_items rest item member

theorem not_hasNull_entries : ∀ (entries : List (Key × Value)) (key : Key) (value : Value),
    (key, value) ∈ entriesWithoutNulls entries → ¬value.HasNull
  | [], _, _, member => nomatch member
  | (_, first) :: rest, key, value, member => by
      cases member with
      | head => exact not_hasNull_withoutNulls first
      | tail _ member => exact not_hasNull_entries rest key value member

end

/-! ## Conversion -/

variable {config : RenderConfig} {strict : Bool}

theorem toTerm_array {items : List Value} (some : items ≠ []) :
    (Value.array items).toTerm config strict =
      match itemTexts config strict items with
      | .error reason => .error reason
      | .ok terms => .ok (arrayTerm (items.all isScalar) terms) := by
  cases items with
  | nil => exact absurd rfl some
  | cons first rest => rfl

theorem toTerm_record {entries : List (Key × Value)} (some : entries ≠ []) :
    (Value.record entries).toTerm config strict =
      match entryTexts config strict entries with
      | .error reason => .error reason
      | .ok pairs => .ok (recordTerm pairs) := by
  cases entries with
  | nil => exact absurd rfl some
  | cons first rest => rfl

theorem inOrder_itemTexts (config : RenderConfig) (strict : Bool) :
    InOrder (toTerm config strict) (fun _ term texts => term.text :: texts)
      (itemTexts config strict) := by
  intro first rest
  rw [itemTexts]
  cases toTerm config strict first with
  | error reason => rfl
  | ok term => cases itemTexts config strict rest <;> rfl

/-- An entry as its predicate and its object. -/
def entryText (config : RenderConfig) (strict : Bool) (entry : Key × Value) :
    Except Error Text :=
  match orRefused (keyTerm config entry.1) with
  | .error reason => .error reason
  | .ok predicate =>
      match entry.2.toTerm config strict with
      | .error reason => .error reason
      | .ok object => .ok (predicate.text ++ ' ' :: object.text)

theorem inOrder_entryTexts (config : RenderConfig) (strict : Bool) :
    InOrder (entryText config strict) (fun _ text texts => text :: texts)
      (entryTexts config strict) := by
  intro (key, value) rest
  rw [entryTexts, entryText]
  cases orRefused (keyTerm config key) with
  | error reason => rfl
  | ok predicate =>
      cases value.toTerm config strict with
      | error reason => rfl
      | ok object => cases entryTexts config strict rest <;> rfl

theorem entryText_of_error {entry : Key × Value}
    (failed : ∃ reason, entry.2.toTerm config strict = .error reason) :
    ∃ reason, entryText config strict entry = .error reason := by
  obtain ⟨reason, failed⟩ := failed
  rw [entryText, failed]
  cases orRefused (keyTerm config entry.1) with
  | error refused => exact ⟨refused, rfl⟩
  | ok predicate => exact ⟨reason, rfl⟩

/-- Where nulls are refused, no value that holds one is converted. -/
theorem HasNull.toTerm_strict {value : Value} (held : value.HasNull) :
    ∃ reason, value.toTerm config true = .error reason := by
  induction held with
  | null => exact ⟨.nullValue, rfl⟩
  | item member _ ih =>
      obtain ⟨reason, failed⟩ := (inOrder_itemTexts config true).fails member ih
      rw [toTerm_array (List.ne_nil_of_mem member), failed]
      exact ⟨reason, rfl⟩
  | entry member _ ih =>
      obtain ⟨reason, failed⟩ :=
        (inOrder_entryTexts config true).fails member (entryText_of_error ih)
      rw [toTerm_record (List.ne_nil_of_mem member), failed]
      exact ⟨reason, rfl⟩

mutual

/-- A value is converted without regard to nulls as it is, under either treatment of nulls,
with the empty string in place of each. -/
theorem toTerm_withoutNulls : ∀ value : Value,
    value.withoutNulls.toTerm config strict = value.toTerm config false
  | .null => rfl
  | .string _ => rfl
  | .integer _ => rfl
  | .number _ => rfl
  | .boolean _ => rfl
  | .timestamp _ => rfl
  | .term _ => rfl
  | .array [] => rfl
  | .array (first :: rest) => by
      have scalar : (itemsWithoutNulls (first :: rest)).all isScalar =
          (first :: rest).all isScalar := by
        simp only [itemsWithoutNulls_eq_map, List.all_map, Function.comp_def,
          isScalar_withoutNulls]
      rw [withoutNulls, toTerm_array (by exact nofun), toTerm_array (by exact nofun),
        itemTexts_withoutNulls (first :: rest), scalar]
  | .record [] => rfl
  | .record (first :: rest) => by
      rw [withoutNulls, toTerm_record (by exact nofun), toTerm_record (by exact nofun),
        entryTexts_withoutNulls (first :: rest)]

theorem itemTexts_withoutNulls : ∀ items : List Value,
    itemTexts config strict (itemsWithoutNulls items) = itemTexts config false items
  | [] => rfl
  | first :: rest => by
      rw [itemsWithoutNulls, itemTexts, itemTexts, toTerm_withoutNulls first,
        itemTexts_withoutNulls rest]

theorem entryTexts_withoutNulls : ∀ entries : List (Key × Value),
    entryTexts config strict (entriesWithoutNulls entries) = entryTexts config false entries
  | [] => rfl
  | (key, value) :: rest => by
      rw [entriesWithoutNulls, entryTexts, entryTexts, toTerm_withoutNulls value,
        entryTexts_withoutNulls rest]

end

/-! ## Elements -/

/-- A null in a value is a null in one of the elements that the value stands for. -/
theorem HasNull.elements {value : Value} (held : value.HasNull) :
    ∃ element ∈ value.elements, element.HasNull := by
  cases held with
  | null => exact ⟨.null, List.mem_singleton_self _, .null⟩
  | @item items item member inside =>
      cases items with
      | nil => cases member
      | cons first rest => exact ⟨item, member, inside⟩
  | entry member inside => exact ⟨_, List.mem_singleton_self _, .entry member inside⟩

theorem elements_withoutNulls (value : Value) :
    value.withoutNulls.elements = value.elements.map withoutNulls := by
  cases value with
  | array items =>
      cases items with
      | nil => rfl
      | cons first rest => exact itemsWithoutNulls_eq_map (first :: rest)
  | _ => rfl

/-! ## Under a configuration -/

theorem HasNull.toConfiguredTerm {value : Value} (held : value.HasNull)
    (strict : config.strictNulls = true) :
    ∃ reason, value.toConfiguredTerm config = .error reason := by
  rw [Value.toConfiguredTerm, strict]
  exact held.toTerm_strict

theorem toConfiguredTerm_withoutNulls (lenient : config.strictNulls = false) (value : Value) :
    value.withoutNulls.toConfiguredTerm config = value.toConfiguredTerm config := by
  rw [toConfiguredTerm, toConfiguredTerm, lenient]
  exact toTerm_withoutNulls value

end Value

/-! ## Values converted in order -/

namespace Pattern

open Value

theorem inOrder_convertedValues (config : RenderConfig) :
    InOrder (toConfiguredTerm config) (fun _ term terms => term :: terms)
      (convertedValues config) := by
  intro first rest
  rw [convertedValues]
  cases first.toConfiguredTerm config with
  | error reason => rfl
  | ok term => cases convertedValues config rest <;> rfl

theorem inOrder_wholePairs (config : RenderConfig) :
    InOrder (fun pair : Text × Value => pair.2.toConfiguredTerm config)
      (fun pair object pairs => ⟨pair.1, object.text⟩ :: pairs) (wholePairs config) := by
  intro (predicate, object) rest
  rw [wholePairs]
  dsimp only
  cases object.toConfiguredTerm config with
  | error reason => rfl
  | ok object => cases wholePairs config rest <;> rfl

theorem inOrder_elementPairs (config : RenderConfig) :
    InOrder (fun pair : Text × Value => convertedValues config pair.2.elements)
      (fun pair terms pairs => terms.map (fun term => ⟨pair.1, term.text⟩) ++ pairs)
      (elementPairs config) := by
  intro (predicate, object) rest
  rw [elementPairs]
  dsimp only
  cases convertedValues config object.elements with
  | error reason => rfl
  | ok terms => cases elementPairs config rest <;> rfl

/-- A pair of a predicate and a value, with the empty string in place of every null. -/
def pairWithoutNulls (pair : Text × Value) : Text × Value := (pair.1, pair.2.withoutNulls)

variable {config : RenderConfig}

section Strict

variable (strict : config.strictNulls = true)

include strict

/-- The elements of a value with a null are not converted. -/
theorem convertedElements_of_hasNull {value : Value} (held : value.HasNull) :
    ∃ reason, convertedValues config value.elements = .error reason := by
  obtain ⟨element, member, inside⟩ := held.elements
  exact (inOrder_convertedValues config).fails member (inside.toConfiguredTerm strict)

theorem wholePairs_of_hasNull {pairs : List (Text × Value)} {pair : Text × Value}
    (member : pair ∈ pairs) (held : pair.2.HasNull) :
    ∃ reason, wholePairs config pairs = .error reason :=
  (inOrder_wholePairs config).fails member (held.toConfiguredTerm strict)

theorem elementPairs_of_hasNull {pairs : List (Text × Value)} {pair : Text × Value}
    (member : pair ∈ pairs) (held : pair.2.HasNull) :
    ∃ reason, elementPairs config pairs = .error reason :=
  (inOrder_elementPairs config).fails member (convertedElements_of_hasNull strict held)

end Strict

section Lenient

variable (lenient : config.strictNulls = false)

include lenient

theorem convertedValues_withoutNulls (values : List Value) :
    convertedValues config (values.map withoutNulls) = convertedValues config values := by
  induction values with
  | nil => rfl
  | cons first rest ih =>
      rw [List.map_cons, convertedValues, convertedValues,
        toConfiguredTerm_withoutNulls lenient, ih]

theorem convertedElements_withoutNulls (value : Value) :
    convertedValues config value.withoutNulls.elements =
      convertedValues config value.elements := by
  rw [elements_withoutNulls, convertedValues_withoutNulls lenient]

theorem wholePairs_withoutNulls (pairs : List (Text × Value)) :
    wholePairs config (pairs.map pairWithoutNulls) = wholePairs config pairs := by
  induction pairs with
  | nil => rfl
  | cons first rest ih =>
      rw [List.map_cons, pairWithoutNulls, wholePairs, wholePairs,
        toConfiguredTerm_withoutNulls lenient, ih]

theorem elementPairs_withoutNulls (pairs : List (Text × Value)) :
    elementPairs config (pairs.map pairWithoutNulls) = elementPairs config pairs := by
  induction pairs with
  | nil => rfl
  | cons first rest ih =>
      rw [List.map_cons, pairWithoutNulls, elementPairs, elementPairs,
        convertedElements_withoutNulls lenient, ih]

end Lenient

end Pattern

end SparqlText
