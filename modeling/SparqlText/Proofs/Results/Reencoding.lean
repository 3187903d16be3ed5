/-
# Documents written again

A results document is written from what was read of it: the fields that are there, each under
its first name, and the variables of a row in order. What is written so is read as the same
answer again, and so every document that can be read may be exchanged for the one that is
written from it. Members that nobody asked for, the second name of a field, the array form of a
structure and the earlier bindings of a variable that is repeated are gone by then.
-/

import SparqlText.Proofs.Json.Trees
import SparqlText.Results.Document

namespace SparqlText

/-! ## Lists and mappings -/

/-- What holds of everything that may be written holds of what is written, if anything is. -/
theorem forall_mem_toList_map {Value Member : Type} {write : Value → Member}
    {holds : Member → Prop} (each : ∀ value, holds (write value)) (held : Option Value) :
    ∀ member ∈ (held.map write).toList, holds member := by
  cases held with
  | none => exact nofun
  | some value => exact List.forall_mem_singleton.mpr (each value)

namespace Json

namespace Tree

/-- A list of items that are read back is read back. -/
theorem list?_map {Item : Type} {item? : Tree → Option Item} (write : Item → Tree)
    (back : ∀ item, item? (write item) = some item) (items : List Item) :
    list? item? (.array (items.map write)) = some items := by
  rw [list?]
  induction items with
  | nil => rfl
  | cons item items ih =>
      rw [List.map_cons, List.mapM_cons, back, ih]
      rfl

/-- A mapping to values that are read back is read back. -/
theorem mapping?_map {Value : Type} {value? : Tree → Option Value} {write : Value → Tree}
    (back : ∀ value, value? (write value) = some value) (mapping : Mapping Value) :
    mapping? value? (.object (mapping.entries.map fun (name, value) => (some name, write value))) =
      some mapping := by
  have entries (entries : List (Text × Value)) :
      entries? value? (entries.map fun (name, value) => (some name, write value)) =
        some entries := by
    induction entries with
    | nil => rfl
    | cons entry entries ih =>
        obtain ⟨name, value⟩ := entry
        simp only [List.map_cons, entries?, back, ih]
  rw [mapping?, entries, Option.map_some, Mapping.ofEntries_entries]

/-- A text as a tree. -/
def ofText (text : Text) : Tree := .string (some text)

@[simp]
theorem textual_ofText (text : Text) : (ofText text).Textual := .string text

end Tree

/-- A field that is written where it has a value, and never as null, is read back. -/
theorem Given.optional?_map {Value : Type} {value? : Tree → Option Value} (write : Value → Tree)
    (back : ∀ value, Tree.nullable? value? (write value) = some (some value)) {given : Given}
    {index : Nat} {held : Option Value} (found : given.getD index none = held.map write) :
    given.optional? index value? = some held := by
  rw [optional?, orElse?, found]
  cases held with
  | none => rfl
  | some value => exact back value

end Json

/-! ## Bindings -/

theorem BindingKind.ofTree?_name (kind : BindingKind) :
    ofTree? (Json.Tree.ofText kind.name) = some kind := by
  cases kind with
  | uri => rfl
  | literal => rfl
  | typedLiteral => rfl
  | blankNode => rfl

namespace Binding

/-- What is written for the fields of a binding. -/
def given (binding : Binding) : Json.Given :=
  [some (.ofText binding.kind.name), some (.ofText binding.lexical),
    binding.datatype.map .ofText, binding.language.map .ofText]

theorem given?_toTree (binding : Binding) :
    Json.given? fieldNames binding.toTree = some binding.given := by
  obtain ⟨kind, lexical, datatype, language⟩ := binding
  cases datatype with
  | none =>
      cases language with
      | none => rfl
      | some language => rfl
  | some datatype =>
      cases language with
      | none => rfl
      | some language => rfl

/-- A binding is read back from its tree. -/
theorem ofTree?_toTree (binding : Binding) : ofTree? binding.toTree = some binding := by
  have text (text : Text) :
      Json.Tree.nullable? Json.Tree.text? (.ofText text) = some (some text) := rfl
  have kind : binding.given.required? 0 BindingKind.ofTree? = some binding.kind :=
    BindingKind.ofTree?_name binding.kind
  have lexical : binding.given.required? 1 Json.Tree.text? = some binding.lexical := rfl
  have datatype : binding.given.optional? 2 Json.Tree.text? = some binding.datatype :=
    Json.Given.optional?_map .ofText text rfl
  have language : binding.given.optional? 3 Json.Tree.text? = some binding.language :=
    Json.Given.optional?_map .ofText text rfl
  rw [ofTree?, given?_toTree]
  simp only [Option.bind_eq_bind, Option.bind_some, kind, lexical, datatype, language]
  rfl

theorem textual_toTree (binding : Binding) : binding.toTree.Textual := by
  have text (name : String) (text : Text) :
      (textMember name text).1.isSome ∧ (textMember name text).2.Textual :=
    ⟨rfl, .string text⟩
  rw [toTree, Json.Tree.textual_object_iff, List.forall_mem_append, List.forall_mem_append]
  refine ⟨⟨?_, forall_mem_toList_map (text _) _⟩, forall_mem_toList_map (text _) _⟩
  exact List.forall_mem_cons.mpr ⟨text _ _, List.forall_mem_singleton.mpr (text _ _)⟩

end Binding

/-! ## Documents -/

namespace ResultSet

/-- The variables as a JSON tree. -/
def headTree (names : List Text) : Json.Tree :=
  .object [(some "vars".toList, .array (names.map .ofText))]

/-- The rows as a JSON tree. -/
def solutionsTree (rows : List Row) : Json.Tree :=
  .object [(some "bindings".toList, .array (rows.map rowTree))]

/-- What is written for the fields of an answer. -/
def given (results : ResultSet) : Json.Given :=
  [some (headTree results.variables), results.solutions.map solutionsTree,
    results.verdict.map .bool]

theorem given?_toTree (results : ResultSet) :
    Json.given? fieldNames results.toTree = some results.given := by
  obtain ⟨names, solutions, verdict⟩ := results
  cases solutions with
  | none =>
      cases verdict with
      | none => rfl
      | some verdict => rfl
  | some solutions =>
      cases verdict with
      | none => rfl
      | some verdict => rfl

theorem variablesOfTree?_headTree (names : List Text) :
    variablesOfTree? (headTree names) = some names :=
  Json.Tree.list?_map .ofText (fun _ => rfl) names

theorem solutionsOfTree?_solutionsTree (rows : List Row) :
    solutionsOfTree? (solutionsTree rows) = some rows :=
  Json.Tree.list?_map rowTree (Json.Tree.mapping?_map Binding.ofTree?_toTree) rows

/-- An answer is read back from its tree. -/
theorem ofTree?_toTree (results : ResultSet) : ofTree? results.toTree = some results := by
  have names : results.given.orElse? 0 [] variablesOfTree? = some results.variables :=
    variablesOfTree?_headTree results.variables
  have rows (rows : List Row) :
      Json.Tree.nullable? solutionsOfTree? (solutionsTree rows) = some (some rows) :=
    congrArg (Option.map some) (solutionsOfTree?_solutionsTree rows)
  have solutions : results.given.optional? 1 solutionsOfTree? = some results.solutions :=
    Json.Given.optional?_map solutionsTree rows rfl
  have verdict : results.given.optional? 2 Json.Tree.bool? = some results.verdict :=
    Json.Given.optional?_map .bool (fun _ => rfl) rfl
  rw [ofTree?, given?_toTree]
  simp only [Option.bind_eq_bind, Option.bind_some, names, solutions, verdict]
  rfl

theorem textual_rowTree (row : Row) : (rowTree row).Textual := by
  rw [rowTree, Json.Tree.textual_object_iff, List.forall_mem_map]
  exact fun entry _ => ⟨rfl, entry.2.textual_toTree⟩

theorem textual_toTree (results : ResultSet) : results.toTree.Textual := by
  have head : (headTree results.variables).Textual := by simp [headTree]
  have rows (rows : List Row) : (solutionsTree rows).Textual := by
    simp [solutionsTree, textual_rowTree]
  rw [toTree, Json.Tree.textual_object_iff, List.forall_mem_cons, List.forall_mem_append]
  exact ⟨⟨rfl, head⟩, forall_mem_toList_map (fun found => ⟨rfl, rows found⟩) _,
    forall_mem_toList_map (fun value => ⟨rfl, .bool value⟩) _⟩

/-- What is written of an answer is read as that answer. So is what is written of a document
that was read, whatever that document looked like, and its rows are then worth what they were
worth before. -/
theorem unchanged_by_reencoding :
    (∀ results : ResultSet, read? results.written = some results) ∧
    ∀ text results, read? text = some results →
      ∃ again, read? results.written = some again ∧ again = results ∧
        again.nativeRows = results.nativeRows := by
  have back (results : ResultSet) : read? results.written = some results := by
    rw [read?, written, results.textual_toTree.read?_eq, Option.bind_some, ofTree?_toTree]
  exact ⟨back, fun _ results _ => ⟨results, back results, rfl, rfl⟩⟩

/-- A document as an array of its fields without the last one. Its head has a member that is
unknown; its only row binds a variable twice, the second time by an array, and another variable
by an object in which the fields are out of order and the language has its second name. -/
def irregular : Json.Tree :=
  .array
    [.object [(some "more".toList, .array [.null]),
      (some "vars".toList, .array [.ofText ['y'], .ofText ['x']])],
    .object [(some "bindings".toList, .array
      [.object [(some ['y'], .object [(some "lang".toList, .ofText "fr".toList),
          (some "value".toList, .ofText ['\n', 'é']),
          (some "type".toList, .ofText "literal".toList)]),
        (some ['x'], .object [(some "type".toList, .ofText "uri".toList),
          (some "value".toList, .ofText [])]),
        (some ['x'], .array [.ofText "typed-literal".toList, .ofText ['5'],
          .ofText (Vocabulary.xsd "int")])]])]]

/-- The answer that is read of it. -/
def regular : ResultSet where
  «variables» := [['y'], ['x']]
  solutions := some [.ofEntries
    [(['x'], { kind := .typedLiteral, lexical := ['5'], datatype := Vocabulary.xsd "int" }),
      (['y'], { kind := .literal, lexical := ['\n', 'é'], language := "fr".toList })]]

theorem unchanged_by_reencoding_irregular :
    read? irregular.written = some regular ∧
      ∃ again, read? regular.written = some again ∧ again = regular ∧
        again.nativeRows = regular.nativeRows := by
  have taken : ofTree? irregular = some regular := rfl
  have textual : irregular.Textual := by simp [irregular, Json.Tree.Textual.null]
  have accepted : read? irregular.written = some regular := by
    rw [read?, textual.read?_eq, Option.bind_some, taken]
  exact ⟨accepted, unchanged_by_reencoding.2 irregular.written regular accepted⟩

end ResultSet

end SparqlText
