/-
# The treatment of nulls

A configuration says whether nulls are refused, and everything that converts values for a
triple, a block, a quoted triple, or a property of a node or of a statement goes by it.
Where nulls are refused, a call fails if there is a null anywhere in its values. Where they
are not, a call comes to the same as with the empty string in place of every null: the same
text or state, or the same error. A template never refuses nulls.
-/

import SparqlText.Proofs.Graph.Operations
import SparqlText.Proofs.Value.Nulls
import SparqlText.Template

namespace SparqlText

/-! ## Calls that convert values -/

/-- A call that converts values, and treats nulls as a configuration says. -/
inductive Conversion
  | triple (config : RenderConfig) (subject predicate : Text) (object : Value)
  /-- A block in which an array is one object. -/
  | triples (config : RenderConfig) (subject : Text) (pairs : List (Text × Value))
  /-- A block in which an array stands for an object per element. -/
  | triplesMap (config : RenderConfig) (subject : Text) (pairs : List (Text × Value))
  | quotedTriple (config : RenderConfig) (subject predicate : Text) (object : Value)
  /-- A property of a node. -/
  | property (graph : Graph) (id : NodeId) (predicate : Text) (value : Value)
  /-- A property of a statement. -/
  | qualify (relationship : Relationship) (predicate : Text) (value : Value)
  /-- A property of a statement, under another configuration than the statement's. -/
  | qualifyUnder (config : RenderConfig) (relationship : Relationship) (predicate : Text)
      (value : Value)

namespace Conversion

/-- What a call that succeeds gives. -/
inductive Outcome
  | text (text : Option Text)
  | term (term : Term)
  | graph (graph : Graph)
  | statement (relationship : Relationship)

/-- What a call gives. -/
def outcome : Conversion → Except Error Outcome
  | .triple config subject predicate object =>
      (Pattern.convertedTriple config subject predicate object).map fun text => .text (some text)
  | .triples config subject pairs => (Pattern.triples config subject pairs).map .text
  | .triplesMap config subject pairs => (Pattern.triplesMap config subject pairs).map .text
  | .quotedTriple config subject predicate object =>
      (Pattern.quotedTriple config subject predicate object).map .term
  | .property graph id predicate value =>
      (graph.edit id (.property predicate value)).map .graph
  | .qualify relationship predicate value =>
      (relationship.withProperty predicate value).map .statement
  | .qualifyUnder config relationship predicate value =>
      (relationship.withPropertyUnder config predicate value).map .statement

/-- The configuration that says how a call treats nulls. -/
def config : Conversion → RenderConfig
  | .triple config _ _ _ => config
  | .triples config _ _ => config
  | .triplesMap config _ _ => config
  | .quotedTriple config _ _ _ => config
  | .property graph _ _ _ => graph.config
  | .qualify relationship _ _ => relationship.config
  | .qualifyUnder config _ _ _ => config

/-- The values that a call converts. -/
def values : Conversion → List Value
  | .triple _ _ _ object => [object]
  | .triples _ _ pairs => pairs.map Prod.snd
  | .triplesMap _ _ pairs => pairs.map Prod.snd
  | .quotedTriple _ _ _ object => [object]
  | .property _ _ _ value => [value]
  | .qualify _ _ value => [value]
  | .qualifyUnder _ _ _ value => [value]

/-- A call with the empty string in place of every null in its values. -/
def withoutNulls : Conversion → Conversion
  | .triple config subject predicate object =>
      .triple config subject predicate object.withoutNulls
  | .triples config subject pairs => .triples config subject (pairs.map Pattern.pairWithoutNulls)
  | .triplesMap config subject pairs =>
      .triplesMap config subject (pairs.map Pattern.pairWithoutNulls)
  | .quotedTriple config subject predicate object =>
      .quotedTriple config subject predicate object.withoutNulls
  | .property graph id predicate value => .property graph id predicate value.withoutNulls
  | .qualify relationship predicate value => .qualify relationship predicate value.withoutNulls
  | .qualifyUnder config relationship predicate value =>
      .qualifyUnder config relationship predicate value.withoutNulls

/-! ## Properties -/

theorem withPropertyUnder_of_hasNull {config : RenderConfig} (strict : config.strictNulls = true)
    (relationship : Relationship) (predicate : Text) {value : Value} (held : value.HasNull) :
    ∃ reason, relationship.withPropertyUnder config predicate value = .error reason := by
  obtain ⟨reason, failed⟩ := Pattern.convertedElements_of_hasNull strict held
  rw [Relationship.withPropertyUnder_eq, failed]
  cases Term.predicate config predicate with
  | error refused => exact ⟨.refused refused, rfl⟩
  | ok term => exact ⟨reason, rfl⟩

theorem withPropertyUnder_withoutNulls {config : RenderConfig}
    (lenient : config.strictNulls = false) (relationship : Relationship) (predicate : Text)
    (value : Value) :
    relationship.withPropertyUnder config predicate value.withoutNulls =
      relationship.withPropertyUnder config predicate value := by
  rw [Relationship.withPropertyUnder_eq, Relationship.withPropertyUnder_eq,
    Pattern.convertedElements_withoutNulls lenient]

theorem edit_of_hasNull {graph : Graph} (strict : graph.config.strictNulls = true)
    (id : NodeId) (predicate : Text) {value : Value} (held : value.HasNull) :
    ∃ reason, graph.edit id (.property predicate value) = .error reason := by
  obtain ⟨reason, failed⟩ := Pattern.convertedElements_of_hasNull strict held
  rw [Graph.edit_eq, Graph.update, Graph.heldTerms, failed]
  cases graph.contains id with
  | false => exact ⟨.foreignNode id, rfl⟩
  | true =>
      cases Term.predicate graph.config predicate with
      | error refused => exact ⟨.refused refused, rfl⟩
      | ok term => exact ⟨reason, rfl⟩

theorem edit_withoutNulls {graph : Graph} (lenient : graph.config.strictNulls = false)
    (id : NodeId) (predicate : Text) (value : Value) :
    graph.edit id (.property predicate value.withoutNulls) =
      graph.edit id (.property predicate value) := by
  rw [Graph.edit_eq, Graph.edit_eq, Graph.update, Graph.update, Graph.heldTerms, Graph.heldTerms,
    Pattern.convertedElements_withoutNulls lenient]

/-! ## Every call -/

theorem outcome_of_hasNull {call : Conversion} (strict : call.config.strictNulls = true)
    {value : Value} (member : value ∈ call.values) (held : value.HasNull) :
    ∃ reason, call.outcome = .error reason := by
  cases call with
  | triple config subject predicate object =>
      have refuses : config.strictNulls = true := strict
      obtain rfl := List.mem_singleton.mp member
      obtain ⟨reason, failed⟩ := held.toConfiguredTerm refuses
      exact ⟨reason, by rw [outcome, Pattern.convertedTriple, failed]; rfl⟩
  | triples config subject pairs =>
      have refuses : config.strictNulls = true := strict
      obtain ⟨pair, among, rfl⟩ := List.mem_map.mp member
      obtain ⟨reason, failed⟩ := Pattern.wholePairs_of_hasNull refuses among held
      exact ⟨reason, by rw [outcome, Pattern.triples, failed]; rfl⟩
  | triplesMap config subject pairs =>
      have refuses : config.strictNulls = true := strict
      obtain ⟨pair, among, rfl⟩ := List.mem_map.mp member
      obtain ⟨reason, failed⟩ := Pattern.elementPairs_of_hasNull refuses among held
      exact ⟨reason, by rw [outcome, Pattern.triplesMap, failed]; rfl⟩
  | quotedTriple config subject predicate object =>
      have refuses : config.strictNulls = true := strict
      obtain rfl := List.mem_singleton.mp member
      obtain ⟨reason, failed⟩ := held.toConfiguredTerm refuses
      exact ⟨reason, by rw [outcome, Pattern.quotedTriple, failed]; rfl⟩
  | property graph id predicate own =>
      obtain rfl := List.mem_singleton.mp member
      obtain ⟨reason, failed⟩ := edit_of_hasNull strict id predicate held
      exact ⟨reason, by rw [outcome, failed]; rfl⟩
  | qualify relationship predicate own =>
      have refuses : relationship.config.strictNulls = true := strict
      obtain rfl := List.mem_singleton.mp member
      obtain ⟨reason, failed⟩ := withPropertyUnder_of_hasNull refuses relationship predicate held
      exact ⟨reason, by rw [outcome, Relationship.withProperty, failed]; rfl⟩
  | qualifyUnder config relationship predicate own =>
      have refuses : config.strictNulls = true := strict
      obtain rfl := List.mem_singleton.mp member
      obtain ⟨reason, failed⟩ := withPropertyUnder_of_hasNull refuses relationship predicate held
      exact ⟨reason, by rw [outcome, failed]; rfl⟩

theorem outcome_withoutNulls {call : Conversion} (lenient : call.config.strictNulls = false) :
    call.withoutNulls.outcome = call.outcome := by
  cases call with
  | triple config subject predicate object =>
      have allows : config.strictNulls = false := lenient
      rw [withoutNulls, outcome, outcome, Pattern.convertedTriple, Pattern.convertedTriple,
        Value.toConfiguredTerm_withoutNulls allows]
  | triples config subject pairs =>
      have allows : config.strictNulls = false := lenient
      rw [withoutNulls, outcome, outcome, Pattern.triples, Pattern.triples,
        Pattern.wholePairs_withoutNulls allows]
  | triplesMap config subject pairs =>
      have allows : config.strictNulls = false := lenient
      rw [withoutNulls, outcome, outcome, Pattern.triplesMap, Pattern.triplesMap,
        Pattern.elementPairs_withoutNulls allows]
  | quotedTriple config subject predicate object =>
      have allows : config.strictNulls = false := lenient
      rw [withoutNulls, outcome, outcome, Pattern.quotedTriple, Pattern.quotedTriple,
        Value.toConfiguredTerm_withoutNulls allows]
  | property graph id predicate value =>
      rw [withoutNulls, outcome, outcome, edit_withoutNulls lenient]
  | qualify relationship predicate value =>
      have allows : relationship.config.strictNulls = false := lenient
      rw [withoutNulls, outcome, outcome, Relationship.withProperty, Relationship.withProperty,
        withPropertyUnder_withoutNulls allows]
  | qualifyUnder config relationship predicate value =>
      have allows : config.strictNulls = false := lenient
      rw [withoutNulls, outcome, outcome, withPropertyUnder_withoutNulls allows]

end Conversion

/-! ## Templates -/

/-- A piece with the empty string in place of every null. -/
def Piece.withoutNulls : Piece → Piece
  | .fragment text => .fragment text
  | .splice value => .splice value.withoutNulls

namespace Template

theorem trimFirst_withoutNulls (template : Template) :
    trimFirst (template.map Piece.withoutNulls) = (trimFirst template).map Piece.withoutNulls := by
  cases template with
  | nil => rfl
  | cons piece rest => cases piece <;> rfl

theorem trimLast_withoutNulls (template : Template) :
    trimLast (template.map Piece.withoutNulls) = (trimLast template).map Piece.withoutNulls := by
  induction template with
  | nil => rfl
  | cons piece rest ih =>
      cases rest with
      | nil => cases piece <;> rfl
      | cons next rest => exact congrArg (piece.withoutNulls :: ·) ih

theorem written_withoutNulls (config : RenderConfig) (template : Template) :
    written config (template.map Piece.withoutNulls) = written config template := by
  induction template with
  | nil => rfl
  | cons piece rest ih =>
      have same : piece.withoutNulls.written config = piece.written config := by
        cases piece with
        | fragment text => rfl
        | splice value =>
            rw [Piece.withoutNulls, Piece.written, Piece.written, Value.toTerm_withoutNulls]
      rw [List.map_cons, written, written, same, ih]

theorem render_withoutNulls (config : RenderConfig) (template : Template) :
    render config (template.map Piece.withoutNulls) = render config template := by
  rw [render, render, trimFirst_withoutNulls, trimLast_withoutNulls, written_withoutNulls]

end Template

/-! ## The treatment of nulls -/

/-- Where nulls are refused, a call with a null anywhere in its values fails, and where they
are not, it gives what it gives with the empty string in place of every null. A conversion
that is told not to refuse nulls gives what any conversion gives with the empty string in
their place, and so does a template, whatever its configuration says of nulls. With the empty
string in their place there are none left. -/
theorem Conversion.treatment_of_nulls :
    (∀ call : Conversion, call.config.strictNulls = true →
      ∀ value ∈ call.values, value.HasNull → ∃ reason, call.outcome = .error reason) ∧
    (∀ call : Conversion, call.config.strictNulls = false →
      call.withoutNulls.outcome = call.outcome) ∧
    (∀ (config : RenderConfig) (strict : Bool) (value : Value),
      value.withoutNulls.toTerm config strict = value.toTerm config false) ∧
    (∀ (config : RenderConfig) (template : Template),
      Template.render config (template.map Piece.withoutNulls) =
        Template.render config template) ∧
    ∀ value : Value, ¬value.withoutNulls.HasNull := by
  refine ⟨?_, ?_, ?_, ?_, ?_⟩
  · intro call strict value member held
    exact outcome_of_hasNull strict member held
  · intro call lenient
    exact outcome_withoutNulls lenient
  · intro config strict value
    exact value.toTerm_withoutNulls
  · exact Template.render_withoutNulls
  · exact Value.not_hasNull_withoutNulls

/-- An array whose second item holds a null two levels down. -/
def Value.nested : Value :=
  .array [.string ['v'], .record [(.name ['k'], .array [.boolean true, .null])]]

/-- A block with that array as its one object. -/
def Conversion.nested (strictNulls : Bool) : Conversion :=
  .triplesMap { strictNulls } ['?', 's'] [(['?', 'p'], .nested)]

theorem Conversion.treatment_of_nulls_nested :
    (nested true).config.strictNulls = true ∧ Value.nested ∈ (nested true).values ∧
      Value.nested.HasNull ∧ (∃ reason, (nested true).outcome = .error reason) ∧
      (nested false).config.strictNulls = false ∧
      (nested false).withoutNulls.outcome = (nested false).outcome := by
  have member : Value.nested ∈ (nested true).values := List.mem_cons_self
  have deep : Value.HasNull (.array [.boolean true, .null]) :=
    .item (List.mem_cons_of_mem _ List.mem_cons_self) .null
  have held : Value.nested.HasNull :=
    .item (List.mem_cons_of_mem _ List.mem_cons_self) (.entry List.mem_cons_self deep)
  exact ⟨rfl, member, held, treatment_of_nulls.1 _ rfl _ member held, rfl,
    treatment_of_nulls.2.1 _ rfl⟩

end SparqlText
