/-
# Operations

What the actions on a graph and on a statement come to. A description is read before there
is a node, and an edit makes its last check before its first push. So each of them makes one
change to the graph, or else it fails and the graph is as it was.

A property of a statement is attached value by value and can fail half way. What has been
attached by then is not told here, since nobody sees it: the statement that it was attached
to is a copy.
-/

import SparqlText.Graph.Basic

namespace SparqlText

/-! ## Nodes -/

namespace Graph

/-- A change of the node that was added last. -/
theorem change_add (graph : Graph) (node : Node) (update : Node → Node) :
    (graph.add node).1.change graph.size update = (graph.add (update node)).1 := by
  simp [change, add, size, List.modify_eq_take_drop]

/-- A node is added when its description has been read, and then it has all of its types. -/
theorem describeNode_eq (graph : Graph) (text : Text) :
    describeNode text graph =
      match Description.read graph.config text with
      | .error reason => .error reason graph
      | .ok description =>
          .ok graph.size
            (graph.add { subject := description.subject, types := description.types }).1 := by
  rw [describeNode, Action.get_bind, Action.ofExcept_bind]
  cases Description.read graph.config text with
  | error reason => rfl
  | ok description =>
      exact congrArg (EStateM.Result.ok graph.size)
        (graph.change_add { subject := description.subject } _)

theorem describeNode_traceless (text : Text) : (describeNode text).Traceless := by
  intro graph reason next failed
  rw [describeNode_eq] at failed
  split at failed
  · cases failed
    rfl
  · cases failed

theorem describe_eq (graph : Graph) (text : Text) :
    graph.describe text =
      match Description.read graph.config text with
      | .error reason => .error reason
      | .ok description =>
          .ok (graph.add { subject := description.subject, types := description.types }) := by
  rw [describe, Action.outcome, describeNode_eq]
  cases Description.read graph.config text <;> rfl

/-! ## Edits of a node -/

/-- What an edit makes of a node, or why it cannot be made. -/
def update (graph : Graph) : Edit → Except Error (Node → Node)
  | .type type =>
      match Description.typeTerm graph.config type with
      | .error reason => .error (.refused reason)
      | .ok type => .ok (Node.withType type)
  | .property predicate value =>
      match Term.predicate graph.config predicate with
      | .error reason => .error (.refused reason)
      | .ok predicate =>
          match heldTerms graph.config value with
          | .error reason => .error reason
          | .ok held => .ok (Node.withHeld predicate held)
  | .link predicate target =>
      if graph.contains target then
        match Term.predicate graph.config predicate with
        | .error reason => .error (.refused reason)
        | .ok predicate => .ok (Node.withHeld predicate [.node target])
      else .error (.refused (.foreignTarget target))

/-- An addition is pushed when nothing can fail any more. -/
theorem extend_eq (graph : Graph) (id : NodeId) (edit : Edit) :
    extend id edit graph =
      match graph.update edit with
      | .error reason => .error reason graph
      | .ok update => .ok () (graph.change id update) := by
  cases edit with
  | type text =>
      rw [extend, Action.get_bind, Action.refusable_bind, update]
      cases Description.typeTerm graph.config text <;> rfl
  | property text value =>
      rw [extend, Action.get_bind, Action.refusable_bind, update]
      cases Term.predicate graph.config text with
      | error reason => rfl
      | ok predicate =>
          dsimp only
          rw [Action.ofExcept_bind]
          cases heldTerms graph.config value <;> rfl
  | link text target =>
      rw [extend, Action.get_bind, Action.require_bind, update]
      cases graph.contains target with
      | false => rfl
      | true =>
          rw [if_pos rfl, if_pos rfl, Action.refusable_bind]
          cases Term.predicate graph.config text <;> rfl

/-- An edit changes its node, or it fails and the graph is as it was. -/
theorem editNode_eq (graph : Graph) (id : NodeId) (edit : Edit) :
    editNode id edit graph =
      if graph.contains id then
        match graph.update edit with
        | .error reason => .error reason graph
        | .ok update => .ok () (graph.change id update)
      else .error (.foreignNode id) graph := by
  rw [editNode, Action.get_bind, Action.require_bind, extend_eq]

theorem editNode_traceless (id : NodeId) (edit : Edit) : (editNode id edit).Traceless := by
  intro graph reason next failed
  rw [editNode_eq] at failed
  split at failed
  · split at failed
    · cases failed
      rfl
    · cases failed
  · cases failed
    rfl

theorem edit_eq (graph : Graph) (id : NodeId) (edit : Edit) :
    graph.edit id edit =
      if graph.contains id then
        match graph.update edit with
        | .error reason => .error reason
        | .ok update => .ok (graph.change id update)
      else .error (.foreignNode id) := by
  rw [Graph.edit, Action.outcome, editNode_eq]
  cases graph.contains id with
  | false => rfl
  | true => cases graph.update edit <;> rfl

end Graph

/-! ## Properties of a statement -/

namespace Relationship

variable (config : RenderConfig) (relationship : Relationship)

/-- Where every value can be converted, all of them are attached. -/
theorem outcome_attach (predicate : Term) (values : List Value) :
    (attach config predicate values).outcome relationship =
      match Pattern.convertedValues config values with
      | .error reason => .error reason
      | .ok objects =>
          .ok ({ relationship with
            properties :=
              relationship.properties ++ objects.map fun object => ⟨predicate, object⟩ }, ()) := by
  induction values generalizing relationship with
  | nil =>
      rw [Pattern.convertedValues]
      dsimp only
      rw [List.map_nil, List.append_nil]
      rfl
  | cons value rest ih =>
      rw [attach, Action.outcome, Action.ofExcept_bind, Pattern.convertedValues]
      cases value.toConfiguredTerm config with
      | error reason => rfl
      | ok object =>
          refine (ih { relationship with
            properties := relationship.properties ++ [⟨predicate, object⟩] }).trans ?_
          dsimp only
          cases Pattern.convertedValues config rest with
          | error reason => rfl
          | ok objects =>
              dsimp only
              rw [List.append_assoc, List.map_cons, List.singleton_append]

/-- Where one of them cannot, those in front of it have been attached. -/
example : ∃ kept, attach { strictNulls := true } ⟨['p']⟩ [.boolean true, .null] relationship =
    .error .nullValue kept ∧
      kept.properties = relationship.properties ++ [⟨⟨['p']⟩, Term.boolean true⟩] :=
  ⟨_, rfl, rfl⟩

theorem withPropertyUnder_eq (predicate : Text) (value : Value) :
    relationship.withPropertyUnder config predicate value =
      match Term.predicate config predicate with
      | .error reason => .error (.refused reason)
      | .ok predicate =>
          match Pattern.convertedValues config value.elements with
          | .error reason => .error reason
          | .ok objects =>
              .ok { relationship with
                properties :=
                  relationship.properties ++ objects.map fun object => ⟨predicate, object⟩ } := by
  rw [withPropertyUnder, attachProperty, Action.outcome, Action.refusable_bind]
  cases Term.predicate config predicate with
  | error reason => rfl
  | ok predicate =>
      have attached := outcome_attach config relationship predicate value.elements
      rw [Action.outcome] at attached
      dsimp only
      rw [attached]
      cases Pattern.convertedValues config value.elements <;> rfl

end Relationship

end SparqlText
