/-
# Describing a node and building it

A node can be described in one text, or be built: it is added with its subject, and its types
are added one after the other. A description resolves all of its parts before there is a
node, and the node then has its types at once; building resolves each type when its turn
comes, and a type that is refused is left out (`run_building`). A text is a description exactly
where its subject can be one and all of its types are accepted in turn, and both ways then
lead to the same session (`describe_is_building`).
-/

import SparqlText.Proofs.Description.Reading
import SparqlText.Proofs.Session.Run
import SparqlText.Proofs.Term.Form
import SparqlText.Proofs.Text.Trimming

namespace SparqlText

/-! ## The keyword -/

namespace Term

variable {config : RenderConfig}

theorem eq_keyword_of_resolved {text : Text} (accepted : resolved config text = .ok keyword) :
    text = keyword.text := by
  unfold resolved at accepted
  split at accepted
  case isTrue same => exact same
  split at accepted
  · obtain ⟨_, _, same⟩ := iri_eq_ok_iff.mp accepted
    cases same
  split at accepted
  · obtain ⟨_, same⟩ := var_eq_ok_iff.mp accepted
    cases same
  split at accepted
  · obtain ⟨_, same⟩ := blank_eq_ok_iff.mp accepted
    cases same
  split at accepted
  · obtain ⟨space, name, _, _, built⟩ := curie_eq_ok_iff.mp accepted
    obtain ⟨_, _, same⟩ := prefixed_eq_ok_iff.mp built
    have colon : ':' ∈ keyword.text := by simp [same]
    exact absurd colon (by decide)
  · cases accepted

/-- Only the keyword itself is resolved to the keyword. -/
theorem reference_eq_keyword_iff (config : RenderConfig) (text : Text) :
    reference config text = .ok keyword ↔ Text.trim text = keyword.text :=
  ⟨eq_keyword_of_resolved, fun same => by rw [reference, resolved, if_pos same]⟩

end Term

/-! ## Building -/

namespace Graph

/-- The types that are accepted among texts, in order. -/
def acceptedTypes (graph : Graph) (types : List Text) : List Term :=
  types.filterMap fun type => (Description.typeTerm graph.config type).toOption

/-- The answer to a further type of the node under an issued number. -/
def typeVerdict (graph : Graph) (id : NodeId) (type : Text) : Answer :=
  match Description.typeTerm graph.config type with
  | .ok _ => .node id
  | .error reason => .failed (.refused reason)

variable {graph : Graph}

/-- Every type is accepted where each of them can be one. -/
theorem types_of_forall₂ {types : List Text} {terms : List Term}
    (each : List.Forall₂ (Description.IsType graph.config) types terms) (id : NodeId) :
    graph.acceptedTypes types = terms ∧
      types.map (graph.typeVerdict id) = List.replicate types.length (.node id) := by
  induction each with
  | nil => exact ⟨rfl, rfl⟩
  | @cons type term rest terms first _ ih =>
      have resolved := (Description.typeTerm_eq_ok_iff graph.config type term).mpr first
      constructor
      · rw [acceptedTypes, List.filterMap_cons_some (by rw [resolved]; rfl)]
        exact congrArg (term :: ·) ih.1
      · rw [List.map_cons, ih.2, List.length_cons, List.replicate_succ, typeVerdict, resolved]

/-- Where not all of the types can be one, a step that adds one of them fails. -/
theorem exists_failed {types : List Text}
    (unresolved : ∀ terms, ¬List.Forall₂ (Description.IsType graph.config) types terms)
    (id : NodeId) : ∃ reason, Answer.failed reason ∈ types.map (graph.typeVerdict id) := by
  induction types with
  | nil => exact absurd .nil (unresolved [])
  | cons type rest ih =>
      cases resolved : Description.typeTerm graph.config type with
      | error reason =>
          refine ⟨.refused reason, List.mem_cons.mpr (.inl ?_)⟩
          rw [typeVerdict, resolved]
      | ok term =>
          have first := (Description.typeTerm_eq_ok_iff graph.config type term).mp resolved
          obtain ⟨reason, member⟩ := ih fun terms others => unresolved _ (.cons first others)
          exact ⟨reason, List.mem_cons_of_mem _ member⟩

end Graph

namespace Session

theorem run_append (session : Session) (first second : List Step) :
    session.run (first ++ second) =
      (((session.run first).1.run second).1,
        (session.run first).2 ++ ((session.run first).1.run second).2) := by
  induction first generalizing session with
  | nil => rfl
  | cons step rest ih => rw [List.cons_append, run_cons, run_cons, ih, List.cons_append]

/-- The steps that add a node with a subject, and then types to it one after the other. -/
def building (session : Session) (subject : Term) (types : List Text) : List Step :=
  .addNode subject :: types.map fun type => .edit session.graph.size (.type type)

/-- A type is added to the node that was added last, or refused. -/
theorem perform_type (session : Session) (node : Node) (type : Text) :
    let added := session.withGraph (session.graph.add node).1
    added.perform (.edit session.graph.size (.type type)) =
      (session.withGraph (session.graph.add { node with
          types := node.types ++ session.graph.acceptedTypes [type] }).1,
        session.graph.typeVerdict session.graph.size type) := by
  intro added
  have present : added.graph.contains session.graph.size = true := by
    show decide (session.graph.size < (session.graph.add node).1.size) = true
    rw [Graph.size_add]
    exact decide_eq_true (Nat.lt_succ_self _)
  have settled : added.graph.config = session.graph.config := rfl
  rw [perform_edit, Graph.edit_eq, if_pos present, Graph.update, Graph.typeVerdict,
    Graph.acceptedTypes, settled]
  cases resolved : Description.typeTerm session.graph.config type with
  | error reason =>
      rw [List.filterMap_cons_none (by rw [resolved]; rfl), List.filterMap_nil, List.append_nil]
  | ok term =>
      rw [List.filterMap_cons_some (by rw [resolved]; rfl), List.filterMap_nil]
      exact congrArg (fun graph => (session.withGraph graph, Answer.node session.graph.size))
        (session.graph.change_add node (Node.withType term))

theorem run_types (session : Session) (node : Node) (types : List Text) :
    (session.withGraph (session.graph.add node).1).run
        (types.map fun type => .edit session.graph.size (.type type)) =
      (session.withGraph (session.graph.add { node with
          types := node.types ++ session.graph.acceptedTypes types }).1,
        types.map (session.graph.typeVerdict session.graph.size)) := by
  induction types generalizing node with
  | nil => rw [Graph.acceptedTypes, List.filterMap_nil, List.append_nil]; rfl
  | cons type rest ih =>
      have split : session.graph.acceptedTypes (type :: rest) =
          session.graph.acceptedTypes [type] ++ session.graph.acceptedTypes rest :=
        List.filterMap_append (l := [type])
      rw [List.map_cons, run_cons, perform_type, List.map_cons, split, ← List.append_assoc]
      dsimp only
      rw [ih]

/-- A node that is built has its subject and those of its types that are accepted. -/
theorem run_building (session : Session) (subject : Term) (types : List Text) :
    session.run (session.building subject types) =
      (session.withGraph (session.graph.add
          { subject, types := session.graph.acceptedTypes types }).1,
        .node session.graph.size :: types.map (session.graph.typeVerdict session.graph.size)) := by
  have first : session.perform (.addNode subject) =
      (session.withGraph (session.graph.add { subject }).1, .node session.graph.size) := rfl
  rw [building, run_cons, first, run_types]
  rfl

end Session

/-! ## Describing -/

/-- The types of a description as they are written, in order. -/
def Description.Shape.typeTexts (parts : Shape) : List Text := parts.types.map Part.text

theorem Description.resolves_iff {config : RenderConfig} {parts : Shape}
    {description : Description} :
    Resolves config parts description ↔
      IsSubject config parts.subject.text description.subject ∧
        List.Forall₂ (IsType config) parts.typeTexts description.types := by
  rw [Shape.typeTexts, List.forall₂_map_left_iff]
  exact ⟨fun resolves => ⟨resolves.subject, resolves.types⟩, fun both => ⟨both.1, both.2⟩⟩

theorem Graph.describe_eq_error_iff (graph : Graph) (text : Text) :
    (∃ reason, graph.describe text = .error reason) ↔
      ∀ description, Description.read graph.config text ≠ .ok description := by
  rw [describe_eq]
  cases Description.read graph.config text <;> simp

namespace Session

variable {session : Session} {text : Text} {parts : Description.Shape}

theorem perform_describe_of_read {description : Description}
    (read : Description.read session.graph.config text = .ok description) :
    session.perform (.describe text) =
      (session.withGraph (session.graph.add
          { subject := description.subject, types := description.types }).1,
        .node session.graph.size) := by
  rw [perform_describe, Graph.describe_eq, read]
  rfl

/-- A node that is described is built from the parts of its description, every step of which
succeeds. -/
theorem run_building_of_resolves {description : Description}
    (resolves : Description.Resolves session.graph.config parts description) :
    session.run (session.building description.subject parts.typeTexts) =
      (session.withGraph (session.graph.add
          { subject := description.subject, types := description.types }).1,
        List.replicate (parts.typeTexts.length + 1) (.node session.graph.size)) := by
  obtain ⟨accepted, answers⟩ :=
    Graph.types_of_forall₂ (Description.resolves_iff.mp resolves).2 session.graph.size
  rw [run_building, accepted, answers, List.replicate_succ]

/-- A text with the shape of a description is refused for its subject, or where one of the
steps that build the node fails. -/
theorem describe_fails_iff (shaped : Description.Shaped text parts) :
    (∃ reason, session.graph.describe text = .error reason) ↔
      (∃ reason, Term.reference session.graph.config parts.subject.text = .error reason) ∨
        parts.subject.text = Term.keyword.text ∨
        ∃ subject reason,
          Term.reference session.graph.config parts.subject.text = .ok subject ∧
            Answer.failed reason ∈ (session.run (session.building subject parts.typeTexts)).2 := by
  have trimmed : Text.trim parts.subject.text = parts.subject.text := by
    cases shaped with
    | shape lead part typed trail =>
        exact Text.trim_eq_self fun char member => (part.solid char member).1
  have keyword := Term.reference_eq_keyword_iff session.graph.config parts.subject.text
  rw [trimmed] at keyword
  simp only [Graph.describe_eq_error_iff, ne_eq, Description.read_eq_ok_iff_of_shaped shaped,
    Description.resolves_iff, ← keyword]
  constructor
  · intro unresolved
    cases named : Term.reference session.graph.config parts.subject.text with
    | error reason => exact .inl ⟨reason, rfl⟩
    | ok subject =>
        by_cases same : subject = Term.keyword
        · exact .inr (.inl (congrArg _ same))
        · have untyped (terms : List Term) :
              ¬List.Forall₂ (Description.IsType session.graph.config) parts.typeTexts terms :=
            fun types => unresolved ⟨subject, terms⟩ ⟨⟨named, same⟩, types⟩
          obtain ⟨reason, member⟩ := Graph.exists_failed untyped session.graph.size
          refine .inr (.inr ⟨subject, reason, rfl, ?_⟩)
          rw [run_building]
          exact List.mem_cons_of_mem _ member
  · rintro refused description ⟨⟨named, other⟩, types⟩
    rw [named] at refused
    rcases refused with ⟨reason, failed⟩ | same | ⟨subject, reason, found, member⟩
    · cases failed
    · exact other (Except.ok.inj same)
    · rw [run_building, (Graph.types_of_forall₂ types session.graph.size).2] at member
      simp at member

/-- A text describes a node exactly where it is read as a description, and then describing the
node is adding it with its subject and adding its types one by one in the order of the text:
every step of that succeeds, and all that comes later is the same. Where a text has the shape
of a description and is refused all the same, its subject is refused or is the keyword, or one
of those steps fails. -/
theorem describe_is_building (session : Session) (text : Text) :
    ((∃ next, session.graph.describe text = .ok next) ↔
      ∃ description, Description.read session.graph.config text = .ok description) ∧
    (∀ description, Description.read session.graph.config text = .ok description →
      ∃ parts, Description.Shaped text parts ∧ ∀ later, ∃ last answers,
        session.run (.describe text :: later) = (last, .node session.graph.size :: answers) ∧
        session.run (session.building description.subject parts.typeTexts ++ later) =
          (last, List.replicate (parts.typeTexts.length + 1) (.node session.graph.size) ++
            answers)) ∧
    (∀ parts, Description.Shaped text parts →
      ((∃ reason, session.graph.describe text = .error reason) ↔
        (∃ reason, Term.reference session.graph.config parts.subject.text = .error reason) ∨
          parts.subject.text = Term.keyword.text ∨
          ∃ subject reason,
            Term.reference session.graph.config parts.subject.text = .ok subject ∧
              Answer.failed reason ∈
                (session.run (session.building subject parts.typeTexts)).2)) := by
  refine ⟨?_, fun description read => ?_, fun parts shaped => describe_fails_iff shaped⟩
  · rw [Graph.describe_eq]
    cases Description.read session.graph.config text <;> simp
  · obtain ⟨parts, shaped⟩ : ∃ parts, Description.Shaped text parts := by
      cases found : Description.shape text with
      | error offset =>
          rw [Description.read, found] at read
          cases read
      | ok parts => exact ⟨parts, (Description.shape_eq_ok_iff text parts).mp found⟩
    have resolves := (Description.read_eq_ok_iff_of_shaped shaped description).mp read
    let described := session.withGraph (session.graph.add
      { subject := description.subject, types := description.types }).1
    refine ⟨parts, shaped, fun later => ⟨(described.run later).1, (described.run later).2, ?_, ?_⟩⟩
    · rw [run_cons, perform_describe_of_read read]
    · rw [run_append, run_building_of_resolves resolves]

/-- A session whose graph has a node already. -/
def opened : Session := ((fresh .standard).run [.addNode ⟨"?x".toList⟩]).1

/-- A description with two types, and a text like it in which the second is a blank node. -/
def typed : Text := " _:b a\tex:T ,\n?t ".toList

def mistyped : Text := "?s a ex:T, _:c".toList

theorem describe_is_building_typed :
    (∃ description parts, Description.read opened.graph.config typed = .ok description ∧
      Description.Shaped typed parts ∧ ∀ later, ∃ last answers,
        opened.run (.describe typed :: later) = (last, .node opened.graph.size :: answers) ∧
        opened.run (opened.building description.subject parts.typeTexts ++ later) =
          (last, List.replicate (parts.typeTexts.length + 1) (.node opened.graph.size) ++
            answers)) ∧
    (∃ parts, Description.Shaped mistyped parts ∧
      ((∃ reason, opened.graph.describe mistyped = .error reason) ↔
        (∃ reason, Term.reference opened.graph.config parts.subject.text = .error reason) ∨
          parts.subject.text = Term.keyword.text ∨
          ∃ subject reason,
            Term.reference opened.graph.config parts.subject.text = .ok subject ∧
              Answer.failed reason ∈
                (opened.run (opened.building subject parts.typeTexts)).2)) := by
  have read : Description.read opened.graph.config typed =
      .ok ⟨⟨"_:b".toList⟩, [⟨"ex:T".toList⟩, ⟨"?t".toList⟩]⟩ := by decide +kernel
  have shaped : Description.shape mistyped =
      .ok ⟨⟨0, "?s".toList⟩, [⟨5, "ex:T".toList⟩, ⟨11, "_:c".toList⟩]⟩ := by decide +kernel
  have shaped := (Description.shape_eq_ok_iff _ _).mp shaped
  obtain ⟨parts, same, alike⟩ := (describe_is_building opened typed).2.1 _ read
  exact ⟨⟨_, parts, read, same, alike⟩,
    ⟨_, shaped, (describe_is_building opened mistyped).2.2 _ shaped⟩⟩

end Session

end SparqlText
