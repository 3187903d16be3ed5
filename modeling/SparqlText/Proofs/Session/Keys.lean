/-
# Adding under a stored predicate again

The predicates that a graph stores were all resolved from the keys that callers gave
(`Keyed`), under the one configuration that the graph has. Where no allowed scheme shadows a
variable or a name in the default namespace, a resolved term is resolved from its own text
again, and so the text of a stored predicate is a key of that predicate: what is added under
it goes into the group that is there.
-/

import SparqlText.Proofs.Graph.Expansion
import SparqlText.Proofs.Term.Keys

namespace SparqlText

/-! ## Extending a group -/

/-- A group that holds more, if it is the one under a predicate. -/
def Group.extend (predicate : Term) (held : List Held) (group : Group) : Group :=
  if group.predicate = predicate then { group with held := group.held ++ held } else group

namespace Node

/-- A node whose group under a predicate holds more. Its other groups, and their order, stay
as they are. -/
def extend (predicate : Term) (held : List Held) (node : Node) : Node :=
  { node with groups := node.groups.map (Group.extend predicate held) }

/-- What is added under a predicate that has a group goes into that group alone. -/
theorem accumulate_eq_map {groups : List Group} {group : Group} (member : group ∈ groups)
    (distinct : (groups.map Group.predicate).Nodup) (held : List Held) :
    accumulate group.predicate held groups = groups.map (Group.extend group.predicate held) := by
  induction groups with
  | nil => cases member
  | cons first rest ih =>
      rw [List.map_cons, List.nodup_cons] at distinct
      rw [accumulate, List.map_cons, Group.extend]
      by_cases same : first.predicate = group.predicate
      · -- The group is found, and no later one has its predicate.
        have others : ∀ other ∈ rest, Group.extend group.predicate held other = other := by
          intro other among
          apply if_neg
          intro equal
          have twin : other.predicate = first.predicate := equal.trans same.symm
          exact distinct.1 (twin ▸ List.mem_map_of_mem among)
        have kept := (List.map_congr_left others).trans (List.map_id' rest)
        rw [if_pos same, if_pos same, kept]
      · have later : group ∈ rest :=
          (List.mem_cons.mp member).resolve_left fun equal => same (congrArg _ equal.symm)
        rw [if_neg same, if_neg same, ih later distinct.2]

theorem withHeld_eq_extend {size : Nat} {node : Node} (formed : node.WellFormed size)
    {group : Group} (member : group ∈ node.groups) (held : List Held) :
    node.withHeld group.predicate held = node.extend group.predicate held := by
  rw [withHeld, extend, accumulate_eq_map member formed.distinct]

end Node

namespace Graph

variable {graph : Graph} {id : NodeId} {node : Node} {group : Group}

/-- A property under a stored predicate fails only as its value does, and otherwise extends
the predicate's group. -/
theorem edit_property_stored (formed : graph.WellFormed) (found : graph.nodes[id]? = some node)
    (member : group ∈ node.groups)
    (resolved : Term.predicate graph.config group.predicate.text = .ok group.predicate)
    (value : Value) :
    graph.edit id (.property group.predicate.text value) =
      (heldTerms graph.config value).map fun held =>
        graph.put id (node.extend group.predicate held) := by
  have present : graph.contains id = true :=
    decide_eq_true (List.getElem?_eq_some_iff.mp found).1
  have sound := formed node (List.mem_of_getElem? found)
  rw [edit_eq, if_pos present, update, resolved]
  cases heldTerms graph.config value with
  | error reason => rfl
  | ok held =>
      show Except.ok (graph.change id _) = Except.ok _
      rw [change_eq_put found, Node.withHeld_eq_extend sound member]

/-- A link under a stored predicate to a node of the graph extends the predicate's group. -/
theorem edit_link_stored (formed : graph.WellFormed) (found : graph.nodes[id]? = some node)
    (member : group ∈ node.groups)
    (resolved : Term.predicate graph.config group.predicate.text = .ok group.predicate)
    {target : NodeId} (issued : graph.contains target = true) :
    graph.edit id (.link group.predicate.text target) =
      .ok (graph.put id (node.extend group.predicate [.node target])) := by
  have present : graph.contains id = true :=
    decide_eq_true (List.getElem?_eq_some_iff.mp found).1
  have sound := formed node (List.mem_of_getElem? found)
  rw [edit_eq, if_pos present, update, if_pos issued, resolved]
  show Except.ok (graph.change id _) = Except.ok _
  rw [change_eq_put found, Node.withHeld_eq_extend sound member]

/-! ## Stored predicates -/

/-- Every stored predicate was resolved from a key. -/
def Keyed (graph : Graph) : Prop :=
  ∀ node ∈ graph.nodes, ∀ group ∈ node.groups,
    ∃ key, Term.predicate graph.config key = .ok group.predicate

/-- An edit stores no predicate but the one that its key is resolved to. -/
theorem Makes.keyed {edit : Edit} {update : Node → Node} (makes : graph.Makes edit update)
    (keyed : ∀ group ∈ node.groups, ∃ key, Term.predicate graph.config key = .ok group.predicate) :
    ∀ group ∈ (update node).groups,
      ∃ key, Term.predicate graph.config key = .ok group.predicate := by
  have accumulated {predicate : Term} {key : Text} (held : List Held)
      (resolved : Term.predicate graph.config key = .ok predicate) :
      ∀ group ∈ Node.accumulate predicate held node.groups,
        ∃ key, Term.predicate graph.config key = .ok group.predicate := by
    intro group member
    rcases Node.mem_accumulate member with old | rfl | ⟨earlier, present, rfl⟩
    · exact keyed group old
    · exact ⟨key, resolved⟩
    · exact keyed earlier present
  cases makes with
  | type _ => exact keyed
  | property resolved _ => exact accumulated _ resolved
  | link _ resolved => exact accumulated _ resolved

end Graph

namespace Session

theorem Effect.keyed {session : Session} {step : Step} {next : Graph} {answer : Answer}
    (effect : Effect session step next answer) (keyed : session.graph.Keyed) : next.Keyed := by
  have settled := effect.config_eq
  intro node member
  rw [settled]
  cases effect with
  | same answer creates => exact keyed node member
  | add added bare creates =>
      cases List.mem_append.mp member with
      | inl old => exact keyed node old
      | inr new =>
          rw [List.mem_singleton.mp new, bare]
          exact fun _ none => absurd none List.not_mem_nil
  | edit id edit edited creates =>
      obtain ⟨_, update, updated, rfl⟩ := Graph.edit_eq_ok edited
      rcases Graph.mem_change member with old | ⟨before, old, rfl⟩
      · exact keyed node old
      · exact (Graph.makes_of_update updated).keyed (keyed before old)
  | adopt relationship creates => exact keyed node member

theorem keyed_run (session : Session) (steps : List Step) (keyed : session.graph.Keyed) :
    (session.run steps).1.graph.Keyed := by
  induction steps generalizing session with
  | nil => exact keyed
  | cons step rest ih =>
      rw [run_cons]
      exact ih _ ((effect_perform session step).keyed keyed)

/-! ## Resolving again -/

theorem allows_eq_false_of_apart {config : RenderConfig} {mark : Char}
    (apart : ∀ scheme ∈ config.allowedSchemes, scheme ≠ [] ∧ scheme.head? ≠ some mark)
    (rest : Text) : config.allows (mark :: rest) = false := by
  apply Bool.eq_false_iff.mpr
  intro allowed
  obtain ⟨scheme, among, lead⟩ := List.any_eq_true.mp allowed
  obtain ⟨nonempty, other⟩ := apart scheme among
  obtain ⟨behind, whole⟩ := List.isPrefixOf_iff_prefix.mp lead
  cases scheme with
  | nil => exact nonempty rfl
  | cons first later =>
      cases whole
      exact other rfl

/-- Where no allowed scheme is empty or begins like a variable or like a name in the default
namespace, the text of a term that was resolved, as a reference or as a key, is resolved to
that term again. So whatever a run has stored under a predicate, a property or a link that is
added to the node under the text of that predicate is held behind it in the same group; it
fails only as its value does, or for want of its target. -/
theorem resolved_again (config : RenderConfig)
    (apart : ∀ scheme ∈ config.allowedSchemes,
      scheme ≠ [] ∧ scheme.head? ≠ some ':' ∧ scheme.head? ≠ some '?') :
    (∀ given term, Term.reference config given = .ok term →
      Term.reference config term.text = .ok term) ∧
    (∀ given term, Term.predicate config given = .ok term →
      Term.predicate config term.text = .ok term) ∧
    ∀ steps id node group,
      let graph := ((fresh config).run steps).1.graph
      graph.nodes[id]? = some node → group ∈ node.groups →
        (∀ value, graph.edit id (.property group.predicate.text value) =
          (Graph.heldTerms config value).map fun held =>
            graph.put id (node.extend group.predicate held)) ∧
        (∀ target, graph.contains target = true →
          graph.edit id (.link group.predicate.text target) =
            .ok (graph.put id (node.extend group.predicate [.node target]))) := by
  have variable_apart := allows_eq_false_of_apart fun scheme among =>
    ⟨(apart scheme among).1, (apart scheme among).2.2⟩
  have default_apart := allows_eq_false_of_apart fun scheme among =>
    ⟨(apart scheme among).1, (apart scheme among).2.1⟩
  refine ⟨fun given term => Term.reference_text variable_apart,
    fun given term => Term.predicate_text variable_apart default_apart, ?_⟩
  intro steps id node group graph found member
  have settled : graph.config = config := config_run_fresh config steps
  have formed : graph.WellFormed := wellFormed_run_fresh config steps
  have keyed : graph.Keyed := keyed_run (fresh config) steps nofun
  obtain ⟨key, resolved⟩ := keyed node (List.mem_of_getElem? found) group member
  have again : Term.predicate graph.config group.predicate.text = .ok group.predicate := by
    rw [settled] at resolved ⊢
    exact Term.predicate_text variable_apart default_apart resolved
  constructor
  · intro value
    rw [Graph.edit_property_stored formed found member again, settled]
  · intro target issued
    exact Graph.edit_link_stored formed found member again issued

/-- A scheme that takes some prefixed names for absolute references. -/
def shadowing : RenderConfig := { allowedSchemes := ["ex".toList] }

/-- A node with a property under a name in the default namespace, and one under a key that is
shadowed. -/
def keyedTwice : List Step :=
  [.addNode ⟨['?', 'x']⟩, .edit 0 (.property "p".toList (.boolean true)),
    .edit 0 (.property "ex:p".toList (.boolean true))]

theorem resolved_again_shadowing :
    let graph := ((fresh shadowing).run keyedTwice).1.graph
    let node : Node := { subject := ⟨['?', 'x']⟩, groups :=
      [⟨⟨":p".toList⟩, [.term (.boolean true)]⟩, ⟨⟨"<ex:p>".toList⟩, [.term (.boolean true)]⟩] }
    (∀ scheme ∈ shadowing.allowedSchemes,
        scheme ≠ [] ∧ scheme.head? ≠ some ':' ∧ scheme.head? ≠ some '?') ∧
      Term.reference shadowing "ex:p".toList = .ok ⟨"<ex:p>".toList⟩ ∧
      Term.reference shadowing "<ex:p>".toList = .ok ⟨"<ex:p>".toList⟩ ∧
      Term.predicate shadowing "p".toList = .ok ⟨":p".toList⟩ ∧
      Term.predicate shadowing ":p".toList = .ok ⟨":p".toList⟩ ∧
      graph.nodes[0]? = some node ∧
      graph.edit 0 (.property "<ex:p>".toList (.boolean false)) =
        (Graph.heldTerms shadowing (.boolean false)).map fun held =>
          graph.put 0 (node.extend ⟨"<ex:p>".toList⟩ held) := by
  intro graph node
  have apart : ∀ scheme ∈ shadowing.allowedSchemes,
      scheme ≠ [] ∧ scheme.head? ≠ some ':' ∧ scheme.head? ≠ some '?' := by decide
  have absolute : Term.reference shadowing "ex:p".toList = .ok ⟨"<ex:p>".toList⟩ := by decide
  have bare : Term.predicate shadowing "p".toList = .ok ⟨":p".toList⟩ := by decide
  have found : graph.nodes[0]? = some node := by decide +kernel
  obtain ⟨references, keys, stored⟩ := resolved_again shadowing apart
  have again := stored keyedTwice 0 node ⟨⟨"<ex:p>".toList⟩, [.term (.boolean true)]⟩ found
    (List.mem_cons_of_mem _ List.mem_cons_self)
  exact ⟨apart, absolute, references _ _ absolute, bare, keys _ _ bare, found,
    again.1 (.boolean false)⟩

end Session

end SparqlText
