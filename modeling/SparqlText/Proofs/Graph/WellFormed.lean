/-
# Well-formed graphs

A graph is well formed where every link points at a node that the graph has issued,
no node has two groups under one predicate, and no group is empty. A new node, an
edit and a new statement keep a graph well formed, and none of them changes the
subject of a node that is already there.

What an edit can do is said once, in `Makes`; nothing else takes an edit apart to see
what it makes of a node.
-/

import Mathlib.Data.List.Nodup
import SparqlText.Proofs.Graph.Operations

namespace SparqlText

/-! ## Nodes -/

namespace Node

/-- What holds of every node of a graph that has issued `size` numbers. -/
structure WellFormed (size : Nat) (node : Node) : Prop where
  /-- Every link points at an issued number. -/
  issued : ∀ group ∈ node.groups, ∀ target, Held.node target ∈ group.held → target < size
  /-- A predicate has one group. -/
  distinct : (node.groups.map Group.predicate).Nodup
  /-- A group holds something. -/
  occupied : ∀ group ∈ node.groups, group.held ≠ []

/-- More numbers do not hurt. -/
theorem WellFormed.mono {size larger : Nat} {node : Node} (formed : node.WellFormed size)
    (within : size ≤ larger) : node.WellFormed larger where
  issued group member target held :=
    Nat.lt_of_lt_of_le (formed.issued group member target held) within
  distinct := formed.distinct
  occupied := formed.occupied

/-- A node without properties is well formed in any graph. -/
theorem wellFormed_of_groups_eq_nil {size : Nat} {node : Node} (bare : node.groups = []) :
    node.WellFormed size := by
  constructor <;> simp [bare]

/-- Accumulation leaves a group alone, extends it, or begins a new one. -/
theorem mem_accumulate {predicate : Term} {held : List Held} {groups : List Group}
    {group : Group} (member : group ∈ accumulate predicate held groups) :
    group ∈ groups ∨ group = ⟨predicate, held⟩ ∨
      ∃ earlier ∈ groups, group = { earlier with held := earlier.held ++ held } := by
  induction groups with
  | nil =>
      simp only [accumulate, List.mem_singleton] at member
      exact Or.inr (Or.inl member)
  | cons first rest ih =>
      rw [accumulate] at member
      split at member
      · rcases List.mem_cons.mp member with rfl | later
        · exact Or.inr (Or.inr ⟨first, List.mem_cons_self, rfl⟩)
        · exact Or.inl (List.mem_cons_of_mem _ later)
      · rcases List.mem_cons.mp member with rfl | later
        · exact Or.inl List.mem_cons_self
        · rcases ih later with old | fresh | ⟨earlier, among, extended⟩
          · exact Or.inl (List.mem_cons_of_mem _ old)
          · exact Or.inr (Or.inl fresh)
          · exact Or.inr (Or.inr ⟨earlier, List.mem_cons_of_mem _ among, extended⟩)

/-- The predicates keep their order, and a new one comes last. -/
theorem map_predicate_accumulate (predicate : Term) (held : List Held)
    (groups : List Group) :
    (accumulate predicate held groups).map Group.predicate =
      if predicate ∈ groups.map Group.predicate then groups.map Group.predicate
      else groups.map Group.predicate ++ [predicate] := by
  induction groups with
  | nil => simp [accumulate]
  | cons first rest ih =>
      rw [accumulate]
      by_cases same : first.predicate = predicate
      · simp [same]
      · have differ : predicate ≠ first.predicate := fun equal => same equal.symm
        rw [if_neg same, List.map_cons, ih]
        by_cases among : predicate ∈ rest.map Group.predicate
        · simp [among]
        · simp [among, differ]

/-- A further type touches no property. -/
theorem WellFormed.withType {size : Nat} {node : Node} (formed : node.WellFormed size)
    (type : Term) : (node.withType type).WellFormed size :=
  ⟨formed.issued, formed.distinct, formed.occupied⟩

/-- A node stays well formed with more under a predicate, as long as it is something
and links to issued numbers only. -/
theorem WellFormed.withHeld {size : Nat} {node : Node} (formed : node.WellFormed size)
    (predicate : Term) {held : List Held} (nonempty : held ≠ [])
    (issued : ∀ target, Held.node target ∈ held → target < size) :
    (node.withHeld predicate held).WellFormed size where
  issued group member target among := by
    rcases mem_accumulate member with old | rfl | ⟨earlier, present, rfl⟩
    · exact formed.issued group old target among
    · exact issued target among
    · rcases List.mem_append.mp among with before | added
      · exact formed.issued earlier present target before
      · exact issued target added
  distinct := by
    rw [Node.withHeld, map_predicate_accumulate]
    split
    · exact formed.distinct
    · rename_i fresh
      rw [List.nodup_append_comm]
      exact List.nodup_cons.mpr ⟨fresh, formed.distinct⟩
  occupied group member := by
    rcases mem_accumulate member with old | rfl | ⟨earlier, present, rfl⟩
    · exact formed.occupied group old
    · exact nonempty
    · exact fun empty => nonempty (List.append_eq_nil_iff.mp empty).2

end Node

/-! ## What an edit can do -/

namespace Graph

theorem elements_ne_nil (value : Value) : value.elements ≠ [] := by
  unfold Value.elements
  split <;> simp

theorem length_convertedValues {config : RenderConfig} {values : List Value}
    {terms : List Term} (converted : Pattern.convertedValues config values = .ok terms) :
    terms.length = values.length := by
  induction values generalizing terms with
  | nil =>
      simp only [Pattern.convertedValues, Except.ok.injEq] at converted
      simp [← converted]
  | cons value rest ih =>
      rw [Pattern.convertedValues] at converted
      split at converted
      · simp at converted
      · split at converted
        · simp at converted
        · rename_i later
          simp only [Except.ok.injEq] at converted
          subst converted
          simp [ih later]

/-- A value comes to one term at least. -/
theorem ne_nil_of_convertedValues {config : RenderConfig} {value : Value} {terms : List Term}
    (converted : Pattern.convertedValues config value.elements = .ok terms) : terms ≠ [] := by
  have count := length_convertedValues converted
  rintro rfl
  exact elements_ne_nil value (List.length_eq_zero_iff.mp count.symm)

/-- What an edit that succeeds makes of a node. Its texts are resolved and its values
converted, and a link is to a node of the graph. -/
inductive Makes (graph : Graph) : Edit → (Node → Node) → Prop
  | type {text : Text} {added : Term}
      (resolved : Description.typeTerm graph.config text = .ok added) :
      Makes graph (.type text) (Node.withType added)
  | property {text : Text} {value : Value} {predicate : Term} {objects : List Term}
      (resolved : Term.predicate graph.config text = .ok predicate)
      (converted : Pattern.convertedValues graph.config value.elements = .ok objects) :
      Makes graph (.property text value) (Node.withHeld predicate (objects.map .term))
  | link {text : Text} {target : NodeId} {predicate : Term} (present : target < graph.size)
      (resolved : Term.predicate graph.config text = .ok predicate) :
      Makes graph (.link text target) (Node.withHeld predicate [.node target])

theorem makes_of_update {graph : Graph} {edit : Edit} {update : Node → Node}
    (updated : graph.update edit = .ok update) : graph.Makes edit update := by
  cases edit with
  | type text =>
      rw [Graph.update] at updated
      split at updated
      case h_1 => cases updated
      case h_2 added resolved =>
        cases updated
        exact .type resolved
  | property text value =>
      rw [Graph.update] at updated
      split at updated
      case h_1 => cases updated
      case h_2 predicate resolved =>
        rw [heldTerms] at updated
        cases converted : Pattern.convertedValues graph.config value.elements with
        | error reason =>
            rw [converted] at updated
            cases updated
        | ok objects =>
            rw [converted] at updated
            cases updated
            exact .property resolved converted
  | link text target =>
      rw [Graph.update] at updated
      split at updated
      case isFalse => cases updated
      case isTrue present =>
        split at updated
        case h_1 => cases updated
        case h_2 predicate resolved =>
          cases updated
          exact .link (of_decide_eq_true present) resolved

/-- An edit that succeeds changes a node that the graph has. -/
theorem edit_eq_ok {graph next : Graph} {id : NodeId} {edit : Edit}
    (edited : graph.edit id edit = .ok next) :
    id < graph.size ∧ ∃ update, graph.update edit = .ok update ∧
      next = graph.change id update := by
  rw [edit_eq] at edited
  split at edited
  · rename_i present
    split at edited
    · simp at edited
    · rename_i update updated
      simp only [Except.ok.injEq] at edited
      exact ⟨by simpa [contains] using present, update, updated, edited.symm⟩
  · simp at edited

/-! ## Graphs -/

/-- Every node of the graph is well formed among the numbers that it has issued. -/
def WellFormed (graph : Graph) : Prop := ∀ node ∈ graph.nodes, node.WellFormed graph.size

@[simp]
theorem size_add (graph : Graph) (node : Node) : (graph.add node).1.size = graph.size + 1 := by
  simp [add, size]

@[simp]
theorem size_change (graph : Graph) (id : NodeId) (update : Node → Node) :
    (graph.change id update).size = graph.size := by
  simp [change, size]

@[simp]
theorem size_addRelationship (graph : Graph) (relationship : Relationship) :
    (graph.addRelationship relationship).size = graph.size := rfl

/-- A graph has a node under every number that it has issued. -/
theorem exists_node_of_lt {graph : Graph} {id : NodeId} (within : id < graph.size) :
    ∃ node ∈ graph.nodes, graph.nodes[id]? = some node :=
  ⟨_, List.getElem_mem within, List.getElem?_eq_getElem within⟩

/-- A graph without nodes is well formed. -/
theorem wellFormed_of_nodes_eq_nil {graph : Graph} (bare : graph.nodes = []) :
    graph.WellFormed := by
  intro node member
  rw [bare] at member
  exact absurd member List.not_mem_nil

/-- A new node without properties keeps a graph well formed. -/
theorem WellFormed.add {graph : Graph} (formed : graph.WellFormed) {node : Node}
    (bare : node.groups = []) : (graph.add node).1.WellFormed := by
  intro other member
  rw [size_add]
  rcases List.mem_append.mp member with old | new
  · exact (formed other old).mono (Nat.le_succ _)
  · rw [List.mem_singleton.mp new]
    exact Node.wellFormed_of_groups_eq_nil bare

/-- A node of a changed graph is a node of the graph, or what the change makes of one. -/
theorem mem_change {graph : Graph} {id : NodeId} {update : Node → Node} {other : Node}
    (member : other ∈ (graph.change id update).nodes) :
    other ∈ graph.nodes ∨ ∃ node ∈ graph.nodes, other = update node := by
  obtain ⟨position, found⟩ := List.getElem?_of_mem member
  rw [change, List.getElem?_modify, Option.map_eq_map, Option.map_eq_some_iff] at found
  obtain ⟨node, before, same⟩ := found
  have among := List.mem_of_getElem? before
  split at same
  · exact Or.inr ⟨node, among, same.symm⟩
  · exact Or.inl (same ▸ among)

/-- An edit keeps a graph well formed. -/
theorem WellFormed.edit {graph next : Graph} (formed : graph.WellFormed) {id : NodeId}
    {edit : Edit} (edited : graph.edit id edit = .ok next) : next.WellFormed := by
  obtain ⟨_, update, updated, rfl⟩ := edit_eq_ok edited
  have keeps (node : Node) (sound : node.WellFormed graph.size) :
      (update node).WellFormed graph.size := by
    cases makes_of_update updated with
    | type _ => exact sound.withType _
    | property _ converted =>
        apply sound.withHeld _ (mt List.map_eq_nil_iff.mp (ne_nil_of_convertedValues converted))
        exact fun target among => by simp at among
    | link present _ =>
        apply sound.withHeld _ (List.cons_ne_nil _ _)
        intro target among
        cases List.mem_singleton.mp among
        exact present
  intro other member
  rw [size_change]
  rcases mem_change member with old | ⟨node, old, rfl⟩
  · exact formed other old
  · exact keeps node (formed node old)

/-! ## Subjects -/

/-- A graph has a subject for the numbers that it has issued, and for no others. -/
theorem subject?_isSome_iff (graph : Graph) (id : NodeId) :
    (graph.subject? id).isSome = true ↔ id < graph.size := by
  simp [subject?, size]

theorem subject?_eq_none_iff (graph : Graph) (id : NodeId) :
    graph.subject? id = none ↔ graph.size ≤ id := by
  simp [subject?, size]

/-- A new node has its subject under the next number. -/
theorem subject?_add_size (graph : Graph) (node : Node) :
    (graph.add node).1.subject? graph.size = some node.subject := by
  simp [subject?, add, size]

/-- A new node leaves the subjects of the others alone. -/
theorem subject?_add_of_lt {graph : Graph} {id : NodeId} (within : id < graph.size)
    (node : Node) : (graph.add node).1.subject? id = graph.subject? id := by
  simp only [subject?, add]
  rw [List.getElem?_append_left within]

/-- An edit changes no subject. -/
theorem subject?_edit {graph next : Graph} {id : NodeId} {edit : Edit}
    (edited : graph.edit id edit = .ok next) (other : NodeId) :
    next.subject? other = graph.subject? other := by
  obtain ⟨_, update, updated, rfl⟩ := edit_eq_ok edited
  have keeps (node : Node) : (update node).subject = node.subject := by
    cases makes_of_update updated <;> rfl
  simp only [subject?, change, List.getElem?_modify, Option.map_eq_map, Option.map_map]
  congr 1
  funext node
  by_cases same : id = other
  · simp [same, keeps]
  · simp [same]

end Graph

end SparqlText
