/-
# Graphs of the same shape

What is written from a node depends on the nodes that links lead to and on nothing else:
not on the numbers that they have, and not on the other nodes of the graph. Where the nodes
that are reached in one graph have counterparts in another, linked as they are, the two
walks go through the same steps, and both come to the same text.
-/

import Mathlib.Data.Set.Function
import SparqlText.Proofs.Graph.Flatten

namespace SparqlText

/-! ## Renumbered nodes -/

/-- Something held, a node under its new number. -/
def Held.renumbered (number : NodeId → NodeId) : Held → Held
  | .term shown => .term shown
  | .node id => .node (number id)

/-- A group with its nodes under new numbers. -/
def Group.renumbered (number : NodeId → NodeId) (group : Group) : Group :=
  { group with held := group.held.map (Held.renumbered number) }

/-- A node with its links to nodes under new numbers. -/
def Node.renumbered (number : NodeId → NodeId) (node : Node) : Node :=
  { node with groups := node.groups.map (Group.renumbered number) }

theorem Node.links_renumbered (number : NodeId → NodeId) (node : Node) :
    (node.renumbered number).links = node.links.map number := by
  have each : linked? ∘ Held.renumbered number = fun held => (linked? held).map number := by
    funext held
    cases held <;> rfl
  simp only [links, renumbered, Group.renumbered, List.flatMap_map, List.filterMap_map,
    List.map_flatMap, List.map_filterMap, each]

namespace Graph

/-- The nodes that links lead to from a node, that node included. -/
def reached (graph : Graph) (root : NodeId) : Set NodeId :=
  {id | Relation.ReflTransGen graph.Links root id}

/-- The nodes of a part of a graph that no link leaves have counterparts in another graph,
each under its new number and no two under the same one. -/
structure Embeds (graph other : Graph) (part : Set NodeId) (number : NodeId → NodeId) :
    Prop where
  /-- No link leaves the part. -/
  closed : ∀ source ∈ part, ∀ target, graph.Links source target → target ∈ part
  injective : Set.InjOn number part
  /-- A counterpart has the subject, the types and the properties of its node. -/
  same : ∀ id ∈ part, ∃ node, graph.nodes[id]? = some node ∧
    other.nodes[number id]? = some (node.renumbered number)

namespace Embeds

variable {graph other : Graph} {part : Set NodeId} {number : NodeId → NodeId}

/-! ## Walks -/

/-- A counterpart has been visited where its node has. -/
theorem mem_map_iff (embeds : graph.Embeds other part number) {visited : List NodeId}
    (inside : ∀ id ∈ visited, id ∈ part) {id : NodeId} (member : id ∈ part) :
    number id ∈ visited.map number ↔ id ∈ visited := by
  constructor
  · intro among
    obtain ⟨before, earlier, equal⟩ := List.mem_map.mp among
    exact embeds.injective (inside before earlier) member equal ▸ earlier
  · exact List.mem_map_of_mem

/-- A walk from counterparts visits the counterparts of what the walk visits. -/
theorem walk?_eq (embeds : graph.Embeds other part number) (visited roots : List NodeId) :
    (∀ id ∈ visited, id ∈ part) → (∀ root ∈ roots, root ∈ part) →
      other.walk? (visited.map number) (roots.map number) =
        (graph.walk? visited roots).map (List.map number) := by
  induction visited, roots using walk?.induct graph with
  | case1 visited =>
      intro _ _
      rw [List.map_nil, walk?_nil, walk?_nil]
      rfl
  | case2 visited id rest member ih =>
      intro inside rooted
      have again : number id ∈ visited.map number := List.mem_map_of_mem member
      rw [List.map_cons, walk?_cons_of_mem again, walk?_cons_of_mem member]
      exact ih inside fun root among => rooted root (List.mem_cons_of_mem _ among)
  | case3 visited id rest unseen missing =>
      intro _ rooted
      obtain ⟨node, found, _⟩ := embeds.same id (rooted id List.mem_cons_self)
      rw [found] at missing
      cases missing
  | case4 visited id rest unseen node found ih =>
      intro inside rooted
      have member : id ∈ part := rooted id List.mem_cons_self
      have fresh : number id ∉ visited.map number :=
        mt (embeds.mem_map_iff inside member).mp unseen
      have counterpart : other.nodes[number id]? = some (node.renumbered number) := by
        obtain ⟨_, present, renumbered⟩ := embeds.same id member
        rw [found, Option.some.injEq] at present
        exact present ▸ renumbered
      have entered : ∀ before ∈ id :: visited, before ∈ part :=
        List.forall_mem_cons.mpr ⟨member, inside⟩
      have linked : ∀ root ∈ node.links ++ rest, root ∈ part := by
        intro root among
        rcases List.mem_append.mp among with behind | among
        · exact embeds.closed id member root ((links_iff found root).mpr behind)
        · exact rooted root (List.mem_cons_of_mem _ among)
      have later := ih entered linked
      rw [List.map_cons, List.map_append, ← Node.links_renumbered] at later
      rw [List.map_cons, walk?_cons_of_not_mem fresh counterpart, later,
        walk?_cons_of_not_mem unseen found, Option.map_map, Option.map_map]
      rfl

/-! ## Blocks -/

theorem objectText_eq (embeds : graph.Embeds other part number) {held : Held}
    (inside : ∀ id, held = .node id → id ∈ part) :
    other.objectText (held.renumbered number) = graph.objectText held := by
  cases held with
  | term shown => rfl
  | node id =>
      obtain ⟨node, found, counterpart⟩ := embeds.same id (inside id rfl)
      simp only [Held.renumbered, objectText, subject?, found, counterpart, Option.map_some]
      rfl

/-- A counterpart has the pairs of its node. -/
theorem pairs_eq (embeds : graph.Embeds other part number) {id : NodeId} (member : id ∈ part)
    {node : Node} (found : graph.nodes[id]? = some node) :
    other.pairs (node.renumbered number) = graph.pairs node := by
  have grouped : ∀ group ∈ node.groups,
      other.groupPairs (group.renumbered number) = graph.groupPairs group := by
    intro group among
    rw [groupPairs, groupPairs, Group.renumbered, List.map_map]
    apply List.map_congr_left
    intro held holds
    have inside : ∀ target, held = .node target → target ∈ part := by
      rintro target rfl
      exact embeds.closed id member target ⟨node, found, group, among, holds⟩
    rw [Function.comp_apply, embeds.objectText_eq inside]
  rw [pairs, pairs, Node.renumbered, List.flatMap_map, List.flatMap_congr grouped]

/-- A counterpart has the block of its node, where the two graphs indent alike. -/
theorem blockAt?_eq (embeds : graph.Embeds other part number)
    (indented : graph.config.indent = other.config.indent) {id : NodeId} (member : id ∈ part) :
    other.blockAt? (number id) = graph.blockAt? id := by
  obtain ⟨node, found, counterpart⟩ := embeds.same id member
  have indentation : other.config.indentation? = graph.config.indentation? := by
    rw [RenderConfig.indentation?, RenderConfig.indentation?, indented]
  rw [blockAt?, blockAt?, found, counterpart, Option.bind_some, Option.bind_some, block?,
    block?, embeds.pairs_eq member found, Pattern.block?, Pattern.block?, indentation]
  rfl

theorem blocks?_eq (embeds : graph.Embeds other part number)
    (indented : graph.config.indent = other.config.indent) {ids : List NodeId}
    (inside : ∀ id ∈ ids, id ∈ part) :
    other.blocks? (ids.map number) = graph.blocks? ids := by
  have each : (ids.map number).mapM other.blockAt? = ids.mapM graph.blockAt? := by
    induction ids with
    | nil => rfl
    | cons id rest ih =>
        have first := embeds.blockAt?_eq indented (inside id List.mem_cons_self)
        have later := ih fun other among => inside other (List.mem_cons_of_mem _ among)
        rw [List.map_cons, List.mapM_cons, List.mapM_cons, first, later]
  rw [blocks?, blocks?, each]

end Embeds

/-- What a node reaches has counterparts in another graph where each node of it has one. -/
theorem embeds_reached {graph other : Graph} {root : NodeId} {number : NodeId → NodeId}
    (injective : Set.InjOn number (graph.reached root))
    (same : ∀ id ∈ graph.reached root, ∃ node, graph.nodes[id]? = some node ∧
      other.nodes[number id]? = some (node.renumbered number)) :
    graph.Embeds other (graph.reached root) number where
  closed _ path _ link := path.tail link
  injective := injective
  same := same

/-- Flattening depends on the shape of a graph alone. Where no two of the nodes that `root`
reaches have one counterpart in another graph, and a counterpart has the subject, the types
and the properties of its node, with links to the counterparts of the nodes that it links to,
the same text is written from `root` and from its counterpart. There is one wherever the
indent can be written. -/
theorem flatten?_of_same_shape {graph other : Graph} (built : graph.IsBuilt)
    (indented : graph.config.indent = other.config.indent) {root : NodeId}
    {number : NodeId → NodeId} (injective : Set.InjOn number (graph.reached root))
    (same : ∀ id ∈ graph.reached root, ∃ node, graph.nodes[id]? = some node ∧
      other.nodes[number id]? = some (node.renumbered number)) :
    other.flatten? (number root) = graph.flatten? root ∧
      (graph.config.indentation?.isSome = true → (graph.flatten? root).isSome = true) := by
  have embeds := embeds_reached injective same
  have rooted : root ∈ graph.reached root := Relation.ReflTransGen.refl
  obtain ⟨node, found, _⟩ := same root rooted
  have within : root < graph.size := (List.getElem?_eq_some_iff.mp found).1
  obtain ⟨ids, walked⟩ := exists_walked built.wellFormed.links_lt [] [root] (by simpa using within)
  have inside : ∀ id ∈ ids, id ∈ graph.reached root :=
    fun id among => (walked.mem_iff_reach id).mp among
  have walk : other.walk? [] [number root] = some (ids.map number) := by
    have stepwise := embeds.walk?_eq [] [root] (by simp) (by simpa using rooted)
    rwa [walked.walk?_eq] at stepwise
  constructor
  · rw [flatten?, flatten?, blocksFrom?, blocksFrom?, walk, walked.walk?_eq, Option.bind_some,
      Option.bind_some, embeds.blocks?_eq indented inside]
  · exact fun writable => built.wellFormed.flatten?_isSome writable within

/-- Two nodes that link to each other, the first of them with a type. -/
def linkedPair (first second : NodeId) : List Step :=
  [.edit first (.link ['p'] second), .edit second (.link ['q'] first),
    .edit second (.property ['r'] (.boolean true)), .edit first (.type ['?', 't'])]

/-- The two nodes and no other. -/
def pairAlone : Graph :=
  ((Session.fresh .standard).run
    ([.addNode ⟨['?', 'x']⟩, .addNode ⟨['?', 'y']⟩] ++ linkedPair 0 1)).1.graph

/-- The two nodes in the other order, behind a node that links to the first of them, under
another configuration. -/
def pairBehind : Graph :=
  ((Session.fresh { strictNulls := true }).run
    ([.addNode ⟨['?', 'z']⟩, .addNode ⟨['?', 'y']⟩, .addNode ⟨['?', 'x']⟩,
      .edit 0 (.link ['p'] 2)] ++ linkedPair 2 1)).1.graph

theorem flatten?_of_same_shape_pair :
    pairAlone.IsBuilt ∧ pairAlone.config.indent = pairBehind.config.indent ∧
      Set.InjOn (fun id => 2 - id) (pairAlone.reached 0) ∧
      (∀ id ∈ pairAlone.reached 0, ∃ node, pairAlone.nodes[id]? = some node ∧
        pairBehind.nodes[2 - id]? = some (node.renumbered fun id => 2 - id)) ∧
      pairBehind.flatten? 2 = pairAlone.flatten? 0 ∧
      (pairAlone.config.indentation?.isSome = true →
        (pairAlone.flatten? 0).isSome = true) := by
  have built : pairAlone.IsBuilt := ⟨_, _, rfl⟩
  have indented : pairAlone.config.indent = pairBehind.config.indent := rfl
  have two (id : NodeId) (path : id ∈ pairAlone.reached 0) : id = 0 ∨ id = 1 := by
    have within : id < 2 := by
      cases path with
      | refl => decide
      | tail _ link => exact built.wellFormed.links_lt _ _ link
    match id, within with
    | 0, _ => exact .inl rfl
    | 1, _ => exact .inr rfl
  have injective : Set.InjOn (fun id => 2 - id) (pairAlone.reached 0) := by
    intro first left second right equal
    rcases two first left with rfl | rfl <;> rcases two second right with rfl | rfl
    · rfl
    · cases equal
    · cases equal
    · rfl
  have same : ∀ id ∈ pairAlone.reached 0, ∃ node, pairAlone.nodes[id]? = some node ∧
      pairBehind.nodes[2 - id]? = some (node.renumbered fun id => 2 - id) := by
    intro id path
    rcases two id path with rfl | rfl
    · exact ⟨_, rfl, by decide⟩
    · exact ⟨_, rfl, by decide⟩
  exact ⟨built, indented, injective, same, flatten?_of_same_shape built indented injective same⟩

end Graph

end SparqlText
