/-
# What a walk reaches

A node links to another where one of its properties holds it. A walk visits every
node once that can be reached by links from one of its roots without passing
through a node that was visited before, and it visits no other node. It has an
answer in every graph whose links point at nodes of the graph.

A walk is taken as a derivation, `Walked`, with one rule for each thing that a step
can do. The invariant is `Walked.closed`: what a visited node links to has been visited
before or is visited by the walk.
-/

import Mathlib.Logic.Relation
import SparqlText.Graph.Walk

namespace SparqlText.Graph

/-! ## Links -/

/-- A property of the node `source` holds the node `target`. -/
def Links (graph : Graph) (source target : NodeId) : Prop :=
  ∃ node, graph.nodes[source]? = some node ∧
    ∃ group ∈ node.groups, Held.node target ∈ group.held

/-- A link to a node that has not been visited. -/
def LinksOutside (graph : Graph) (visited : List NodeId) (source target : NodeId) : Prop :=
  graph.Links source target ∧ target ∉ visited

/-- Every link points at a node of the graph. -/
def Closed (graph : Graph) : Prop :=
  ∀ source target, graph.Links source target → target < graph.size

theorem mem_links_iff (node : Node) (target : NodeId) :
    target ∈ node.links ↔ ∃ group ∈ node.groups, Held.node target ∈ group.held := by
  have held (item : Held) : Node.linked? item = some target ↔ item = .node target := by
    cases item <;> simp [Node.linked?]
  simp only [Node.links, List.mem_flatMap, List.mem_filterMap, held, exists_eq_right]

theorem links_iff {graph : Graph} {source : NodeId} {node : Node}
    (found : graph.nodes[source]? = some node) (target : NodeId) :
    graph.Links source target ↔ target ∈ node.links := by
  rw [mem_links_iff, Links]
  constructor
  · rintro ⟨other, same, linked⟩
    rw [found, Option.some.injEq] at same
    exact same ▸ linked
  · exact fun linked => ⟨node, found, linked⟩

/-- Outside nothing is anywhere. -/
theorem linksOutside_nil (graph : Graph) : graph.LinksOutside [] = graph.Links := by
  funext source target
  simp [LinksOutside]

/-- A path that avoids more avoids less. -/
theorem reach_of_reach_cons {graph : Graph} {visited : List NodeId} {id source target : NodeId}
    (path : Relation.ReflTransGen (graph.LinksOutside (id :: visited)) source target) :
    Relation.ReflTransGen (graph.LinksOutside visited) source target := by
  induction path with
  | refl => exact .refl
  | tail _ link ih =>
      exact ih.tail ⟨link.1, fun seen => link.2 (List.mem_cons_of_mem _ seen)⟩

/-! ## One step of a walk -/

@[simp]
theorem walk?_nil (graph : Graph) (visited : List NodeId) :
    graph.walk? visited [] = some [] := by
  rw [walk?]

theorem walk?_cons_of_mem {graph : Graph} {visited : List NodeId} {id : NodeId}
    (seen : id ∈ visited) (rest : List NodeId) :
    graph.walk? visited (id :: rest) = graph.walk? visited rest := by
  rw [walk?, dif_pos seen]

theorem walk?_cons_of_not_mem {graph : Graph} {visited : List NodeId} {id : NodeId}
    {node : Node} (fresh : id ∉ visited) (found : graph.nodes[id]? = some node)
    (rest : List NodeId) :
    graph.walk? visited (id :: rest) =
      (graph.walk? (id :: visited) (node.links ++ rest)).map (id :: ·) := by
  rw [walk?, dif_neg fresh]
  split
  · rename_i missing
    rw [found] at missing
    exact absurd missing (by simp)
  · rename_i other same
    rw [found, Option.some.injEq] at same
    rw [same]

theorem walk?_cons_eq_none {graph : Graph} {visited : List NodeId} {id : NodeId}
    (fresh : id ∉ visited) (missing : graph.nodes[id]? = none) (rest : List NodeId) :
    graph.walk? visited (id :: rest) = none := by
  rw [walk?, dif_neg fresh]
  split
  · rfl
  · rename_i same
    rw [missing] at same
    exact absurd same (by simp)

/-! ## Walks as derivations -/

/-- The walk from `roots` past `visited` visits `ids`. -/
inductive Walked (graph : Graph) : (visited roots ids : List NodeId) → Prop
  | nil (visited : List NodeId) : Walked graph visited [] []
  /-- A node that has been visited is passed over. -/
  | seen {visited rest ids : List NodeId} {id : NodeId} (member : id ∈ visited)
      (later : Walked graph visited rest ids) : Walked graph visited (id :: rest) ids
  /-- Any other node is visited, and then its links before what is left. -/
  | fresh {visited rest ids : List NodeId} {id : NodeId} {node : Node}
      (unseen : id ∉ visited) (found : graph.nodes[id]? = some node)
      (later : Walked graph (id :: visited) (node.links ++ rest) ids) :
      Walked graph visited (id :: rest) (id :: ids)

/-- Every answer of a walk has a derivation. -/
theorem walked_of_walk? {graph : Graph} (visited roots : List NodeId) :
    ∀ {ids}, graph.walk? visited roots = some ids → graph.Walked visited roots ids := by
  induction visited, roots using walk?.induct graph with
  | case1 visited =>
      intro ids walked
      rw [walk?_nil, Option.some.injEq] at walked
      exact walked ▸ .nil visited
  | case2 visited id rest member ih =>
      intro ids walked
      rw [walk?_cons_of_mem member] at walked
      exact .seen member (ih walked)
  | case3 visited id rest unseen missing =>
      intro ids walked
      rw [walk?_cons_eq_none unseen missing] at walked
      simp at walked
  | case4 visited id rest unseen node found ih =>
      intro ids walked
      rw [walk?_cons_of_not_mem unseen found, Option.map_eq_some_iff] at walked
      obtain ⟨later, walked, rfl⟩ := walked
      exact .fresh unseen found (ih walked)

/-- Every derivation is the answer of a walk. -/
theorem Walked.walk?_eq {graph : Graph} {visited roots ids : List NodeId}
    (walked : graph.Walked visited roots ids) : graph.walk? visited roots = some ids := by
  induction walked with
  | nil visited => exact graph.walk?_nil visited
  | seen member _ ih => rw [walk?_cons_of_mem member, ih]
  | fresh unseen found _ ih => rw [walk?_cons_of_not_mem unseen found, ih, Option.map_some]

/-- In a closed graph a walk from nodes of the graph has an answer. -/
theorem exists_walked {graph : Graph} (closed : graph.Closed) (visited roots : List NodeId) :
    (∀ root ∈ roots, root < graph.size) → ∃ ids, graph.Walked visited roots ids := by
  induction visited, roots using walk?.induct graph with
  | case1 visited => exact fun _ => ⟨[], .nil visited⟩
  | case2 visited id rest member ih =>
      intro within
      obtain ⟨ids, walked⟩ := ih fun root among => within root (List.mem_cons_of_mem _ among)
      exact ⟨ids, .seen member walked⟩
  | case3 visited id rest unseen missing =>
      intro within
      have bound := List.getElem?_eq_none_iff.mp missing
      exact absurd (within id List.mem_cons_self) (Nat.not_lt.mpr bound)
  | case4 visited id rest unseen node found ih =>
      intro within
      have inside : ∀ root ∈ node.links ++ rest, root < graph.size := by
        intro root among
        rcases List.mem_append.mp among with linked | among
        · exact closed id root ((links_iff found root).mpr linked)
        · exact within root (List.mem_cons_of_mem _ among)
      obtain ⟨ids, walked⟩ := ih inside
      exact ⟨id :: ids, .fresh unseen found walked⟩

namespace Walked

variable {graph : Graph} {visited roots ids : List NodeId}

/-- A walk only visits nodes of the graph. -/
theorem lt_size (walked : graph.Walked visited roots ids) : ∀ id ∈ ids, id < graph.size := by
  induction walked with
  | nil visited => simp
  | seen _ _ ih => exact ih
  | fresh _ found _ ih =>
      intro other among
      rcases List.mem_cons.mp among with rfl | among
      · exact (List.getElem?_eq_some_iff.mp found).1
      · exact ih other among

/-- No node is visited that was visited before. -/
theorem not_mem_visited (walked : graph.Walked visited roots ids) :
    ∀ id ∈ ids, id ∉ visited := by
  induction walked with
  | nil visited => simp
  | seen _ _ ih => exact ih
  | fresh unseen _ _ ih =>
      intro other among
      rcases List.mem_cons.mp among with rfl | among
      · exact unseen
      · exact fun before => ih other among (List.mem_cons_of_mem _ before)

/-- No node is visited twice. -/
theorem nodup (walked : graph.Walked visited roots ids) : ids.Nodup := by
  induction walked with
  | nil visited => exact List.nodup_nil
  | seen _ _ ih => exact ih
  | @fresh visited rest ids id node unseen found later ih =>
      refine List.nodup_cons.mpr ⟨?_, ih⟩
      exact fun again => later.not_mem_visited id again List.mem_cons_self

/-- Every root, and everything that a visited node links to, has been visited before or
is visited by the walk. -/
theorem closed (walked : graph.Walked visited roots ids) :
    (∀ root ∈ roots, root ∈ visited ∨ root ∈ ids) ∧
      ∀ id ∈ ids, ∀ target, graph.Links id target → target ∈ visited ∨ target ∈ ids := by
  induction walked with
  | nil visited => simp
  | seen member _ ih =>
      refine ⟨?_, ih.2⟩
      intro root among
      rcases List.mem_cons.mp among with rfl | among
      · exact Or.inl member
      · exact ih.1 root among
  | @fresh visited rest ids id node unseen found later ih =>
      -- A node that the rest of the walk finds visited may be the one visited just now.
      have settle (other : NodeId) (done : other ∈ id :: visited ∨ other ∈ ids) :
          other ∈ visited ∨ other ∈ id :: ids := by
        rcases done with before | among
        · rcases List.mem_cons.mp before with rfl | before
          · exact Or.inr List.mem_cons_self
          · exact Or.inl before
        · exact Or.inr (List.mem_cons_of_mem _ among)
      constructor
      · intro root among
        rcases List.mem_cons.mp among with rfl | among
        · exact Or.inr List.mem_cons_self
        · exact settle root (ih.1 root (List.mem_append_right _ among))
      · intro source among target link
        rcases List.mem_cons.mp among with rfl | among
        · exact settle target
            (ih.1 target (List.mem_append_left _ ((links_iff found target).mp link)))
        · exact settle target (ih.2 source among target link)

/-- What is visited is reached from a root outside what was visited before. -/
theorem reached (walked : graph.Walked visited roots ids) :
    ∀ id ∈ ids, ∃ root ∈ roots,
      root ∉ visited ∧ Relation.ReflTransGen (graph.LinksOutside visited) root id := by
  induction walked with
  | nil visited => simp
  | seen _ _ ih =>
      intro other among
      obtain ⟨root, rooted, path⟩ := ih other among
      exact ⟨root, List.mem_cons_of_mem _ rooted, path⟩
  | @fresh visited rest ids id node unseen found later ih =>
      intro other among
      rcases List.mem_cons.mp among with rfl | among
      · exact ⟨other, List.mem_cons_self, unseen, Relation.ReflTransGen.refl⟩
      · obtain ⟨root, rooted, outside, path⟩ := ih other among
        have outside : root ∉ visited := fun before => outside (List.mem_cons_of_mem _ before)
        have path := reach_of_reach_cons path
        rcases List.mem_append.mp rooted with linked | rooted
        · have link : graph.LinksOutside visited id root :=
            ⟨(links_iff found root).mpr linked, outside⟩
          exact ⟨id, List.mem_cons_self, unseen, Relation.ReflTransGen.head link path⟩
        · exact ⟨root, List.mem_cons_of_mem _ rooted, outside, path⟩

/-- A walk visits exactly what is reached from its roots outside what was visited
before. -/
theorem mem_iff (walked : graph.Walked visited roots ids) (id : NodeId) :
    id ∈ ids ↔ ∃ root ∈ roots, root ∉ visited ∧
      Relation.ReflTransGen (graph.LinksOutside visited) root id := by
  constructor
  · exact walked.reached id
  · rintro ⟨root, among, unseen, path⟩
    induction path with
    | refl => exact (walked.closed.1 root among).resolve_left unseen
    | tail _ link reached => exact (walked.closed.2 _ reached _ link.1).resolve_left link.2

/-- A walk from one node with nothing visited begins with that node. -/
theorem head_eq {root : NodeId} (walked : graph.Walked [] [root] ids) :
    ∃ later, ids = root :: later := by
  cases walked with
  | seen member _ => exact absurd member List.not_mem_nil
  | fresh _ _ _ => exact ⟨_, rfl⟩

/-- With nothing visited, a walk from one node visits what links lead to from it. -/
theorem mem_iff_reach {root : NodeId} (walked : graph.Walked [] [root] ids) (id : NodeId) :
    id ∈ ids ↔ Relation.ReflTransGen graph.Links root id := by
  rw [walked.mem_iff, linksOutside_nil]
  simp

end Walked

end SparqlText.Graph
