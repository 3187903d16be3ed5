/-
# Walking a graph

A walk goes depth first from a list of roots. A node that has been visited is
passed over; any other node is visited, and the nodes that it links to come before
what is left of the list. The walk has no answer if it comes to a node that the
graph does not have.

Every step either visits one more of the graph's nodes or shortens the list, so the
walk ends. A graph is written as the blocks of its nodes in the order in which they
are visited.
-/

import SparqlText.Graph.Basic

namespace SparqlText.Graph

/-- How many of the graph's nodes are not among those visited. -/
def unvisited (graph : Graph) (visited : List NodeId) : Nat :=
  (List.range graph.size).countP fun id => !visited.contains id

private theorem countP_lt_countP {Item : Type} {fewer more : Item → Bool}
    (implies : ∀ item, fewer item = true → more item = true) {items : List Item}
    {item : Item} (member : item ∈ items) (dropped : fewer item = false)
    (counted : more item = true) : items.countP fewer < items.countP more := by
  induction items with
  | nil => simp at member
  | cons first rest ih =>
      have weaker : rest.countP fewer ≤ rest.countP more :=
        List.countP_mono_left fun other _ => implies other
      rcases List.mem_cons.mp member with rfl | member
      · simp only [List.countP_cons, dropped, counted]
        simp
        omega
      · have strict := ih member
        have step : (if fewer first = true then 1 else 0)
            ≤ (if more first = true then (1 : Nat) else 0) := by
          by_cases held : fewer first = true
          · simp [held, implies first held]
          · simp [held]
        simp only [List.countP_cons]
        omega

/-- Visiting a node of the graph leaves fewer to visit. -/
theorem unvisited_cons_lt (graph : Graph) {visited : List NodeId} {id : NodeId}
    (fresh : id ∉ visited) (within : id < graph.size) :
    graph.unvisited (id :: visited) < graph.unvisited visited := by
  refine countP_lt_countP ?_ (List.mem_range.mpr within) ?_ ?_
  · intro other
    simp only [List.contains_cons, Bool.not_or, Bool.and_eq_true]
    exact fun both => both.2
  · simp
  · simpa using fresh

/-- Walk from a list of roots: the nodes that are visited on the way, in order. Those
in `visited` have been visited before. -/
def walk? (graph : Graph) (visited : List NodeId) : List NodeId → Option (List NodeId)
  | [] => some []
  | id :: rest =>
      if _seen : id ∈ visited then walk? graph visited rest
      else
        match _found : graph.nodes[id]? with
        | none => none
        | some node =>
            (walk? graph (id :: visited) (node.links ++ rest)).map (id :: ·)
termination_by roots => (graph.unvisited visited, roots.length)
decreasing_by
  · apply Prod.Lex.right
    simp
  · apply Prod.Lex.left
    exact unvisited_cons_lt graph _seen (List.getElem?_eq_some_iff.mp _found).1

/-! ## Written graphs -/

/-- Blocks on lines of their own. -/
def joined (blocks : List Text) : Text := Text.join ['\n'] blocks

/-- The blocks that are reached from a list of roots, if they can be written. -/
def blocksFrom? (graph : Graph) (roots : List NodeId) : Option (List Text) :=
  (graph.walk? [] roots).bind graph.blocks?

/-- The text of what is reached from one node. -/
def flatten? (graph : Graph) (root : NodeId) : Option Text :=
  (graph.blocksFrom? [root]).map joined

/-- The text of a whole graph: every node in order of number, then every
statement. -/
def render? (graph : Graph) : Option Text := do
  let blocks ← graph.blocksFrom? (List.range graph.size)
  let statements ← graph.relationships.mapM (Relationship.render? graph.config)
  return joined (blocks ++ statements)

end SparqlText.Graph
