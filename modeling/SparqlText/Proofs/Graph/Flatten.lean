/-
# Flattening a graph

What is written from one node of a well-formed graph: one block for each node with
content that links lead to, the node itself first. There is an answer wherever the
indent can be written, and none for a number that was not issued.
-/

import SparqlText.Proofs.Graph.Blocks
import SparqlText.Proofs.Graph.Reach
import SparqlText.Proofs.Session.Run

namespace SparqlText.Graph

variable {graph : Graph}

/-- The links of a well-formed graph point at nodes of the graph. -/
theorem WellFormed.links_lt (formed : graph.WellFormed) : graph.Closed := by
  rintro source target ⟨node, found, group, member, held⟩
  exact (formed node (List.mem_of_getElem? found)).issued group member target held

/-- What a walk comes to is written as the blocks of the nodes with content. -/
theorem Walked.blocksFrom?_eq {roots ids : List NodeId} (walked : graph.Walked [] roots ids)
    (formed : graph.WellFormed) :
    graph.blocksFrom? roots = (ids.filter graph.hasContent).mapM graph.blockAt? := by
  rw [blocksFrom?, walked.walk?_eq, Option.bind_some]
  exact blocks?_eq_mapM formed walked.lt_size

/-- Where the indent can be written, so can all that nodes of the graph lead to. -/
theorem WellFormed.blocksFrom?_isSome (formed : graph.WellFormed)
    (writable : graph.config.indentation?.isSome = true) {roots : List NodeId}
    (within : ∀ root ∈ roots, root < graph.size) :
    (graph.blocksFrom? roots).isSome = true := by
  obtain ⟨ids, walked⟩ := exists_walked formed.links_lt [] roots within
  rw [blocksFrom?, walked.walk?_eq, Option.bind_some]
  exact blocks?_isSome writable walked.lt_size

/-- The text of a node is that of the blocks with content that a walk from it comes to. -/
theorem Walked.flatten?_eq {root : NodeId} {ids : List NodeId}
    (walked : graph.Walked [] [root] ids) (formed : graph.WellFormed) :
    graph.flatten? root = ((ids.filter graph.hasContent).mapM graph.blockAt?).map joined := by
  rw [flatten?, walked.blocksFrom?_eq formed]

theorem WellFormed.flatten?_isSome (formed : graph.WellFormed)
    (writable : graph.config.indentation?.isSome = true) {root : NodeId}
    (within : root < graph.size) : (graph.flatten? root).isSome = true := by
  rw [flatten?, Option.isSome_map]
  exact formed.blocksFrom?_isSome writable (by simpa using within)

theorem flatten?_eq_none (graph : Graph) {root : NodeId} (beyond : graph.size ≤ root) :
    graph.flatten? root = none := by
  have missing : graph.nodes[root]? = none := List.getElem?_eq_none_iff.mpr beyond
  rw [flatten?, blocksFrom?, walk?_cons_eq_none List.not_mem_nil missing]
  rfl

theorem WellFormed.render?_isSome (formed : graph.WellFormed)
    (writable : graph.config.indentation?.isSome = true) : graph.render?.isSome = true := by
  have within : ∀ root ∈ List.range graph.size, root < graph.size :=
    fun _ among => List.mem_range.mp among
  obtain ⟨blocks, written⟩ := Option.isSome_iff_exists.mp
    (formed.blocksFrom?_isSome writable within)
  obtain ⟨statements, shown⟩ := Option.isSome_iff_exists.mp
    (isSome_mapM fun relationship (_ : relationship ∈ graph.relationships) =>
      relationship.render?_isSome writable)
  simp [render?, written, shown]

/-! ## From one node -/

/-- Flattening a node of a built graph visits the nodes that its links lead to, each of
them once and the node itself first. What is written is one block for each of them that has
a type or a property, in that order, and the text of the node is these blocks on lines of
their own. There is a text wherever the indent can be written. -/
theorem flatten_visits_reachable (built : graph.IsBuilt) {root : NodeId}
    (issued : graph.contains root = true) :
    ∃ later, graph.walk? [] [root] = some (root :: later) ∧ (root :: later).Nodup ∧
      (∀ id, id ∈ root :: later ↔ Relation.ReflTransGen graph.Links root id) ∧
      graph.blocksFrom? [root] =
        ((root :: later).filter graph.hasContent).mapM graph.blockAt? ∧
      graph.flatten? root =
        (((root :: later).filter graph.hasContent).mapM graph.blockAt?).map joined ∧
      (graph.config.indentation?.isSome = true → (graph.flatten? root).isSome = true) := by
  have formed := built.wellFormed
  have within : root < graph.size := by simpa [contains] using issued
  obtain ⟨ids, walked⟩ := exists_walked formed.links_lt [] [root] (by simpa using within)
  obtain ⟨later, rfl⟩ := walked.head_eq
  exact ⟨later, walked.walk?_eq, walked.nodup, walked.mem_iff_reach,
    walked.blocksFrom?_eq formed, walked.flatten?_eq formed,
    fun writable => formed.flatten?_isSome writable within⟩

/-- Two nodes that link to each other, one of them to itself as well, and a third node
that nothing links to. -/
def entangled : List Step :=
  [.addNode ⟨['?', 'x']⟩, .addNode ⟨['?', 'y']⟩, .addNode ⟨['?', 'z']⟩,
    .edit 0 (.link ['p'] 1), .edit 1 (.link ['p'] 0), .edit 1 (.link ['q'] 1),
    .edit 1 (.type ['?', 't'])]

theorem flatten_visits_reachable_entangled :
    let graph := ((Session.fresh .standard).run entangled).1.graph
    (graph.IsBuilt ∧ graph.contains 0 = true) ∧
      ∃ later, graph.walk? [] [0] = some (0 :: later) ∧ (0 :: later).Nodup ∧
        (∀ id, id ∈ 0 :: later ↔ Relation.ReflTransGen graph.Links 0 id) ∧
        graph.blocksFrom? [0] =
          ((0 :: later).filter graph.hasContent).mapM graph.blockAt? ∧
        graph.flatten? 0 =
          (((0 :: later).filter graph.hasContent).mapM graph.blockAt?).map joined ∧
        (graph.config.indentation?.isSome = true → (graph.flatten? 0).isSome = true) := by
  have built : ((Session.fresh .standard).run entangled).1.graph.IsBuilt :=
    ⟨.standard, entangled, rfl⟩
  have issued : ((Session.fresh .standard).run entangled).1.graph.contains 0 = true := by
    decide
  exact ⟨⟨built, issued⟩, flatten_visits_reachable built issued⟩

end SparqlText.Graph
