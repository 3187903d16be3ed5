/-
# The blocks of a well-formed graph

In a well-formed graph the block of a node is empty exactly where the node has no type
and no property, so the blocks that are left of a list of nodes are those of its nodes
with content, in order. Whether they can be written depends on the indent alone.
-/

import SparqlText.Graph.Walk
import SparqlText.Proofs.Graph.WellFormed

namespace SparqlText

/-- Whether a node has a type or a property. -/
def Node.hasContent (node : Node) : Bool := !node.types.isEmpty || !node.groups.isEmpty

namespace Pattern

theorem lines_ne_nil (indentation : Text) {pairs : List Pair} (nonempty : pairs ≠ []) :
    lines indentation pairs ≠ [] := by
  match pairs with
  | [pair] => simp [lines, line]
  | pair :: next :: rest => simp [lines, line]

/-- Where the indent can be written, every block can. -/
theorem block?_isSome {config : RenderConfig} (writable : config.indentation?.isSome = true)
    (subject : Text) (pairs : List Pair) : (block? config subject pairs).isSome = true := by
  rw [block?]
  split
  · rfl
  · rwa [Option.isSome_map]

end Pattern

/-- Where the indent can be written, every statement can. -/
theorem Relationship.render?_isSome {config : RenderConfig}
    (writable : config.indentation?.isSome = true) (relationship : Relationship) :
    (relationship.render? config).isSome = true := by
  rw [Relationship.render?]
  split
  · rw [Option.isSome_map]
    exact Pattern.block?_isSome writable _ _
  · rfl

namespace Graph

/-- Whether the node under a number has a type or a property. -/
def hasContent (graph : Graph) (id : NodeId) : Bool := graph.nodes[id]?.any Node.hasContent

/-! ## One block -/

/-- A node without content has no pairs. -/
theorem pairs_of_not_hasContent (graph : Graph) {node : Node}
    (bare : node.hasContent = false) : graph.pairs node = [] := by
  simp only [Node.hasContent, Bool.or_eq_false_iff, Bool.not_eq_false',
    List.isEmpty_iff] at bare
  simp [pairs, bare.1, bare.2]

/-- A well-formed node with content has a pair: its groups are not empty. -/
theorem pairs_ne_nil_of_hasContent (graph : Graph) {node : Node} {size : Nat}
    (formed : node.WellFormed size) (full : node.hasContent = true) :
    graph.pairs node ≠ [] := by
  intro none
  simp only [pairs, List.append_eq_nil_iff, List.map_eq_nil_iff, List.flatMap_eq_nil_iff,
    groupPairs] at none
  obtain ⟨untyped, ungrouped⟩ := none
  cases groups : node.groups with
  | nil => simp [Node.hasContent, untyped, groups] at full
  | cons group rest =>
      have among : group ∈ node.groups := groups ▸ List.mem_cons_self
      exact formed.occupied group among (ungrouped group among)

theorem block?_of_not_hasContent (graph : Graph) {node : Node}
    (bare : node.hasContent = false) : graph.block? node = some [] := by
  simp [block?, graph.pairs_of_not_hasContent bare, Pattern.block?]

/-- The block of a well-formed node is empty exactly where the node has no content. -/
theorem isEmpty_of_block?_eq_some (graph : Graph) {node : Node} {size : Nat} {block : Text}
    (formed : node.WellFormed size) (written : graph.block? node = some block) :
    block.isEmpty = !node.hasContent := by
  cases full : node.hasContent with
  | false =>
      rw [graph.block?_of_not_hasContent full, Option.some.injEq] at written
      simp [← written]
  | true =>
      have present := graph.pairs_ne_nil_of_hasContent formed full
      have filled : (graph.pairs node).isEmpty = false := by simpa using present
      rw [block?, Pattern.block?, filled, if_neg Bool.false_ne_true,
        Option.map_eq_some_iff] at written
      obtain ⟨indentation, _, rfl⟩ := written
      simp [Pattern.lines_ne_nil indentation present]

/-- Where the indent can be written, so can the block of every node of the graph. -/
theorem blockAt?_isSome {graph : Graph} (writable : graph.config.indentation?.isSome = true)
    {id : NodeId} (within : id < graph.size) : (graph.blockAt? id).isSome = true := by
  obtain ⟨node, _, found⟩ := exists_node_of_lt within
  rw [blockAt?, found, Option.bind_some]
  exact Pattern.block?_isSome writable _ _

/-! ## Lists of blocks -/

theorem isSome_mapM {Item Result : Type} {write : Item → Option Result} {items : List Item}
    (each : ∀ item ∈ items, (write item).isSome = true) :
    (items.mapM write).isSome = true := by
  induction items with
  | nil => rfl
  | cons first rest ih =>
      obtain ⟨head, written⟩ := Option.isSome_iff_exists.mp (each first List.mem_cons_self)
      obtain ⟨tail, others⟩ := Option.isSome_iff_exists.mp
        (ih fun item among => each item (List.mem_cons_of_mem _ among))
      simp [written, others]

/-- The blocks of nodes of a well-formed graph are those of the nodes with content. -/
theorem blocks?_eq_mapM {graph : Graph} (formed : graph.WellFormed) {ids : List NodeId}
    (within : ∀ id ∈ ids, id < graph.size) :
    graph.blocks? ids = (ids.filter graph.hasContent).mapM graph.blockAt? := by
  induction ids with
  | nil => rfl
  | cons id rest ih =>
      have later := ih fun other among => within other (List.mem_cons_of_mem _ among)
      obtain ⟨node, member, found⟩ := exists_node_of_lt (within id List.mem_cons_self)
      rw [blocks?] at later ⊢
      rw [List.mapM_cons]
      cases full : node.hasContent with
      | false =>
          -- The empty block of this node is written and then left out.
          have bare : graph.hasContent id = false := by simpa [hasContent, found] using full
          have empty : graph.blockAt? id = some [] := by
            simp [blockAt?, found, graph.block?_of_not_hasContent full]
          rw [List.filter_cons_of_neg (by simp [bare]), ← later, empty]
          cases rest.mapM graph.blockAt? <;> simp
      | true =>
          have content : graph.hasContent id = true := by simpa [hasContent, found] using full
          rw [List.filter_cons_of_pos content, List.mapM_cons, ← later]
          cases written : graph.blockAt? id with
          | none => rfl
          | some block =>
              have shown : block.isEmpty = false := by
                rw [blockAt?, found, Option.bind_some] at written
                rw [graph.isEmpty_of_block?_eq_some (formed node member) written, full,
                  Bool.not_true]
              cases rest.mapM graph.blockAt? <;> simp [shown]

/-- Where the indent can be written, so can all blocks of nodes of the graph. -/
theorem blocks?_isSome {graph : Graph} (writable : graph.config.indentation?.isSome = true)
    {ids : List NodeId} (within : ∀ id ∈ ids, id < graph.size) :
    (graph.blocks? ids).isSome = true := by
  rw [blocks?, Option.isSome_map]
  exact isSome_mapM fun id among => blockAt?_isSome writable (within id among)

end Graph

end SparqlText
