/-
# What the blocks of a graph say

A graph stores entries: the types of its nodes, and what the nodes hold under their
predicates. A block says triples, one for each of its lines. In a well-formed graph the
block of a node says the entries of that node, a node that is held being shown by its
subject; and blocks of all the nodes, in whatever order, say each entry of the graph as
often as it is stored.
-/

import Mathlib.Data.List.Perm.Lattice
import SparqlText.Proofs.Graph.Blocks

namespace SparqlText

/-! ## Entries -/

/-- One thing that a graph stores: a type of a node under the keyword `a`, or something
that a node holds under a predicate. -/
structure Entry where
  subject : Term
  predicate : Term
  held : Held
  deriving DecidableEq, Repr

/-- The entries of a node: its types, then its properties. -/
def Node.entries (node : Node) : List Entry :=
  node.types.map (fun type => ⟨node.subject, Term.keyword, .term type⟩)
    ++ node.groups.flatMap fun group =>
      group.held.map fun held => ⟨node.subject, group.predicate, held⟩

/-! ## Blocks before they are written -/

/-- A subject, a predicate and an object, as they are written. -/
structure Triple where
  subject : Text
  predicate : Text
  object : Text
  deriving DecidableEq, Repr

/-- A subject and the pairs that are written below it. -/
structure Block where
  subject : Text
  pairs : List Pair
  deriving DecidableEq, Repr

namespace Block

/-- The text of a block under a configuration, if it can be written. -/
def text? (config : RenderConfig) (block : Block) : Option Text :=
  Pattern.block? config block.subject block.pairs

/-- The text of a block under a configuration, whether there is room for it or not. -/
def text (config : RenderConfig) (block : Block) : Text :=
  if block.pairs.isEmpty then []
  else block.subject ++ Pattern.lines (List.replicate config.indent ' ') block.pairs

/-- The triples that a block says. -/
def triples (block : Block) : List Triple :=
  block.pairs.map fun pair => ⟨block.subject, pair.predicate, pair.object⟩

variable {config : RenderConfig} {block : Block}

/-- Whether a block with pairs can be written is a question of the indent. -/
theorem text?_eq (filled : block.pairs ≠ []) :
    block.text? config =
      if config.indent ≤ RenderConfig.widestIndent then some (block.text config) else none := by
  have present : ¬block.pairs.isEmpty = true := by simpa using filled
  rw [text?, Pattern.block?, text, if_neg present, if_neg present, RenderConfig.indentation?]
  split <;> rfl

/-- A block with pairs has room for its indent. -/
theorem indent_le_size_text (filled : block.pairs ≠ []) :
    config.indent ≤ (block.text config).size := by
  have present : ¬block.pairs.isEmpty = true := by simpa using filled
  have within : (List.replicate config.indent ' ').Sublist (block.text config) := by
    rw [text, if_neg present]
    exact (Pattern.sublist_lines _ filled).trans (List.sublist_append_right _ _)
  calc
    config.indent = Text.size (List.replicate config.indent ' ') := (Text.size_spaces _).symm
    _ ≤ (block.text config).size := Text.size_le_of_sublist within

/-- Blocks with pairs can be written if there are none, or the indent can. -/
theorem mapM_text?_eq {blocks : List Block} (filled : ∀ block ∈ blocks, block.pairs ≠ []) :
    blocks.mapM (text? config) =
      if blocks = [] ∨ config.indent ≤ RenderConfig.widestIndent then
        some (blocks.map (text config))
      else none := by
  by_cases narrow : config.indent ≤ RenderConfig.widestIndent
  · rw [if_pos (.inr narrow)]
    induction blocks with
    | nil => rfl
    | cons block rest ih =>
        obtain ⟨first, others⟩ := List.forall_mem_cons.mp filled
        rw [List.mapM_cons, text?_eq first, if_pos narrow, ih others]
        rfl
  · cases blocks with
    | nil => rfl
    | cons block rest =>
        rw [List.mapM_cons, text?_eq (filled block List.mem_cons_self), if_neg narrow,
          if_neg (by simp [narrow])]
        rfl

end Block

namespace Graph

/-- All entries of a graph. -/
def entries (graph : Graph) : List Entry := graph.nodes.flatMap Node.entries

/-- The term that something held is shown by: a node by its subject. -/
def shown? (graph : Graph) : Held → Option Term
  | .term term => some term
  | .node id => graph.subject? id

/-- The triple that an entry is, if what it holds can be shown. -/
def triple? (graph : Graph) (entry : Entry) : Option Triple :=
  (graph.shown? entry.held).map fun object =>
    ⟨entry.subject.text, entry.predicate.text, object.text⟩

/-- The block of a node. -/
def blockOf (graph : Graph) (node : Node) : Block := ⟨node.subject.text, graph.pairs node⟩

/-- The block of the node under a number, if the graph has the node. -/
def blockOf? (graph : Graph) (id : NodeId) : Option Block :=
  graph.nodes[id]?.map graph.blockOf

/-- The triples that the block of the node under a number says. -/
def triplesAt (graph : Graph) (id : NodeId) : List Triple :=
  ((graph.blockOf? id).map Block.triples).getD []

/-! ## One node -/

/-- An entry that holds no number but an issued one is a triple. -/
theorem triple?_eq_some (graph : Graph) {held : Held}
    (issued : ∀ id, held = .node id → id < graph.size) (subject predicate : Term) :
    graph.triple? ⟨subject, predicate, held⟩ =
      some ⟨subject.text, predicate.text, graph.objectText held⟩ := by
  cases held with
  | term term => rfl
  | node id =>
      obtain ⟨term, found⟩ := Option.isSome_iff_exists.mp
        ((graph.subject?_isSome_iff id).mpr (issued id rfl))
      simp [triple?, shown?, objectText, found]

/-- The block of a well-formed node says the entries of the node. -/
theorem map_some_triples_blockOf {graph : Graph} {node : Node}
    (formed : node.WellFormed graph.size) :
    (graph.blockOf node).triples.map some = node.entries.map graph.triple? := by
  have typed (type : Term) :
      graph.triple? ⟨node.subject, Term.keyword, .term type⟩ =
        some ⟨node.subject.text, Term.keyword.text, type.text⟩ := rfl
  have grouped : ∀ group ∈ node.groups,
      (graph.groupPairs group).map
          (fun pair => some (⟨node.subject.text, pair.predicate, pair.object⟩ : Triple)) =
        group.held.map
          (fun held => graph.triple? ⟨node.subject, group.predicate, held⟩) := by
    intro group member
    rw [groupPairs, List.map_map]
    apply List.map_congr_left
    intro held among
    have issued : ∀ id, held = .node id → id < graph.size := by
      rintro id rfl
      exact formed.issued group member id among
    rw [graph.triple?_eq_some issued, Function.comp_apply]
  simp only [Block.triples, blockOf, pairs, Node.entries, List.map_append, List.map_map,
    List.map_flatMap, Function.comp_def, typed]
  rw [List.flatMap_congr grouped]

/-! ## Lists of blocks -/

/-- The text of a node is the text of its block. -/
theorem blockAt?_eq_bind (graph : Graph) (id : NodeId) :
    graph.blockAt? id = (graph.blockOf? id).bind (Block.text? graph.config) := by
  rw [blockAt?, blockOf?, Option.bind_map]
  rfl

/-- The blocks are those of the nodes under the numbers, in their order. -/
def BlocksOf (graph : Graph) : List NodeId → List Block → Prop :=
  List.Forall₂ fun id block => graph.blockOf? id = some block

/-- Every node of the graph has a block. -/
theorem exists_blocksOf {graph : Graph} {ids : List NodeId}
    (within : ∀ id ∈ ids, id < graph.size) : ∃ blocks, graph.BlocksOf ids blocks := by
  induction ids with
  | nil => exact ⟨[], .nil⟩
  | cons id rest ih =>
      obtain ⟨blocks, others⟩ := ih fun other among => within other (List.mem_cons_of_mem _ among)
      obtain ⟨node, _, found⟩ := exists_node_of_lt (within id List.mem_cons_self)
      have own : graph.blockOf? id = some (graph.blockOf node) := by rw [blockOf?, found]; rfl
      exact ⟨graph.blockOf node :: blocks, .cons own others⟩

/-- The texts of nodes are the texts of their blocks. -/
theorem BlocksOf.mapM_blockAt?_eq {graph : Graph} {ids : List NodeId} {blocks : List Block}
    (taken : graph.BlocksOf ids blocks) :
    ids.mapM graph.blockAt? = blocks.mapM (Block.text? graph.config) := by
  induction taken with
  | nil => rfl
  | cons own _ ih =>
      rw [List.mapM_cons, List.mapM_cons, ih, graph.blockAt?_eq_bind, own, Option.bind_some]

theorem BlocksOf.flatMap_triples_eq {graph : Graph} {ids : List NodeId} {blocks : List Block}
    (taken : graph.BlocksOf ids blocks) :
    blocks.flatMap Block.triples = ids.flatMap graph.triplesAt := by
  induction taken with
  | nil => rfl
  | cons own _ ih =>
      rw [List.flatMap_cons, List.flatMap_cons, ih, triplesAt, own]
      rfl

/-- A node without content says nothing. -/
theorem triplesAt_of_not_hasContent {graph : Graph} {id : NodeId}
    (bare : graph.hasContent id = false) : graph.triplesAt id = [] := by
  cases found : graph.nodes[id]? with
  | none => simp [triplesAt, blockOf?, found]
  | some node =>
      have empty : node.hasContent = false := by simpa [hasContent, found] using bare
      simp [triplesAt, blockOf?, found, blockOf, Block.triples,
        graph.pairs_of_not_hasContent empty]

theorem flatMap_triplesAt_filter (graph : Graph) (ids : List NodeId) :
    (ids.filter graph.hasContent).flatMap graph.triplesAt = ids.flatMap graph.triplesAt := by
  induction ids with
  | nil => rfl
  | cons id rest ih =>
      cases full : graph.hasContent id with
      | true => rw [List.filter_cons_of_pos full, List.flatMap_cons, List.flatMap_cons, ih]
      | false =>
          rw [List.filter_cons_of_neg (by simp [full]), List.flatMap_cons,
            triplesAt_of_not_hasContent full, ih, List.nil_append]

/-- In the order of their numbers, the nodes say what is stored in the graph. -/
theorem map_some_flatMap_triplesAt_range {graph : Graph} (formed : graph.WellFormed) :
    ((List.range graph.size).flatMap graph.triplesAt).map some =
      graph.entries.map graph.triple? := by
  have nodes : (List.range graph.size).flatMap graph.triplesAt =
      graph.nodes.flatMap fun node => (graph.blockOf node).triples := by
    have each : (List.range graph.size).map graph.triplesAt =
        graph.nodes.map fun node => (graph.blockOf node).triples := by
      apply List.ext_getElem
      · simp [size]
      · intro position within _
        have bound : position < graph.nodes.length := by simpa [size] using within
        simp [triplesAt, blockOf?, List.getElem?_eq_getElem bound]
    rw [List.flatMap_def, List.flatMap_def, each]
  rw [nodes, entries, List.map_flatMap, List.map_flatMap]
  exact List.flatMap_congr fun node member => map_some_triples_blockOf (formed node member)

/-- Blocks of all nodes with content, in whatever order, say every entry of the graph as
often as it is stored. -/
theorem perm_entries {graph : Graph} (formed : graph.WellFormed) {ids : List NodeId}
    (all : ids.Perm (List.range graph.size)) {blocks : List Block}
    (taken : graph.BlocksOf (ids.filter graph.hasContent) blocks) :
    ((blocks.flatMap Block.triples).map some).Perm (graph.entries.map graph.triple?) := by
  rw [taken.flatMap_triples_eq, flatMap_triplesAt_filter,
    ← map_some_flatMap_triplesAt_range formed]
  exact (all.flatMap_right graph.triplesAt).map some

end Graph

end SparqlText
