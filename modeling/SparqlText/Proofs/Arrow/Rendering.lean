/-
# Rendering arrow patterns

What is written for a pattern in a graph: the blocks of the nodes that are reached from
the nodes of the pattern, and a line for each arrow.

A pattern keeps its edges by positions, and the grammar counts nodes to number them. Here
the arrows are read off the written symbols with the nodes themselves at their ends
(`ArrowsBetween`, `DrawnArrows`), without a position anywhere. Both have the same arrows
in the same order (`Places`), and so a line has the subjects of the two nodes that are
written next to its arrow.

A node that is repeated among the roots of a walk adds nothing to it
(`Forest.eraseDups`), wherever its first occurrence is.
-/

import SparqlText.Proofs.Arrow.Reading
import SparqlText.Proofs.Graph.Flatten
import SparqlText.Proofs.Graph.Forest
import SparqlText.Proofs.Graph.Triples

namespace SparqlText

/-! ## What is reached -/

namespace Graph

variable {graph : Graph} {roots ids : List NodeId}

/-- The nodes that are reached from a list of roots, and their blocks: the depth-first trees
under the roots in the order of their first occurrences. -/
structure Reaches (graph : Graph) (roots ids : List NodeId) (blocks : List Block) : Prop where
  /-- The nodes are those of the trees, in their order and no other. -/
  ordered : ∀ others, graph.Forest [] roots.eraseDups others ↔ others = ids
  once : ids.Nodup
  reached : ∀ id, id ∈ ids ↔ ∃ root ∈ roots, Relation.ReflTransGen graph.Links root id
  /-- Each of them that has a type or a property has a block, and no other. -/
  written : graph.BlocksOf (ids.filter graph.hasContent) blocks

theorem Walked.reaches {blocks : List Block} (walked : graph.Walked [] roots ids)
    (written : graph.BlocksOf (ids.filter graph.hasContent) blocks) :
    graph.Reaches roots ids blocks := by
  have forest := walked.forest.eraseDups
  refine ⟨fun others => ⟨fun other => other.unique forest, ?_⟩, walked.nodup, ?_, written⟩
  · rintro rfl
    exact forest
  · intro id
    rw [walked.mem_iff, linksOutside_nil]
    simp

theorem WellFormed.exists_reaches (formed : graph.WellFormed)
    (within : ∀ root ∈ roots, root < graph.size) :
    ∃ ids blocks, graph.Reaches roots ids blocks ∧
      graph.blocksFrom? roots = blocks.mapM (Block.text? graph.config) := by
  obtain ⟨ids, walked⟩ := exists_walked formed.links_lt [] roots within
  have issued : ∀ id ∈ ids.filter graph.hasContent, id < graph.size :=
    fun id member => walked.lt_size id (List.mem_filter.mp member).1
  obtain ⟨blocks, written⟩ := exists_blocksOf issued
  refine ⟨ids, blocks, walked.reaches written, ?_⟩
  rw [walked.blocksFrom?_eq formed, written.mapM_blockAt?_eq]

/-- Roots with the same first occurrences lead to the same blocks. -/
theorem WellFormed.blocksFrom?_eq_of_eraseDups (formed : graph.WellFormed) {kept : List NodeId}
    (within : ∀ root ∈ roots, root < graph.size) (same : kept.eraseDups = roots.eraseDups) :
    graph.blocksFrom? kept = graph.blocksFrom? roots := by
  have inside : ∀ root ∈ kept, root < graph.size := by
    intro root member
    rw [← List.mem_eraseDups, same, List.mem_eraseDups] at member
    exact within root member
  obtain ⟨ids, walked⟩ := exists_walked formed.links_lt [] roots within
  obtain ⟨others, other⟩ := exists_walked formed.links_lt [] kept inside
  have first := other.forest.eraseDups
  rw [same] at first
  have equal : others = ids := first.unique walked.forest.eraseDups
  rw [blocksFrom?, blocksFrom?, walked.walk?_eq, other.walk?_eq, equal]

/-- The blocks of nodes with content have pairs. -/
theorem WellFormed.pairs_ne_nil (formed : graph.WellFormed) {blocks : List Block}
    (taken : graph.BlocksOf ids blocks) (full : ∀ id ∈ ids, graph.hasContent id = true) :
    ∀ block ∈ blocks, block.pairs ≠ [] := by
  induction taken with
  | nil => exact nofun
  | cons own _ ih =>
      obtain ⟨first, others⟩ := List.forall_mem_cons.mp full
      refine List.forall_mem_cons.mpr ⟨?_, ih others⟩
      rw [blockOf?, Option.map_eq_some_iff] at own
      obtain ⟨node, found, rfl⟩ := own
      have content : node.hasContent = true := by simpa [hasContent, found] using first
      exact graph.pairs_ne_nil_of_hasContent (formed node (List.mem_of_getElem? found)) content

end Graph

/-! ## Arrows between nodes -/

/-- An arrow as it is written between two nodes of a graph. -/
structure NodeArrow where
  left : NodeId
  direction : Direction
  predicate : Term
  right : NodeId
  deriving DecidableEq, Repr

namespace NodeArrow

/-- The node that an arrow points away from. -/
def source (arrow : NodeArrow) : NodeId :=
  match arrow.direction with
  | .backward => arrow.right
  | _ => arrow.left

/-- The node that an arrow points at. -/
def target (arrow : NodeArrow) : NodeId :=
  match arrow.direction with
  | .backward => arrow.left
  | _ => arrow.right

/-- The line of an arrow: a triple of the subjects of its nodes. -/
def line? (graph : Graph) (arrow : NodeArrow) : Option Text := do
  let source ← graph.subject? arrow.source
  let target ← graph.subject? arrow.target
  return Pattern.triple source.text arrow.predicate.text target.text

end NodeArrow

namespace ArrowPattern

/-- The arrows that follow one another from a node, the nodes behind it being given in
their order. -/
inductive ArrowsBetween (config : RenderConfig) :
    NodeId → List Symbol → List NodeId → List NodeArrow → Prop
  | none (left : NodeId) : ArrowsBetween config left [] [] []
  | arrow {left right : NodeId} {before inner after : Text} {direction : Direction}
      {predicate : Term} {rest : List Symbol} {nodes : List NodeId} {arrows : List NodeArrow}
      (lead : Blank before) (within : Predicate config inner predicate) (gap : Blank after)
      (later : ArrowsBetween config right rest nodes arrows) :
      ArrowsBetween config left (chars before ++ arrowSymbols direction inner after ++ rest)
        (right :: nodes) (⟨left, direction, predicate, right⟩ :: arrows)

/-- The arrows of a pattern whose nodes are given in their order: layout, and chains of a
node and the arrows from it. -/
inductive DrawnArrows (config : RenderConfig) :
    List Symbol → List NodeId → List NodeArrow → Prop
  | empty : DrawnArrows config [] [] []
  | layout {char : Char} {rest : List Symbol} {nodes : List NodeId} {arrows : List NodeArrow}
      (between : IsLayout char) (later : DrawnArrows config rest nodes arrows) :
      DrawnArrows config (.char char :: rest) nodes arrows
  | chain {id : NodeId} {linked rest : List Symbol} {behind nodes : List NodeId}
      {first later : List NodeArrow} (chained : ArrowsBetween config id linked behind first)
      (others : DrawnArrows config rest nodes later) :
      DrawnArrows config (.node :: (linked ++ rest)) (id :: (behind ++ nodes)) (first ++ later)

/-- An edge joins the nodes of an arrow by the positions that they have among others. -/
structure Places (nodes : List NodeId) (edge : Edge) (arrow : NodeArrow) : Prop where
  predicate : arrow.predicate = edge.predicate
  direction : arrow.direction = edge.direction
  source : nodes[edge.source]? = some arrow.source
  target : nodes[edge.target]? = some arrow.target

variable {config : RenderConfig} {nodes : List NodeId}

/-- The edge from a position to the next one joins the nodes at these two. -/
theorem places_edge {position : Nat} {left right : NodeId} (first : nodes[position]? = some left)
    (second : nodes[position + 1]? = some right) (direction : Direction) (predicate : Term) :
    Places nodes (direction.edge position predicate) ⟨left, direction, predicate, right⟩ := by
  cases direction with
  | backward => exact ⟨rfl, rfl, second, first⟩
  | forward | undirected => exact ⟨rfl, rfl, first, second⟩

/-- An edge places one arrow. -/
theorem Places.unique {edge : Edge} {arrow other : NodeArrow} (places : Places nodes edge arrow)
    (again : Places nodes edge other) : arrow = other := by
  obtain ⟨left, direction, predicate, right⟩ := arrow
  obtain ⟨left', direction', predicate', right'⟩ := other
  have source := places.source.symm.trans again.source
  have target := places.target.symm.trans again.target
  obtain rfl : direction = direction' := places.direction.trans again.direction.symm
  obtain rfl : predicate = predicate' := places.predicate.trans again.predicate.symm
  rw [Option.some.injEq] at source target
  cases direction with
  | backward =>
      obtain rfl : right = right' := source
      obtain rfl : left = left' := target
      rfl
  | forward | undirected =>
      obtain rfl : left = left' := source
      obtain rfl : right = right' := target
      rfl

theorem arrows_eq_of_places {edges : List Edge} {arrows others : List NodeArrow}
    (placed : List.Forall₂ (Places nodes) edges arrows)
    (again : List.Forall₂ (Places nodes) edges others) : arrows = others := by
  induction placed generalizing others with
  | nil =>
      cases again
      rfl
  | cons own _ ih =>
      cases again with
      | cons other later => rw [own.unique other, ih later]

/-! ## Positions and nodes -/

/-- Nodes can be put to the arrows of a chain. -/
theorem Arrows.between {left : Nat} {input : List Symbol} {edges : List Edge}
    (linked : Arrows config left input edges) (id : NodeId) {behind : List NodeId}
    (count : behind.length = edges.length) :
    ∃ arrows, ArrowsBetween config id input behind arrows := by
  induction linked generalizing id behind with
  | none left =>
      obtain rfl := List.eq_nil_of_length_eq_zero count
      exact ⟨[], .none id⟩
  | arrow lead within gap _ ih =>
      cases behind with
      | nil => cases count
      | cons right behind =>
          obtain ⟨arrows, later⟩ := ih right (Nat.succ.inj count)
          exact ⟨_, .arrow lead within gap later⟩

/-- Nodes can be put to the symbols of a pattern, if there are as many. -/
theorem Written.drawn {position : Nat} {input : List Symbol} {edges : List Edge}
    (written : Written config position input edges) (count : nodes.length = input.count .node) :
    ∃ arrows, DrawnArrows config input nodes arrows := by
  induction written generalizing nodes with
  | empty position =>
      obtain rfl := List.eq_nil_of_length_eq_zero count
      exact ⟨[], .empty⟩
  | layout between _ ih =>
      obtain ⟨arrows, later⟩ := ih (by simpa using count)
      exact ⟨arrows, .layout between later⟩
  | @chain position arrows rest first later linked _ ih =>
      rw [List.count_cons_self, List.count_append, linked.count_node] at count
      cases nodes with
      | nil => cases count
      | cons id nodes =>
          have more : nodes.length = first.length + rest.count .node := Nat.succ.inj count
          have behind : (nodes.take first.length).length = first.length := by
            rw [List.length_take, more]
            exact Nat.min_eq_left (Nat.le_add_right _ _)
          have others : (nodes.drop first.length).length = rest.count .node := by
            rw [List.length_drop, more, Nat.add_sub_cancel_left]
          obtain ⟨drawn, chained⟩ := linked.between id behind
          obtain ⟨further, elsewhere⟩ := ih others
          rw [← List.take_append_drop first.length nodes]
          exact ⟨drawn ++ further, .chain chained elsewhere⟩

/-- The arrows of a chain are placed by its edges, wherever the chain stands among others. -/
theorem ArrowsBetween.placed {id : NodeId} {input : List Symbol} {behind : List NodeId}
    {arrows : List NodeArrow} (chained : ArrowsBetween config id input behind arrows)
    (front rest : List NodeId) :
    ∃ edges, Arrows config front.length input edges ∧ edges.length = behind.length ∧
      List.Forall₂ (Places (front ++ id :: (behind ++ rest))) edges arrows := by
  induction chained generalizing front with
  | none left => exact ⟨[], .none _, rfl, .nil⟩
  | @arrow left right before inner after direction predicate input behind arrows lead within gap _
      ih =>
      obtain ⟨edges, linked, count, placed⟩ := ih (front ++ [left])
      rw [List.length_append, List.length_singleton] at linked
      rw [List.append_assoc, List.singleton_append] at placed
      refine ⟨direction.edge front.length predicate :: edges, .arrow lead within gap linked,
        congrArg Nat.succ count, .cons (places_edge ?_ ?_ direction predicate) placed⟩
      · simp
      · simp

/-- The arrows of a pattern are placed by its edges. -/
theorem DrawnArrows.placed {input : List Symbol} {arrows : List NodeArrow}
    (drawn : DrawnArrows config input nodes arrows) (front : List NodeId) :
    ∃ edges, Written config front.length input edges ∧
      List.Forall₂ (Places (front ++ nodes)) edges arrows := by
  induction drawn generalizing front with
  | empty => exact ⟨[], .empty _, .nil⟩
  | layout between _ ih =>
      obtain ⟨edges, written, placed⟩ := ih front
      exact ⟨edges, .layout between written, placed⟩
  | @chain id linked rest behind nodes first later chained _ ih =>
      obtain ⟨edges, arrows, count, placed⟩ := chained.placed front nodes
      obtain ⟨others, written, elsewhere⟩ := ih (front ++ id :: behind)
      have further : (front ++ id :: behind).length = front.length + 1 + edges.length := by
        rw [List.length_append, List.length_cons, count]
        omega
      rw [further] at written
      rw [List.append_assoc, List.cons_append] at elsewhere
      exact ⟨edges ++ others, .chain arrows written, List.rel_append placed elsewhere⟩

/-- The edges of a pattern that was read place the arrows that are drawn between its nodes,
and these are the only ones. -/
theorem exists_drawn_of_read {segments : List Segment} {pattern : ArrowPattern}
    (accepted : read config segments = .ok pattern) :
    ∃ arrows, (∀ others,
        DrawnArrows config (symbols segments) (nodesOf segments) others ↔ others = arrows) ∧
      List.Forall₂ (Places pattern.nodes) pattern.edges arrows := by
  obtain ⟨unmarked, written, nodes⟩ := read_eq_ok_iff.mp accepted
  -- What is drawn gives edges of its own. They are read as well, and reading has one answer.
  have placed {others : List NodeArrow}
      (drawn : DrawnArrows config (symbols segments) (nodesOf segments) others) :
      List.Forall₂ (Places pattern.nodes) pattern.edges others := by
    obtain ⟨edges, own, placed⟩ := drawn.placed []
    have again : read config segments = .ok ⟨nodesOf segments, edges⟩ :=
      read_eq_ok_iff.mpr ⟨unmarked, own, rfl⟩
    rw [accepted, Except.ok.injEq] at again
    rw [again]
    exact placed
  obtain ⟨arrows, drawn⟩ := written.drawn (count_node_symbols segments).symm
  refine ⟨arrows, fun others => ⟨fun other => ?_, ?_⟩, placed drawn⟩
  · exact arrows_eq_of_places (placed other) (placed drawn)
  · rintro rfl
    exact drawn

/-! ## Lines -/

variable {graph : Graph} {pattern : ArrowPattern}

/-- An edge is written as the line of the arrow that it places. -/
theorem Places.edgeText?_eq {edge : Edge} {arrow : NodeArrow}
    (places : Places pattern.nodes edge arrow) :
    pattern.edgeText? graph edge = arrow.line? graph := by
  rw [edgeText?, NodeArrow.line?, subjectAt?, subjectAt?, places.source, places.target,
    places.predicate]
  rfl

/-- The nodes of an arrow are nodes of the pattern. -/
theorem Places.isSome_line? {edge : Edge} {arrow : NodeArrow} (places : Places nodes edge arrow)
    (within : ∀ id ∈ nodes, id < graph.size) : (arrow.line? graph).isSome = true := by
  have issued {id : NodeId} {position : Nat} (found : nodes[position]? = some id) :
      ∃ term, graph.subject? id = some term :=
    Option.isSome_iff_exists.mp
      ((graph.subject?_isSome_iff id).mpr (within id (List.mem_of_getElem? found)))
  obtain ⟨source, away⟩ := issued places.source
  obtain ⟨target, towards⟩ := issued places.target
  rw [NodeArrow.line?, away, towards]
  rfl

/-- Where the nodes are nodes of the graph, each arrow has its line. -/
theorem exists_lines {edges : List Edge} {arrows : List NodeArrow}
    (placed : List.Forall₂ (Places pattern.nodes) edges arrows)
    (within : ∀ id ∈ pattern.nodes, id < graph.size) :
    ∃ lines, List.Forall₂ (fun arrow line => arrow.line? graph = some line) arrows lines ∧
      edges.mapM (pattern.edgeText? graph) = some lines := by
  induction placed with
  | nil => exact ⟨[], .nil, rfl⟩
  | cons own _ ih =>
      obtain ⟨lines, each, written⟩ := ih
      obtain ⟨line, shown⟩ := Option.isSome_iff_exists.mp (own.isSome_line? within)
      refine ⟨line :: lines, .cons shown each, ?_⟩
      rw [List.mapM_cons, own.edgeText?_eq, shown, written]
      rfl

/-! ## Whole patterns -/

theorem mem_nodesOf_iff {segments : List Segment} {id : NodeId} :
    id ∈ nodesOf segments ↔ Segment.node id ∈ segments := by
  induction segments with
  | nil => simp [nodesOf]
  | cons segment rest ih => cases segment <;> simp_all [nodesOf]

/-- The whole text of blocks and lines, whether there is room for it or not. -/
def wholeText (config : RenderConfig) (blocks : List Block) (lines : List Text) : Text :=
  Graph.joined (blocks.map (Block.text config) ++ lines)

/-- A text that there is room for has room for its indent. -/
theorem indent_le_of_size_wholeText {blocks : List Block} {lines : List Text}
    (filled : ∀ block ∈ blocks, block.pairs ≠ [])
    (room : (wholeText config blocks lines).size ≤ Text.capacity) :
    blocks = [] ∨ config.indent ≤ RenderConfig.widestIndent := by
  cases blocks with
  | nil => exact .inl rfl
  | cons block rest =>
      have part : (block.text config).Sublist (wholeText config (block :: rest) lines) :=
        Text.sublist_join _ (List.mem_append_left _ List.mem_cons_self)
      exact .inr (calc
        config.indent ≤ (block.text config).size :=
          Block.indent_le_size_text (filled block List.mem_cons_self)
        _ ≤ (wholeText config (block :: rest) lines).size := Text.size_le_of_sublist part
        _ ≤ RenderConfig.widestIndent := room)

/-- A pattern that segments write is shown in a built graph by the blocks of the nodes with
content that are reached from its nodes, each of them once in depth-first order, and then
by one line for each arrow, with the subjects of the nodes at its two ends. That is the text
wherever there is room for it, and there is no other; there is none where a block asks for
an indent that no text has room for. The blocks depend on the first occurrences of the nodes
alone. -/
theorem render?_of_read (built : graph.IsBuilt) {segments : List Segment}
    (accepted : read config segments = .ok pattern)
    (within : ∀ id, Segment.node id ∈ segments → graph.contains id = true) :
    ∃ ids blocks arrows lines,
      graph.Reaches (nodesOf segments) ids blocks ∧
      (∀ others,
        DrawnArrows config (symbols segments) (nodesOf segments) others ↔ others = arrows) ∧
      List.Forall₂ (fun arrow line => NodeArrow.line? graph arrow = some line) arrows lines ∧
      ((wholeText graph.config blocks lines).size ≤ Text.capacity →
        pattern.render? graph = some (wholeText graph.config blocks lines)) ∧
      (∀ text, pattern.render? graph = some text →
        text = wholeText graph.config blocks lines) ∧
      (blocks ≠ [] → RenderConfig.widestIndent < graph.config.indent →
        pattern.render? graph = none) ∧
      ∀ kept, kept.eraseDups = pattern.nodes.eraseDups →
        graph.blocksFrom? kept = graph.blocksFrom? pattern.nodes := by
  have formed := built.wellFormed
  obtain ⟨_, _, nodes⟩ := read_eq_ok_iff.mp accepted
  have issued : ∀ id ∈ pattern.nodes, id < graph.size := by
    intro id member
    rw [nodes, mem_nodesOf_iff] at member
    simpa [Graph.contains] using within id member
  obtain ⟨ids, blocks, reaches, texts⟩ := formed.exists_reaches issued
  have filled : ∀ block ∈ blocks, block.pairs ≠ [] :=
    formed.pairs_ne_nil reaches.written fun id member => (List.mem_filter.mp member).2
  obtain ⟨arrows, drawn, placed⟩ := exists_drawn_of_read accepted
  obtain ⟨lines, shown, written⟩ := exists_lines placed issued
  have rendered : pattern.render? graph =
      if blocks = [] ∨ graph.config.indent ≤ RenderConfig.widestIndent then
        some (wholeText graph.config blocks lines)
      else none := by
    rw [render?, texts, written, Block.mapM_text?_eq filled]
    split <;> rfl
  rw [nodes] at reaches
  refine ⟨ids, blocks, arrows, lines, reaches, drawn, shown, ?_, ?_, ?_, ?_⟩
  · intro room
    rw [rendered, if_pos (indent_le_of_size_wholeText filled room)]
  · intro text same
    rw [rendered] at same
    split at same
    · exact (Option.some.inj same).symm
    · cases same
  · intro nonempty wide
    rw [rendered, if_neg (by simp [nonempty, wide])]
  · exact fun kept same => formed.blocksFrom?_eq_of_eraseDups issued same

/-- Two nodes that link to each other, with an arrow that points back to the first of them,
then the first again and a node that nothing links to. -/
def tangled : List Segment :=
  [.node 1, .text ['<', '-', '[', '?', 'q', ']', '-'], .node 0, .text [','], .node 1, .node 2]

/-- The pattern of `tangled`. -/
def tangledPattern : ArrowPattern := ⟨[1, 0, 1, 2], [⟨1, ⟨['?', 'q']⟩, 0, .backward⟩]⟩

theorem render?_of_read_tangled :
    let graph := ((Session.fresh .standard).run Graph.entangled).1.graph
    (graph.IsBuilt ∧ read .standard tangled = .ok tangledPattern ∧
      ∀ id, Segment.node id ∈ tangled → graph.contains id = true) ∧
    ∃ ids blocks arrows lines,
      graph.Reaches (nodesOf tangled) ids blocks ∧
      (∀ others,
        DrawnArrows .standard (symbols tangled) (nodesOf tangled) others ↔ others = arrows) ∧
      List.Forall₂ (fun arrow line => NodeArrow.line? graph arrow = some line) arrows lines ∧
      ((wholeText graph.config blocks lines).size ≤ Text.capacity →
        tangledPattern.render? graph = some (wholeText graph.config blocks lines)) ∧
      (∀ text, tangledPattern.render? graph = some text →
        text = wholeText graph.config blocks lines) ∧
      (blocks ≠ [] → RenderConfig.widestIndent < graph.config.indent →
        tangledPattern.render? graph = none) ∧
      ∀ kept, kept.eraseDups = tangledPattern.nodes.eraseDups →
        graph.blocksFrom? kept = graph.blocksFrom? tangledPattern.nodes := by
  have built : ((Session.fresh .standard).run Graph.entangled).1.graph.IsBuilt :=
    ⟨.standard, Graph.entangled, rfl⟩
  have blank : Blank [] := fun _ member => nomatch member
  have within : Predicate .standard ['?', 'q'] ⟨['?', 'q']⟩ :=
    ⟨by decide, by decide, by decide +kernel, by decide⟩
  have arrow : Arrows .standard 0 (chars [] ++ arrowSymbols .backward ['?', 'q'] [] ++ [])
      [⟨1, ⟨['?', 'q']⟩, 0, .backward⟩] :=
    .arrow blank within blank (.none 1)
  have written : Written .standard 0 (symbols tangled) tangledPattern.edges :=
    .chain arrow (.layout (.inr (.inl rfl)) (.chain (.none 2) (.chain (.none 3) (.empty 4))))
  have accepted : read .standard tangled = .ok tangledPattern :=
    read_eq_ok_iff.mpr ⟨by decide, written, rfl⟩
  have issued : ∀ id, Segment.node id ∈ tangled →
      ((Session.fresh .standard).run Graph.entangled).1.graph.contains id = true := by
    intro id member
    rw [← mem_nodesOf_iff] at member
    revert id
    decide
  exact ⟨⟨built, accepted, issued⟩, render?_of_read built accepted issued⟩

/-- A node with a type, under an indent that is one wider than any that can be written. -/
def widened : Graph :=
  ((Session.fresh { indent := 9223372036854775808 }).run
    [.addNode ⟨['?', 'e']⟩, .edit 0 (.type ['?', 't'])]).1.graph

/-- A pattern has no text where the indent of a block cannot be written, even if its nodes
are nodes of the graph. -/
theorem render?_eq_none_widened :
    widened.IsBuilt ∧ read .standard [.node 0] = .ok ⟨[0], []⟩ ∧
      (∀ id, Segment.node id ∈ [Segment.node 0] → widened.contains id = true) ∧
      (⟨[0], []⟩ : ArrowPattern).render? widened = none := by
  have built : widened.IsBuilt := ⟨_, _, rfl⟩
  have accepted : read .standard [.node 0] = .ok ⟨[0], []⟩ :=
    read_eq_ok_iff.mpr ⟨by decide, .chain (.none 0) (.empty 1), rfl⟩
  have walked : widened.Walked [] [0] [0] := .fresh List.not_mem_nil rfl (.nil _)
  have missing : ([0].filter widened.hasContent).mapM widened.blockAt? = none := by
    decide +kernel
  refine ⟨built, accepted, ?_, ?_⟩
  · intro id member
    rw [← mem_nodesOf_iff] at member
    revert id
    decide
  · rw [render?, walked.blocksFrom?_eq built.wellFormed, missing]
    rfl

end ArrowPattern

end SparqlText
