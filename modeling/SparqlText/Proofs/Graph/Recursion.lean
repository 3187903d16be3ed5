/-
# Flattening as a recursion

Flattening takes nodes from a stack: a node that has been visited is dropped, and for any
other the nodes that it links to are put in front of what is left. The stack may hold a node
many times over, since a node is marked when it is taken and not when it is put there.

The same is said by recursion (`visit?_eq`): a node that has been visited is passed over;
any other is marked, its block is written, and the nodes that it links to are visited one
after the other, each with all that was marked before it. What is left on the stack has to
wait for that (`flattenStack?_append`), so both do the same from any beginning.
-/

import SparqlText.Proofs.Graph.Flatten

namespace SparqlText.Graph

variable {graph : Graph}

/-! ## Progress -/

/-- The nodes that have been visited, the last one first, and the blocks that have been
written. -/
structure Progress where
  visited : List NodeId := []
  blocks : List Text := []

/-- A further node has been visited, and its block is written unless it is empty. -/
def Progress.mark (progress : Progress) (id : NodeId) (block : Text) : Progress where
  visited := id :: progress.visited
  blocks := progress.blocks ++ [block].filter fun block => !block.isEmpty

/-- Flatten what is on a stack: what a walk from there visits has been visited, and its blocks
are written behind the others. -/
def flattenStack? (graph : Graph) (progress : Progress) (stack : List NodeId) :
    Option Progress := do
  let ids ← graph.walk? progress.visited stack
  let blocks ← graph.blocks? ids
  return ⟨ids.reverse ++ progress.visited, progress.blocks ++ blocks⟩

/-! ## The recursion -/

/-- Visited nodes stay visited. -/
abbrev Later (progress : Progress) : Type :=
  { after : Progress // progress.visited ⊆ after.visited }

/-- The more nodes have been visited, the fewer are left. -/
theorem unvisited_le {visited more : List NodeId} (grown : visited ⊆ more) :
    graph.unvisited more ≤ graph.unvisited visited := by
  apply List.countP_mono_left
  intro id _ fresh
  simp only [Bool.not_eq_true', List.contains_eq_mem, decide_eq_false_iff_not] at fresh ⊢
  exact fun seen => fresh (grown seen)

mutual

/-- Visit one node and what is new under it. -/
def descend (graph : Graph) (progress : Progress) (id : NodeId) : Option (Later progress) :=
  if _seen : id ∈ progress.visited then some ⟨progress, List.Subset.refl _⟩
  else
    match _found : graph.nodes[id]? with
    | none => none
    | some node =>
        match graph.block? node with
        | none => none
        | some block =>
            (descendAll graph (progress.mark id block) node.links).map fun after =>
              ⟨after.1, fun _ member => after.2 (List.mem_cons_of_mem id member)⟩
termination_by (graph.unvisited progress.visited, 0)
decreasing_by
  apply Prod.Lex.left
  exact unvisited_cons_lt graph _seen (List.getElem?_eq_some_iff.mp _found).1

/-- Visit nodes one after the other. -/
def descendAll (graph : Graph) (progress : Progress) : List NodeId → Option (Later progress)
  | [] => some ⟨progress, List.Subset.refl _⟩
  | id :: rest =>
      match descend graph progress id with
      | none => none
      | some middle =>
          (descendAll graph middle.1 rest).map fun after =>
            ⟨after.1, List.Subset.trans middle.2 after.2⟩
termination_by ids => (graph.unvisited progress.visited, ids.length + 1)
decreasing_by
  · apply Prod.Lex.right
    exact Nat.zero_lt_succ _
  · have kept : graph.unvisited middle.1.visited ≤ graph.unvisited progress.visited :=
      unvisited_le middle.2
    rcases Nat.lt_or_eq_of_le kept with fewer | same
    · exact Prod.Lex.left _ _ fewer
    · rw [same]
      apply Prod.Lex.right
      exact Nat.lt_succ_self _

end

/-- Progress after a visit to one node and to what is new under it, if the nodes are in the
graph and their blocks can be written. -/
def visit? (graph : Graph) (progress : Progress) (id : NodeId) : Option Progress :=
  (graph.descend progress id).map Subtype.val

theorem map_descendAll (progress : Progress) (ids : List NodeId) :
    (graph.descendAll progress ids).map Subtype.val = ids.foldlM graph.visit? progress := by
  induction ids generalizing progress with
  | nil => rw [descendAll]; rfl
  | cons id rest ih =>
      rw [descendAll, List.foldlM_cons, visit?]
      cases graph.descend progress id with
      | none => rfl
      | some middle =>
          rw [Option.map_map]
          exact ih middle.1

/-- A visit to a node, as the recursion that it is. -/
theorem visit?_eq (progress : Progress) (id : NodeId) :
    graph.visit? progress id =
      if id ∈ progress.visited then some progress
      else (do
        let node ← graph.nodes[id]?
        let block ← graph.block? node
        node.links.foldlM graph.visit? (progress.mark id block)) := by
  rw [visit?, descend]
  split
  case isTrue => rfl
  case isFalse =>
    split
    case h_1 missing => rw [missing]; rfl
    case h_2 node found =>
      rw [found, Option.bind_eq_bind, Option.bind_some]
      cases graph.block? node with
      | none => rfl
      | some block =>
          rw [Option.map_map]
          exact map_descendAll (progress.mark id block) node.links

/-- What was visited before a visit is visited after it. -/
theorem visited_subset_of_foldlM {progress after : Progress} {ids : List NodeId}
    (visited : ids.foldlM graph.visit? progress = some after) :
    progress.visited ⊆ after.visited := by
  rw [← map_descendAll, Option.map_eq_some_iff] at visited
  obtain ⟨later, -, rfl⟩ := visited
  exact later.2

/-! ## One step of the stack -/

theorem flattenStack?_nil (progress : Progress) :
    graph.flattenStack? progress [] = some progress := by
  rw [flattenStack?, walk?_nil]
  simp [blocks?]

theorem flattenStack?_of_mem {progress : Progress} {id : NodeId}
    (seen : id ∈ progress.visited) (rest : List NodeId) :
    graph.flattenStack? progress (id :: rest) = graph.flattenStack? progress rest := by
  rw [flattenStack?, walk?_cons_of_mem seen, flattenStack?]

/-- The blocks of nodes, the first one apart. -/
theorem blocks?_cons (id : NodeId) (rest : List NodeId) :
    graph.blocks? (id :: rest) = (do
      let block ← graph.blockAt? id
      let blocks ← graph.blocks? rest
      return ([block].filter fun block => !block.isEmpty) ++ blocks) := by
  rw [blocks?, blocks?, List.mapM_cons]
  cases graph.blockAt? id with
  | none => rfl
  | some block =>
      cases rest.mapM graph.blockAt? with
      | none => rfl
      | some blocks =>
          have apart : (block :: blocks).filter (fun block => !block.isEmpty) =
              [block].filter (fun block => !block.isEmpty) ++
                blocks.filter fun block => !block.isEmpty :=
            List.filter_append [block] blocks
          exact congrArg some apart

/-- Any other node is marked, and its links come before what is left. -/
theorem flattenStack?_of_not_mem {progress : Progress} {id : NodeId}
    (fresh : id ∉ progress.visited) (rest : List NodeId) :
    graph.flattenStack? progress (id :: rest) = (do
      let node ← graph.nodes[id]?
      let block ← graph.block? node
      graph.flattenStack? (progress.mark id block) (node.links ++ rest)) := by
  cases found : graph.nodes[id]? with
  | none =>
      rw [flattenStack?, walk?_cons_eq_none fresh found]
      rfl
  | some node =>
      have own : graph.blockAt? id = graph.block? node := by rw [blockAt?, found]; rfl
      rw [flattenStack?, walk?_cons_of_not_mem fresh found]
      show _ = (graph.block? node).bind fun block =>
        graph.flattenStack? (progress.mark id block) (node.links ++ rest)
      cases written : graph.block? node with
      | none =>
          cases graph.walk? (id :: progress.visited) (node.links ++ rest) with
          | none => rfl
          | some ids => simp [blocks?_cons, own, written]
      | some block =>
          rw [Option.bind_some, flattenStack?, Progress.mark]
          cases graph.walk? (id :: progress.visited) (node.links ++ rest) with
          | none => rfl
          | some ids =>
              simp only [Option.map_some, Option.bind_eq_bind, Option.bind_some, blocks?_cons,
                own, written]
              cases graph.blocks? ids with
              | none => rfl
              | some blocks => simp

/-! ## The stack and the recursion -/

/-- What is in front on the stack is visited, and then what is left is flattened past all of
that. -/
theorem flattenStack?_append (progress : Progress) (ids rest : List NodeId) :
    graph.flattenStack? progress (ids ++ rest) =
      (ids.foldlM graph.visit? progress).bind fun after => graph.flattenStack? after rest := by
  -- By induction on the number of nodes that have not been visited, and for as long as that
  -- stays the same on what is in front.
  induction size : graph.unvisited progress.visited using Nat.strongRecOn
    generalizing progress ids rest with
  | ind bound fewer =>
      induction ids with
      | nil => rfl
      | cons id ids ih =>
          rw [List.cons_append, List.foldlM_cons, visit?_eq]
          by_cases seen : id ∈ progress.visited
          · rw [flattenStack?_of_mem seen, if_pos seen, ih]
            rfl
          · rw [flattenStack?_of_not_mem seen, if_neg seen]
            cases found : graph.nodes[id]? with
            | none => rfl
            | some node =>
                simp only [Option.bind_eq_bind, Option.bind_some, Option.bind_assoc]
                congr 1
                funext block
                have less : graph.unvisited (progress.mark id block).visited < bound :=
                  size ▸ unvisited_cons_lt graph seen (List.getElem?_eq_some_iff.mp found).1
                rw [fewer _ less _ _ _ rfl]
                cases under : node.links.foldlM graph.visit? (progress.mark id block) with
                | none => rfl
                | some after =>
                    have grown := visited_subset_of_foldlM under
                    have further : graph.unvisited after.visited < bound :=
                      Nat.lt_of_le_of_lt (unvisited_le grown) less
                    exact fewer _ further _ _ _ rfl

/-- Flattening a stack visits what is on it, one after the other. -/
theorem flattenStack?_eq_foldlM (progress : Progress) (stack : List NodeId) :
    graph.flattenStack? progress stack = stack.foldlM graph.visit? progress := by
  have whole : graph.flattenStack? progress (stack ++ []) = _ :=
    flattenStack?_append progress stack []
  rw [List.append_nil] at whole
  rw [whole]
  calc
    _ = (stack.foldlM graph.visit? progress).bind some := by
      congr 1
      funext after
      exact flattenStack?_nil after
    _ = stack.foldlM graph.visit? progress := Option.bind_fun_some _

/-- The blocks that are reached from roots are what flattening them writes from the
beginning. -/
theorem blocksFrom?_eq_flattenStack? (graph : Graph) (roots : List NodeId) :
    graph.blocksFrom? roots = (graph.flattenStack? {} roots).map Progress.blocks := by
  rw [blocksFrom?, flattenStack?]
  cases graph.walk? [] roots with
  | none => rfl
  | some ids =>
      rw [Option.bind_some, Option.bind_eq_bind, Option.bind_some]
      cases graph.blocks? ids <;> rfl

/-- What flattening visits in addition is what is reached from the stack by links that avoid
all that was visited before. -/
theorem mem_visited_iff {progress after : Progress} {stack : List NodeId}
    (flattened : graph.flattenStack? progress stack = some after) (id : NodeId) :
    id ∈ after.visited ↔ id ∈ progress.visited ∨
      ∃ root ∈ stack, root ∉ progress.visited ∧
        Relation.ReflTransGen (graph.LinksOutside progress.visited) root id := by
  rw [flattenStack?] at flattened
  obtain ⟨ids, walked, flattened⟩ := Option.bind_eq_some_iff.mp flattened
  obtain ⟨blocks, -, same⟩ := Option.bind_eq_some_iff.mp flattened
  cases same
  rw [List.mem_append, List.mem_reverse, (walked_of_walk? _ _ walked).mem_iff, or_comm]

/-- Where the indent can be written, nodes of a well-formed graph can be flattened. -/
theorem WellFormed.flattenStack?_isSome (formed : graph.WellFormed)
    (writable : graph.config.indentation?.isSome = true) (progress : Progress)
    {stack : List NodeId} (within : ∀ root ∈ stack, root < graph.size) :
    (graph.flattenStack? progress stack).isSome = true := by
  obtain ⟨ids, walked⟩ := exists_walked formed.links_lt progress.visited stack within
  obtain ⟨blocks, written⟩ :=
    Option.isSome_iff_exists.mp (blocks?_isSome writable walked.lt_size)
  simp [flattenStack?, walked.walk?_eq, written]

/-- From any nodes that have been visited and any blocks that have been written, flattening a
node of a well-formed graph by a stack does what visiting it by recursion does. It ends
wherever the indent can be written; its blocks come behind those that were there, and what has
been visited in the end is what had been, and all that is reached from the node by a path that
avoids it. The blocks of a whole list of nodes, each once, are those of their visits one after
the other. -/
theorem flattenStack?_eq_visit? (formed : graph.WellFormed) (progress : Progress)
    (root : NodeId) :
    graph.flattenStack? progress [root] = graph.visit? progress root ∧
    (graph.contains root = true → graph.config.indentation?.isSome = true →
      (graph.visit? progress root).isSome = true) ∧
    (∀ after, graph.visit? progress root = some after →
      progress.blocks <+: after.blocks ∧
      ∀ id, id ∈ after.visited ↔ id ∈ progress.visited ∨
        (root ∉ progress.visited ∧
          Relation.ReflTransGen (graph.LinksOutside progress.visited) root id)) ∧
    ∀ roots, graph.blocksFrom? roots =
      (roots.foldlM graph.visit? {}).map Progress.blocks := by
  have same : graph.flattenStack? progress [root] = graph.visit? progress root := by
    rw [flattenStack?_eq_foldlM, List.foldlM_cons]
    exact Option.bind_fun_some _
  refine ⟨same, ?_, ?_, ?_⟩
  · intro issued writable
    have within : root < graph.size := of_decide_eq_true issued
    rw [← same]
    exact formed.flattenStack?_isSome writable progress (by simpa using within)
  · intro after visited
    rw [← same] at visited
    constructor
    · obtain ⟨ids, -, flattened⟩ := Option.bind_eq_some_iff.mp visited
      obtain ⟨blocks, -, whole⟩ := Option.bind_eq_some_iff.mp flattened
      cases whole
      exact List.prefix_append _ _
    · intro id
      rw [mem_visited_iff visited]
      simp
  · intro roots
    rw [blocksFrom?_eq_flattenStack?, flattenStack?_eq_foldlM]

/-- Two ways that lead from the first node to the last, which links back to the first. -/
def diamond : List Step :=
  [.addNode ⟨['?', 'a']⟩, .addNode ⟨['?', 'b']⟩, .addNode ⟨['?', 'c']⟩, .addNode ⟨['?', 'd']⟩,
    .edit 0 (.link ['p'] 1), .edit 0 (.link ['p'] 2), .edit 1 (.link ['q'] 3),
    .edit 2 (.link ['q'] 3), .edit 3 (.link ['r'] 0)]

theorem flattenStack?_eq_visit?_diamond :
    let graph := ((Session.fresh .standard).run diamond).1.graph
    let progress : Progress := ⟨[2], [['?', 'c', ' ', '.']]⟩
    graph.WellFormed ∧
      graph.flattenStack? progress [0] = graph.visit? progress 0 ∧
      (graph.visit? progress 0).isSome = true ∧
      (∀ after, graph.visit? progress 0 = some after →
        progress.blocks <+: after.blocks ∧
        ∀ id, id ∈ after.visited ↔ id ∈ progress.visited ∨
          (0 ∉ progress.visited ∧
            Relation.ReflTransGen (graph.LinksOutside progress.visited) 0 id)) ∧
      ∀ roots, graph.blocksFrom? roots =
        (roots.foldlM graph.visit? {}).map Progress.blocks := by
  intro graph progress
  have formed : graph.WellFormed := Session.wellFormed_run_fresh .standard diamond
  obtain ⟨same, ends, reached, whole⟩ := flattenStack?_eq_visit? formed progress 0
  exact ⟨formed, same, ends (by decide +kernel) (by decide +kernel), reached, whole⟩

example : ((Session.fresh .standard).run diamond).1.graph.walk? [] [0] = some [0, 1, 3, 2] := by
  cbv

end SparqlText.Graph
