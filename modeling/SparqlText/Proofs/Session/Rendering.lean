/-
# Writing a whole graph

What is written of the graph of a session: the block of every node that has a type or a
property, in the order of a depth-first forest from the first node on, and then every
statement that was put into the graph, in the order in which that was done. No block
is missing or written twice, so the blocks together say every entry of the graph as often
as it is stored.
-/

import SparqlText.Proofs.Graph.Flatten
import SparqlText.Proofs.Graph.Forest
import SparqlText.Proofs.Graph.Triples

namespace SparqlText

namespace Session

/-! ## Statements of the graph -/

/-- The statements that a run puts into the graph, in order. -/
def adopted (session : Session) : List Step → List Relationship
  | [] => []
  | step :: rest =>
      (session.adopted? step).toList ++ (session.perform step).1.adopted rest

/-- A step adds the statement that it puts into the graph, and no other. -/
theorem Transition.relationships_eq {session next : Session} {step : Step} {answer : Answer}
    (transition : Transition session step next answer) :
    next.graph.relationships =
      session.graph.relationships ++ (session.adopted? step).toList := by
  cases transition with
  | idle _ _ adopts => simp [adopts]
  | addNode subject => simp [adopted?, withGraph, Graph.add]
  | describe read => simp [adopted?, withGraph, Graph.add]
  | edit edited =>
      obtain ⟨_, update, _, rfl⟩ := Graph.edit_eq_ok edited
      simp [adopted?, withGraph, Graph.change]
  | state _ => simp [adopted?]
  | qualify _ _ => simp [adopted?]
  | adopt found => simp [adopted?, found, withGraph, Graph.addRelationship]

theorem relationships_run (session : Session) (steps : List Step) :
    (session.run steps).1.graph.relationships =
      session.graph.relationships ++ session.adopted steps := by
  induction steps generalizing session with
  | nil => simp [run, adopted]
  | cons step rest ih => rw [run_cons, ih, (session.transition_perform step).relationships_eq, adopted,
        List.append_assoc]

theorem relationships_run_fresh (config : RenderConfig) (steps : List Step) :
    ((fresh config).run steps).1.graph.relationships = (fresh config).adopted steps :=
  relationships_run (fresh config) steps

end Session

namespace Graph

/-- A walk from every node of a closed graph visits all nodes of the graph, each once. -/
theorem Walked.perm_range {graph : Graph} {ids : List NodeId}
    (walked : graph.Walked [] (List.range graph.size) ids) :
    ids.Perm (List.range graph.size) := by
  apply (List.perm_ext_iff_of_nodup walked.nodup List.nodup_range).mpr
  intro id
  constructor
  · exact fun among => List.mem_range.mpr (walked.lt_size id among)
  · exact fun within => (walked.closed.1 id within).resolve_left List.not_mem_nil

end Graph

namespace Session

/-- The text of a graph after any run is the texts of blocks and then those of statements,
on lines of their own. The blocks are those of the nodes with a type or a property, each
node once, in the one order that a depth-first forest from the nodes in order of number
has; the statements are those that the run put into the graph, in that order. The
triples that the blocks say are the entries that the graph stores, each as often as it is
stored, with a node that is held shown by its subject. There is a text wherever the
indent can be written. -/
theorem render_run_fresh (config : RenderConfig) (steps : List Step) :
    let graph := ((fresh config).run steps).1.graph
    ∃ ids blocks,
      graph.Forest [] (List.range graph.size) ids ∧
      (∀ others, graph.Forest [] (List.range graph.size) others → others = ids) ∧
      ids.Perm (List.range graph.size) ∧
      graph.BlocksOf (ids.filter graph.hasContent) blocks ∧
      graph.render? = (do
        let texts ← blocks.mapM (Block.text? config)
        let statements ← ((fresh config).adopted steps).mapM (Relationship.render? config)
        return Graph.joined (texts ++ statements)) ∧
      ((blocks.flatMap Block.triples).map some).Perm (graph.entries.map graph.triple?) ∧
      (config.indentation?.isSome = true → graph.render?.isSome = true) := by
  intro graph
  have formed : graph.WellFormed := wellFormed_run_fresh config steps
  have settled : graph.config = config := config_run_fresh config steps
  have put : graph.relationships = (fresh config).adopted steps :=
    relationships_run_fresh config steps
  obtain ⟨ids, walked⟩ := Graph.exists_walked formed.links_lt [] (List.range graph.size)
    fun _ among => List.mem_range.mp among
  have all := walked.perm_range
  have within : ∀ id ∈ ids.filter graph.hasContent, id < graph.size :=
    fun id among => walked.lt_size id (List.mem_filter.mp among).1
  obtain ⟨blocks, taken⟩ := Graph.exists_blocksOf within
  refine ⟨ids, blocks, walked.forest, fun others forest => forest.unique walked.forest, all,
    taken, ?_, Graph.perm_entries formed all taken, ?_⟩
  · rw [Graph.render?, walked.blocksFrom?_eq formed, taken.mapM_blockAt?_eq, settled, put]
  · exact fun writable => formed.render?_isSome (settled ▸ writable)

end Session

end SparqlText
