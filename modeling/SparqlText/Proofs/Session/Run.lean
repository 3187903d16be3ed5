/-
# Runs of a session

What a run of a session does to its graph, whatever the steps are and whichever of
them fail. `Transition` says once what a step does to a session and what it is answered.
A step leaves the graph alone, adds a node, edits one or adds a statement: that much of
it is `Effect`, and the facts about runs follow by induction.

A graph is built where it is the graph of a session after some run from the
beginning. `subject?_run_fresh_iff` says which numbers such a graph has issued: those
that a step which creates a node was answered with, each with the subject of that step.
-/

import SparqlText.Proofs.Graph.WellFormed
import SparqlText.Session

namespace SparqlText

/-- The subject of the node that a step creates, if it creates one. -/
def Step.created? (config : RenderConfig) : Step → Option Term
  | .addNode held => some held
  | .describe text => (Description.read config text).toOption.map Description.subject
  | _ => none

namespace Session

/-- A session before its first step. -/
def fresh (config : RenderConfig) : Session := { graph := { config } }

/-- A step that creates a node with the given subject is answered with `id`. -/
def Issues (session : Session) (steps : List Step) (id : NodeId) (subject : Term) : Prop :=
  ∃ step, (step, Answer.node id) ∈ steps.zip (session.run steps).2 ∧
    step.created? session.graph.config = some subject

/-- The statement that a step puts into the graph, if it puts one there. -/
def adopted? (session : Session) : Step → Option Relationship
  | .adopt index => session.statements[index]?
  | _ => none

/-! ## One step -/

/-- What a step does to a session, and what it is answered. A step that is none of the
others, or that fails, does nothing. -/
inductive Transition (session : Session) : Step → Session → Answer → Prop
  | idle {step : Step} (answer : Answer)
      (creates : step.created? session.graph.config = none)
      (adopts : session.adopted? step = none) : Transition session step session answer
  | addNode (subject : Term) :
      Transition session (.addNode subject)
        (session.withGraph (session.graph.add { subject }).1) (.node session.graph.size)
  | describe {text : Text} {description : Description}
      (read : Description.read session.graph.config text = .ok description) :
      Transition session (.describe text)
        (session.withGraph
          (session.graph.add
            { subject := description.subject, types := description.types }).1)
        (.node session.graph.size)
  | edit {id : NodeId} {edit : Edit} {next : Graph}
      (edited : session.graph.edit id edit = .ok next) :
      Transition session (.edit id edit) (session.withGraph next) (.node id)
  | state {request : StatementRequest} {made : Relationship}
      (stated : session.statement request = .ok made) :
      Transition session (.state request)
        { session with statements := session.statements ++ [made] }
        (.statement session.statements.length)
  | qualify {index : Nat} {config : Option RenderConfig} {predicate : Text} {value : Value}
      {held made : Relationship} (found : session.statements[index]? = some held)
      (qualified :
        held.withPropertyUnder (config.getD held.config) predicate value = .ok made) :
      Transition session (.qualify index config predicate value)
        { session with statements := session.statements.set index made } (.statement index)
  | adopt {index : Nat} {held : Relationship} (found : session.statements[index]? = some held) :
      Transition session (.adopt index)
        (session.withGraph (session.graph.addRelationship held)) (.truth true)

/-- Describing a node adds it, or changes nothing. -/
theorem perform_describe (session : Session) (text : Text) :
    session.perform (.describe text) =
      match session.graph.describe text with
      | .error reason => (session, .failed reason)
      | .ok (graph, id) => (session.withGraph graph, .node id) := by
  rw [perform, action, onGraph_bind, (Graph.describeNode_traceless text).apply_eq,
    Graph.describe]
  cases (Graph.describeNode text).outcome session.graph <;> rfl

/-- An edit changes its node, or nothing. -/
theorem perform_edit (session : Session) (id : NodeId) (edit : Edit) :
    session.perform (.edit id edit) =
      match session.graph.edit id edit with
      | .error reason => (session, .failed reason)
      | .ok graph => (session.withGraph graph, .node id) := by
  rw [perform, action, onGraph_bind, (Graph.editNode_traceless id edit).apply_eq, Graph.edit]
  cases (Graph.editNode id edit).outcome session.graph <;> rfl

theorem transition_perform (session : Session) (step : Step) :
    Transition session step (session.perform step).1 (session.perform step).2 := by
  cases step with
  | addNode subject => exact .addNode subject
  | describe text =>
      rw [perform_describe, Graph.describe_eq]
      cases read : Description.read session.graph.config text with
      | error reason => exact .idle _ (by rw [Step.created?, read]; rfl) rfl
      | ok description => exact .describe read
  | edit id edit =>
      rw [perform_edit]
      cases edited : session.graph.edit id edit with
      | error reason => exact .idle _ rfl rfl
      | ok next => exact .edit edited
  | pattern request =>
      rw [perform, action, Action.get_bind, Action.ofExcept_bind]
      cases Pattern.answer session.graph.config request <;> exact .idle _ rfl rfl
  | state request =>
      rw [perform, action, Action.get_bind, Action.ofExcept_bind]
      cases stated : session.statement request with
      | error reason => exact .idle _ rfl rfl
      | ok made => exact .state stated
  | qualify index config predicate value =>
      rw [perform, action, onStatement_apply]
      cases found : session.statements[index]? with
      | none => exact .idle _ rfl rfl
      | some held =>
          dsimp only
          rw [Action.ofExcept_bind]
          cases qualified :
              held.withPropertyUnder (config.getD held.config) predicate value with
          | error reason => exact .idle _ rfl rfl
          | ok made => exact .qualify found qualified
  | display index config =>
      rw [perform, action, onStatement_apply]
      cases session.statements[index]? <;> exact .idle _ rfl rfl
  | same first second =>
      rw [perform, action, onStatement_apply]
      cases session.statements[first]? with
      | none => exact .idle _ rfl rfl
      | some held =>
          dsimp only
          rw [onStatement_apply]
          cases session.statements[second]? <;> exact .idle _ rfl rfl
  | adopt index =>
      rw [perform, action, onStatement_apply]
      cases found : session.statements[index]? with
      | none => exact .idle _ rfl (by rw [adopted?, found])
      | some held => exact .adopt found
  | arrows segments own =>
      rw [perform, action, Action.get_bind, Action.ofExcept_bind]
      cases ArrowPattern.read (if own then session.graph.config else .standard) segments <;>
        exact .idle _ rfl rfl
  | _ => exact .idle _ rfl rfl

/-- What a step does to the graph of a session, and what it is answered. -/
inductive Effect (session : Session) (step : Step) : Graph → Answer → Prop
  | same (answer : Answer) (creates : step.created? session.graph.config = none) :
      Effect session step session.graph answer
  | add (node : Node) (bare : node.groups = [])
      (creates : step.created? session.graph.config = some node.subject) :
      Effect session step (session.graph.add node).1 (.node session.graph.size)
  | edit {next : Graph} (id : NodeId) (edit : Edit)
      (edited : session.graph.edit id edit = .ok next)
      (creates : step.created? session.graph.config = none) :
      Effect session step next (.node id)
  | adopt (relationship : Relationship)
      (creates : step.created? session.graph.config = none) :
      Effect session step (session.graph.addRelationship relationship) (.truth true)

theorem Transition.effect {session next : Session} {step : Step} {answer : Answer}
    (transition : Transition session step next answer) :
    Effect session step next.graph answer := by
  cases transition with
  | idle answer creates _ => exact .same answer creates
  | addNode subject => exact .add { subject } rfl rfl
  | @describe text description read =>
      exact .add { subject := description.subject, types := description.types } rfl
        (by rw [Step.created?, read]; rfl)
  | edit edited => exact .edit _ _ edited rfl
  | state _ => exact .same _ rfl
  | qualify _ _ => exact .same _ rfl
  | adopt _ => exact .adopt _ rfl

theorem effect_perform (session : Session) (step : Step) :
    Effect session step (session.perform step).1.graph (session.perform step).2 :=
  (session.transition_perform step).effect

namespace Effect

variable {session : Session} {step : Step} {next : Graph} {answer : Answer}

theorem wellFormed (effect : Effect session step next answer)
    (formed : session.graph.WellFormed) : next.WellFormed := by
  cases effect with
  | same answer creates => exact formed
  | add node bare creates => exact formed.add bare
  | edit id edit edited creates => exact formed.edit edited
  | adopt relationship creates => exact formed

theorem config_eq (effect : Effect session step next answer) :
    next.config = session.graph.config := by
  cases effect with
  | same answer creates => rfl
  | add node bare creates => rfl
  | edit id edit edited creates =>
      obtain ⟨_, update, _, rfl⟩ := Graph.edit_eq_ok edited
      rfl
  | adopt relationship creates => rfl

/-- The graph has the subjects that it had, and that of the node that was created. -/
theorem subject?_iff (effect : Effect session step next answer) (id : NodeId)
    (subject : Term) :
    next.subject? id = some subject ↔ session.graph.subject? id = some subject ∨
      (answer = .node id ∧ step.created? session.graph.config = some subject) := by
  cases effect with
  | same answer creates => simp [creates]
  | edit target edit edited creates => simp [creates, Graph.subject?_edit edited]
  | adopt relationship creates =>
      rw [creates]
      simp [Graph.subject?, Graph.addRelationship]
  | add node bare creates =>
      rw [creates]
      rcases Nat.lt_trichotomy id session.graph.size with within | rfl | beyond
      · rw [Graph.subject?_add_of_lt within]
        simp only [Answer.node.injEq]
        constructor
        · exact Or.inl
        · rintro (held | ⟨rfl, _⟩)
          · exact held
          · exact absurd within (Nat.lt_irrefl _)
      · rw [Graph.subject?_add_size,
          (Graph.subject?_eq_none_iff session.graph session.graph.size).mpr (Nat.le_refl _)]
        simp
      · have missing : (session.graph.add node).1.subject? id = none := by
          rw [Graph.subject?_eq_none_iff, Graph.size_add]
          exact beyond
        rw [missing, (Graph.subject?_eq_none_iff session.graph id).mpr (Nat.le_of_lt beyond)]
        simp only [reduceCtorEq, Answer.node.injEq, false_or, false_iff, not_and]
        intro same
        subst same
        exact absurd beyond (Nat.lt_irrefl _)

end Effect

/-! ## Runs -/

theorem run_cons (session : Session) (step : Step) (rest : List Step) :
    session.run (step :: rest) =
      (((session.perform step).1.run rest).1,
        (session.perform step).2 :: ((session.perform step).1.run rest).2) := rfl

theorem wellFormed_run (session : Session) (steps : List Step)
    (formed : session.graph.WellFormed) : (session.run steps).1.graph.WellFormed := by
  induction steps generalizing session with
  | nil => exact formed
  | cons step rest ih =>
      rw [run_cons]
      exact ih _ ((effect_perform session step).wellFormed formed)

theorem config_run (session : Session) (steps : List Step) :
    (session.run steps).1.graph.config = session.graph.config := by
  induction steps generalizing session with
  | nil => rfl
  | cons step rest ih =>
      rw [run_cons, ih]
      exact (effect_perform session step).config_eq

theorem issues_cons (session : Session) (step : Step) (rest : List Step) (id : NodeId)
    (subject : Term) :
    session.Issues (step :: rest) id subject ↔
      ((session.perform step).2 = .node id ∧
          step.created? session.graph.config = some subject) ∨
        (session.perform step).1.Issues rest id subject := by
  simp only [Issues, run_cons, List.zip_cons_cons, List.mem_cons, Prod.mk.injEq,
    (effect_perform session step).config_eq]
  constructor
  · rintro ⟨other, ⟨rfl, answer⟩ | later, creates⟩
    · exact Or.inl ⟨answer.symm, creates⟩
    · exact Or.inr ⟨other, later, creates⟩
  · rintro (⟨answer, creates⟩ | ⟨other, later, creates⟩)
    · exact ⟨step, Or.inl ⟨rfl, answer.symm⟩, creates⟩
    · exact ⟨other, Or.inr later, creates⟩

/-- After a run the graph has the subjects that it had and those that were issued. -/
theorem subject?_run_iff (session : Session) (steps : List Step) (id : NodeId)
    (subject : Term) :
    (session.run steps).1.graph.subject? id = some subject ↔
      session.graph.subject? id = some subject ∨ session.Issues steps id subject := by
  induction steps generalizing session with
  | nil => simp [run, Issues]
  | cons step rest ih =>
      rw [run_cons, ih, (effect_perform session step).subject?_iff, issues_cons, or_assoc]

/-! ## From the beginning -/

theorem wellFormed_run_fresh (config : RenderConfig) (steps : List Step) :
    ((fresh config).run steps).1.graph.WellFormed :=
  wellFormed_run _ _ (Graph.wellFormed_of_nodes_eq_nil rfl)

theorem config_run_fresh (config : RenderConfig) (steps : List Step) :
    ((fresh config).run steps).1.graph.config = config :=
  config_run (fresh config) steps

theorem subject?_run_fresh_iff (config : RenderConfig) (steps : List Step) (id : NodeId)
    (subject : Term) :
    ((fresh config).run steps).1.graph.subject? id = some subject ↔
      (fresh config).Issues steps id subject := by
  rw [subject?_run_iff]
  simp [Graph.subject?, fresh]

end Session

/-- The graph of a session after some run from the beginning. -/
def Graph.IsBuilt (graph : Graph) : Prop :=
  ∃ config steps, graph = ((Session.fresh config).run steps).1.graph

theorem Graph.IsBuilt.wellFormed {graph : Graph} (built : graph.IsBuilt) :
    graph.WellFormed := by
  obtain ⟨config, steps, rfl⟩ := built
  exact Session.wellFormed_run_fresh config steps

end SparqlText
