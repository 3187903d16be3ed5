/-
# What a run cannot break

The graph of a session is well formed after every run, and every number that it has
issued still stands for the subject that it was issued with. Hence an operation on
an issued number never fails for want of the node, and an operation on any other
number always does.
-/

import SparqlText.Proofs.Graph.Flatten

namespace SparqlText

/-! ## Conversions and foreign nodes -/

mutual

/-- No value is refused because of a node. -/
theorem toTerm_ne_foreignNode (config : RenderConfig) (strict : Bool) (id : NodeId) :
    ∀ value : Value, value.toTerm config strict ≠ .error (.foreignNode id)
  | .null => by cases strict <;> simp [Value.toTerm]
  | .string _ => by simp [Value.toTerm]
  | .boolean _ => by simp [Value.toTerm]
  | .integer _ => by simp [Value.toTerm]
  | .number value => by
      rw [Value.toTerm]
      cases Value.numberTerm value <;> simp
  | .timestamp value => by
      rw [Value.toTerm]
      cases Value.timestampTerm value <;> simp
  | .array [] => by simp [Value.toTerm]
  | .array (first :: rest) => by
      have items := itemTexts_ne_foreignNode config strict id (first :: rest)
      rw [Value.toTerm]
      · split
        · rename_i failed
          rw [failed] at items
          simpa using items
        · simp
      · simp
  | .record [] => by simp [Value.toTerm]
  | .record (first :: rest) => by
      have entries := entryTexts_ne_foreignNode config strict id (first :: rest)
      rw [Value.toTerm]
      · split
        · rename_i failed
          rw [failed] at entries
          simpa using entries
        · simp
      · simp
  | .term _ => by simp [Value.toTerm]

theorem itemTexts_ne_foreignNode (config : RenderConfig) (strict : Bool) (id : NodeId) :
    ∀ items : List Value, Value.itemTexts config strict items ≠ .error (.foreignNode id)
  | [] => by simp [Value.itemTexts]
  | item :: rest => by
      have first := toTerm_ne_foreignNode config strict id item
      have later := itemTexts_ne_foreignNode config strict id rest
      rw [Value.itemTexts]
      split
      · rename_i failed
        rw [failed] at first
        simpa using first
      · split
        · rename_i failed
          rw [failed] at later
          simpa using later
        · simp

theorem entryTexts_ne_foreignNode (config : RenderConfig) (strict : Bool) (id : NodeId) :
    ∀ entries : List (Key × Value),
      Value.entryTexts config strict entries ≠ .error (.foreignNode id)
  | [] => by simp [Value.entryTexts]
  | (key, value) :: rest => by
      have object := toTerm_ne_foreignNode config strict id value
      have later := entryTexts_ne_foreignNode config strict id rest
      rw [Value.entryTexts]
      cases Value.keyTerm config key with
      | error reason => simp
      | ok predicate =>
          simp only [orRefused_ok]
          split
          · rename_i failed
            rw [failed] at object
            simpa using object
          · split
            · rename_i failed
              rw [failed] at later
              simpa using later
            · simp

end

namespace Graph

theorem convertedValues_ne_foreignNode (config : RenderConfig) (id : NodeId)
    (values : List Value) : Pattern.convertedValues config values ≠ .error (.foreignNode id) := by
  induction values with
  | nil => simp [Pattern.convertedValues]
  | cons value rest ih =>
      have first := toTerm_ne_foreignNode config config.strictNulls id value
      rw [Pattern.convertedValues, Value.toConfiguredTerm]
      split
      · rename_i failed
        rw [failed] at first
        simpa using first
      · split
        · rename_i failed
          rw [failed] at ih
          simpa using ih
        · simp

theorem update_ne_foreignNode (graph : Graph) (edit : Edit) (id : NodeId) :
    graph.update edit ≠ .error (.foreignNode id) := by
  cases edit with
  | type type =>
      rw [update]
      split <;> simp
  | property predicate value =>
      have values := convertedValues_ne_foreignNode graph.config id value.elements
      rw [update]
      split
      · simp
      · rw [heldTerms]
        cases converted : Pattern.convertedValues graph.config value.elements with
        | error reason =>
            rw [converted] at values
            simpa using values
        | ok terms => simp
  | link predicate target =>
      rw [update]
      split
      · split <;> simp
      · simp

/-- An edit fails for want of the node exactly where the graph has not issued its
number. -/
theorem edit_eq_foreignNode_iff (graph : Graph) (id other : NodeId) (edit : Edit) :
    graph.edit id edit = .error (.foreignNode other) ↔ graph.size ≤ id ∧ other = id := by
  rw [edit_eq]
  by_cases present : id < graph.size
  · have nothing := graph.update_ne_foreignNode edit other
    rw [if_pos (by simpa [contains] using present)]
    cases result : graph.update edit with
    | error reason =>
        rw [result] at nothing
        simp only [ne_eq, Except.error.injEq] at nothing ⊢
        simp [nothing, Nat.not_le.mpr present]
    | ok update => simp [Nat.not_le.mpr present]
  · rw [if_neg (by simpa [contains] using present)]
    simp [eq_comm, Nat.le_of_not_lt present]

end Graph

namespace Session

/-! ## Runs -/

/-- After any run every link is to a node that the run has issued, a node has one group
for each of its predicates, and no group is empty; an issued number has the subject that
it was issued with, can be edited and, like the whole graph, can be written where the
indent can. A number that was not issued has no subject and no text and cannot be
edited. -/
theorem invariant_run_fresh (config : RenderConfig) (steps : List Step) :
    let issues := (fresh config).Issues steps
    let graph := ((fresh config).run steps).1.graph
    (∀ node ∈ graph.nodes, ∀ group ∈ node.groups, ∀ target,
      Held.node target ∈ group.held → ∃ subject, issues target subject) ∧
    (∀ node ∈ graph.nodes, (node.groups.map Group.predicate).Nodup ∧
      ∀ group ∈ node.groups, group.held ≠ []) ∧
    (∀ id subject, issues id subject → graph.subject? id = some subject ∧
      (∀ edit other, graph.edit id edit ≠ .error (.foreignNode other)) ∧
      (config.indentation?.isSome = true → (graph.flatten? id).isSome = true)) ∧
    (config.indentation?.isSome = true → graph.render?.isSome = true) ∧
    (∀ id, (∀ subject, ¬ issues id subject) → graph.subject? id = none ∧
      (∀ edit, graph.edit id edit = .error (.foreignNode id)) ∧
      graph.flatten? id = none) := by
  intro issues graph
  have formed : graph.WellFormed := wellFormed_run_fresh config steps
  have settled : graph.config = config := config_run_fresh config steps
  have issued (id : NodeId) (subject : Term) :
      graph.subject? id = some subject ↔ issues id subject :=
    subject?_run_fresh_iff config steps id subject
  have within {id : NodeId} {subject : Term} (held : issues id subject) : id < graph.size := by
    rw [← Graph.subject?_isSome_iff, (issued id subject).mpr held]
    rfl
  refine ⟨?_, ?_, ?_, ?_, ?_⟩
  · intro node member group among target held
    have bound := (formed node member).issued group among target held
    obtain ⟨subject, found⟩ :=
      Option.isSome_iff_exists.mp ((graph.subject?_isSome_iff target).mpr bound)
    exact ⟨subject, (issued target subject).mp found⟩
  · exact fun node member => ⟨(formed node member).distinct, (formed node member).occupied⟩
  · intro id subject held
    refine ⟨(issued id subject).mpr held, ?_, ?_⟩
    · intro edit other failed
      have beyond := ((graph.edit_eq_foreignNode_iff id other edit).mp failed).1
      exact absurd (within held) (Nat.not_lt.mpr beyond)
    · intro writable
      exact formed.flatten?_isSome (settled ▸ writable) (within held)
  · intro writable
    exact formed.render?_isSome (settled ▸ writable)
  · intro id unissued
    have missing : graph.subject? id = none := by
      cases found : graph.subject? id with
      | none => rfl
      | some subject => exact absurd ((issued id subject).mp found) (unissued subject)
    have beyond := (graph.subject?_eq_none_iff id).mp missing
    exact ⟨missing, fun edit => (graph.edit_eq_foreignNode_iff id id edit).mpr ⟨beyond, rfl⟩,
      graph.flatten?_eq_none beyond⟩

end Session

end SparqlText
