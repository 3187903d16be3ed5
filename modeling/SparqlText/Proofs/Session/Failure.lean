/-
# Steps that fail

A step of a session fails where its action ends in an error, or where there is no text or no
statement to answer with. An action that fails takes nothing back, so it is the order of its
steps that counts: descriptions and edits make their last check before they change the graph
(`Graph.describeNode_traceless`, `Graph.editNode_traceless`), and what has been attached to a
statement half way is attached to a copy (`Relationship.withPropertyUnder`).

A failed step therefore leaves no trace: the nodes, their types and properties and the
statements are as they were, and so is every later answer. A run is told by the steps of it
that do not fail.
-/

import SparqlText.Proofs.Session.Run

namespace SparqlText

/-- Whether a step with this answer has failed. A pattern that was read, but that has
no text in the graph, counts as failed. -/
def Answer.isFailure : Answer → Bool
  | .failed _ => true
  | .absent => true
  | .unknownStatement _ => true
  | .arrows _ none => true
  | _ => false

namespace Session

/-! ## One step -/

/-- A step leaves the session as it was, or it does not fail. -/
theorem Transition.eq_or_not_isFailure {session next : Session} {step : Step} {answer : Answer}
    (transition : Transition session step next answer) :
    next = session ∨ answer.isFailure = false := by
  cases transition with
  | idle _ _ _ => exact .inl rfl
  | _ => exact .inr rfl

theorem perform_of_isFailure {session : Session} {step : Step}
    (failed : (session.perform step).2.isFailure = true) :
    (session.perform step).1 = session :=
  (session.transition_perform step).eq_or_not_isFailure.resolve_right (by simp [failed])

/-- The state beside an error is the one before the step. -/
theorem action_traceless (step : Step) : (action step).Traceless := by
  intro session reason next failed
  have performed : session.perform step = (next, .failed reason) := by rw [perform, failed]
  have same : (session.perform step).1 = session :=
    perform_of_isFailure (by rw [performed]; rfl)
  rwa [performed] at same

/-! ## Runs -/

/-- A failed step adds its answer to a run and does nothing else. -/
theorem run_cons_of_isFailure {session : Session} {step : Step}
    (failed : (session.perform step).2.isFailure = true) (later : List Step) :
    session.run (step :: later) =
      ((session.run later).1, (session.perform step).2 :: (session.run later).2) := by
  have same := perform_of_isFailure failed
  rw [run]
  simp only [same]

/-- The steps of a run that do not fail. -/
def effective (session : Session) : List Step → List Step
  | [] => []
  | step :: rest =>
      let (next, answer) := session.perform step
      if answer.isFailure then next.effective rest else step :: next.effective rest

/-- Without the steps that fail, a run ends in the same session, and the other steps
have the same answers. -/
theorem run_effective (session : Session) (steps : List Step) :
    session.run (session.effective steps) =
      ((session.run steps).1, (session.run steps).2.filter fun answer => !answer.isFailure) := by
  induction steps generalizing session with
  | nil => rfl
  | cons step rest ih =>
      rw [effective]
      dsimp only
      cases failed : (session.perform step).2.isFailure with
      | true =>
          rw [if_pos rfl, run_cons_of_isFailure failed, perform_of_isFailure failed, ih]
          simp [failed]
      | false =>
          rw [if_neg Bool.false_ne_true]
          simp only [run, ih]
          simp [failed]

/-- Where the action of a step ends in an error, the session beside the error is the one that
it began with. A step that fails changes nothing, and everything that comes later is as if it
had not been taken: the session at the end, and the answer to every step. So a run may do
without all of its steps that fail. -/
theorem unchanged_of_failure :
    (∀ step, (action step).Traceless) ∧
    ∀ session : Session,
      (∀ step, (session.perform step).2.isFailure = true →
        (session.perform step).1 = session ∧
          ∀ later, session.run (step :: later) =
            ((session.run later).1, (session.perform step).2 :: (session.run later).2)) ∧
      ∀ steps, session.run (session.effective steps) =
        ((session.run steps).1,
          (session.run steps).2.filter fun answer => !answer.isFailure) :=
  ⟨action_traceless, fun session =>
    ⟨fun _ failed => ⟨perform_of_isFailure failed, run_cons_of_isFailure failed⟩,
      session.run_effective⟩⟩

/-- A session that refuses nulls, with one node that has one property, and with a statement. -/
def begun : Session :=
  ((fresh { strictNulls := true }).run
    [.addNode ⟨['?', 'x']⟩, .edit 0 (.property ['p'] (.string ['v'])),
      .state (.ofTerms { strictNulls := true } ⟨['?', 'x']⟩ ⟨['?', 'p']⟩ ⟨['?', 'y']⟩)]).1

/-- A further value for that property: one that is sound, and one with a null two levels
down. -/
def spoiled : Step :=
  .edit 0 (.property ['p']
    (.array [.string ['w'], .record [(.name ['k'], .array [.boolean true, .null])]]))

/-- A property of the statement with a value that is sound in front of a null. -/
def halfAttached : Step := .qualify 0 none ['q'] (.array [.string ['w'], .null])

theorem unchanged_of_failure_spoiled :
    (∃ next, action spoiled begun = .error .nullValue next ∧ next = begun) ∧
    ((begun.perform halfAttached).2.isFailure = true ∧
      (begun.perform halfAttached).1 = begun ∧
      begun.run [halfAttached, .display 0 none, spoiled, .render] =
        ((begun.run [.display 0 none, spoiled, .render]).1,
          (begun.perform halfAttached).2 ::
            (begun.run [.display 0 none, spoiled, .render]).2)) := by
  obtain ⟨next, failed⟩ : ∃ next, action spoiled begun = .error .nullValue next := ⟨_, rfl⟩
  have half : (begun.perform halfAttached).2.isFailure = true := by decide
  obtain ⟨traceless, alike⟩ := unchanged_of_failure
  obtain ⟨unchanged, later⟩ := (alike begun).1 halfAttached half
  exact ⟨⟨next, failed, traceless spoiled begun .nullValue next failed⟩,
    half, unchanged, later _⟩

end Session

end SparqlText
