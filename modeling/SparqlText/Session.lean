/-
# Sessions

A graph under construction and the statements made on the way. A session takes
steps one at a time. Every step is an action on the session and has an answer, and a
step that fails is answered with its error: the session goes on from the state in
which the failure has left it.

Statements are values: they are numbered in the order in which they were made, a
further property replaces a statement by a new one under the same number, and
the graph adopts a copy of one.
-/

import SparqlText.Arrow.Reader

namespace SparqlText

/-- A request for text that leaves the session alone. -/
inductive PatternRequest
  | triple (subject predicate : Text) (object : Value)
  /-- A block in which an array is one object. -/
  | triples (subject : Text) (pairs : List (Text × Value))
  /-- A block in which an array stands for an object per element. -/
  | triplesMap (subject : Text) (pairs : List (Text × Value))
  | block (subject : Text) (pairs : List Pair)

/-- How a statement is made. -/
inductive StatementRequest
  /-- Under the graph's configuration, its predicate given as text. -/
  | inGraph (source : Term) (predicate : Text) (target : Term)
  /-- Under a configuration of its own, its predicate given as text. -/
  | between (config : RenderConfig) (source : Term) (predicate : Text) (target : Term)
  /-- From three terms. -/
  | ofTerms (config : RenderConfig) (source predicate target : Term)

/-- One step of a session. -/
inductive Step
  | addNode (subject : Term)
  | describe (text : Text)
  | edit (id : NodeId) (edit : Edit)
  | contains (id : NodeId)
  | subject (id : NodeId)
  | size
  | config
  | flatten (id : NodeId)
  | render
  | pattern (request : PatternRequest)
  | state (request : StatementRequest)
  /-- A further property of a statement, under a configuration of its own or the
  statement's. -/
  | qualify (index : Nat) (config : Option RenderConfig) (predicate : Text) (value : Value)
  | display (index : Nat) (config : Option RenderConfig)
  | same (first second : Nat)
  /-- Put a copy of a statement into the graph. -/
  | adopt (index : Nat)
  /-- Read an arrow pattern, under the graph's configuration or the standard one. -/
  | arrows (segments : List Segment) (own : Bool)

/-- The answer to one step. -/
inductive Answer
  | node (id : NodeId)
  | statement (index : Nat)
  | truth (value : Bool)
  | size (count : Nat)
  | config (config : RenderConfig)
  | text (text : Text)
  | displayed (statement : Relationship) (id : Term) (text : Text)
  /-- A pattern, and its text if it has one in the graph. -/
  | arrows (pattern : ArrowPattern) (text : Option Text)
  | failed (reason : Error)
  /-- There is no text to answer with: the graph does not have a node, or a block
  cannot be written. -/
  | absent
  /-- There is no statement under that number. -/
  | unknownStatement (index : Nat)

/-- A graph, and the statements made so far. -/
structure Session where
  graph : Graph := {}
  statements : List Relationship := []
  deriving DecidableEq, Repr

namespace Pattern

/-- The text that a request asks for, under a configuration, if it can be written. -/
def answer (config : RenderConfig) : PatternRequest → Except Error (Option Text)
  | .triple subject predicate object =>
      (convertedTriple config subject predicate object).map some
  | .triples subject pairs => triples config subject pairs
  | .triplesMap subject pairs => triplesMap config subject pairs
  | .block subject pairs => .ok (block? config subject pairs)

end Pattern

namespace Session

/-- The statement that a request asks for. -/
def statement (session : Session) : StatementRequest → Except Error Relationship
  | .inGraph source predicate target =>
      orRefused (session.graph.relate source predicate target)
  | .between config source predicate target =>
      orRefused (Relationship.between config source predicate target)
  | .ofTerms config source predicate target => .ok { config, source, predicate, target }

/-- A text as an answer, where there is one. -/
def textAnswer : Option Text → Answer
  | some text => .text text
  | none => .absent

/-- The session with another graph. -/
def withGraph (session : Session) (graph : Graph) : Session := { session with graph }

/-- An action on the graph of a session. -/
def onGraph {Result : Type} (action : Action Graph Result) : Action Session Result :=
  fun session =>
    match action session.graph with
    | .ok result graph => .ok result (session.withGraph graph)
    | .error reason graph => .error reason (session.withGraph graph)

theorem onGraph_bind {Result Next : Type} (session : Session) (action : Action Graph Result)
    (rest : Result → Action Session Next) :
    (onGraph action >>= rest) session =
      match action session.graph with
      | .ok result graph => rest result (session.withGraph graph)
      | .error reason graph => .error reason (session.withGraph graph) := by
  rw [Action.bind_apply, onGraph]
  cases action session.graph <;> rfl

/-- An action that depends on the statement under a number, if there is one. -/
def onStatement (index : Nat) (action : Relationship → Action Session Answer) :
    Action Session Answer := do
  match (← get).statements[index]? with
  | none => return .unknownStatement index
  | some held => action held

theorem onStatement_apply (session : Session) (index : Nat)
    (action : Relationship → Action Session Answer) :
    onStatement index action session =
      match session.statements[index]? with
      | none => .ok (.unknownStatement index) session
      | some held => action held session := by
  rw [onStatement, Action.get_bind]
  cases session.statements[index]? <;> rfl

/-- A statement as it is shown under a configuration. -/
def shown (held : Relationship) (config : RenderConfig) : Answer :=
  match held.render? config with
  | none => .absent
  | some text => .displayed held (held.reificationId config) text

/-- What a step does. Its result is the answer where it does not fail. -/
def action : Step → Action Session Answer
  | .addNode subject => do
      let id ← onGraph (Graph.addNode subject)
      return .node id
  | .describe text => do
      let id ← onGraph (Graph.describeNode text)
      return .node id
  | .edit id edit => do
      onGraph (Graph.editNode id edit)
      return .node id
  | .contains id => do
      let session ← get
      return .truth (session.graph.contains id)
  | .subject id => do
      let session ← get
      return textAnswer ((session.graph.subject? id).map Term.text)
  | .size => do
      let session ← get
      return .size session.graph.size
  | .config => do
      let session ← get
      return .config session.graph.config
  | .flatten id => do
      let session ← get
      return textAnswer (session.graph.flatten? id)
  | .render => do
      let session ← get
      return textAnswer session.graph.render?
  | .pattern request => do
      let session ← get
      let text ← Action.ofExcept (Pattern.answer session.graph.config request)
      return textAnswer text
  | .state request => do
      let session ← get
      let made ← Action.ofExcept (session.statement request)
      modify fun session => { session with statements := session.statements ++ [made] }
      return .statement session.statements.length
  | .qualify index config predicate value => onStatement index fun held => do
      let made ← Action.ofExcept
        (held.withPropertyUnder (config.getD held.config) predicate value)
      modify fun session => { session with statements := session.statements.set index made }
      return .statement index
  | .display index config => onStatement index fun held =>
      return shown held (config.getD held.config)
  | .same first second => onStatement first fun first => onStatement second fun second =>
      return .truth (first == second)
  | .adopt index => onStatement index fun held => do
      modify fun session => session.withGraph (session.graph.addRelationship held)
      return .truth true
  | .arrows segments own => do
      let session ← get
      let pattern ← Action.ofExcept
        (ArrowPattern.read (if own then session.graph.config else .standard) segments)
      return .arrows pattern (pattern.render? session.graph)

/-- One step: the session after it, whether the step fails or not, and the answer. -/
def perform (session : Session) (step : Step) : Session × Answer :=
  match action step session with
  | .ok answer next => (next, answer)
  | .error reason next => (next, .failed reason)

/-- Steps in order: the session after them, and the answer to each. -/
def run (session : Session) : List Step → Session × List Answer
  | [] => (session, [])
  | step :: rest =>
      let (next, answer) := session.perform step
      let (last, answers) := run next rest
      (last, answer :: answers)

end Session

end SparqlText
