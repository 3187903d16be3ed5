/-
# Graphs of nodes

Nodes with types and properties, numbered in the order in which they were added,
and statements of their own. A property holds terms and other nodes of the graph,
so cycles are ordinary data. Values are converted as they are added, so what can
fail fails here.

What changes a graph is an action on it. Types and properties are pushed one by
one, and nothing that was pushed is taken back.
-/

import SparqlText.Description
import SparqlText.Relationship

namespace SparqlText

/-- What a property holds: a term or a node. -/
inductive Held
  | term (term : Term)
  | node (id : NodeId)
  deriving DecidableEq, Repr

/-- All that a node holds under one predicate. -/
structure Group where
  predicate : Term
  held : List Held
  deriving DecidableEq, Repr

/-- A node: its subject, its types, and its properties by predicate. -/
structure Node where
  subject : Term
  types : List Term := []
  groups : List Group := []
  deriving DecidableEq, Repr

namespace Node

/-- Groups with more held under a predicate: in its group if there is one, and
otherwise in a new group at the end. -/
def accumulate (predicate : Term) (held : List Held) : List Group → List Group
  | [] => [⟨predicate, held⟩]
  | group :: rest =>
      if group.predicate = predicate then
        { group with held := group.held ++ held } :: rest
      else group :: accumulate predicate held rest

/-- A node with a further type. -/
def withType (type : Term) (node : Node) : Node :=
  { node with types := node.types ++ [type] }

/-- A node with more held under a predicate. -/
def withHeld (predicate : Term) (held : List Held) (node : Node) : Node :=
  { node with groups := accumulate predicate held node.groups }

/-- The node that something held is, if it is one. -/
def linked? : Held → Option NodeId
  | .term _ => none
  | .node id => some id

/-- The nodes that a node links to, in the order of its properties. -/
def links (node : Node) : List NodeId :=
  node.groups.flatMap fun group => group.held.filterMap linked?

end Node

/-- An addition to a node, as callers write it. -/
inductive Edit
  /-- A type: an absolute reference, a prefixed name or a variable. -/
  | type (type : Text)
  /-- A value under a predicate; an array stands for its elements. -/
  | property (predicate : Text) (value : Value)
  /-- A link to another node of the graph. -/
  | link (predicate : Text) (target : NodeId)

/-- Nodes by number, statements, and the configuration for all of them. -/
structure Graph where
  config : RenderConfig := .standard
  nodes : List Node := []
  relationships : List Relationship := []
  deriving DecidableEq, Repr

namespace Graph

def size (graph : Graph) : Nat := graph.nodes.length

/-- Whether the graph has issued a number. -/
def contains (graph : Graph) (id : NodeId) : Bool := id < graph.size

/-- The subject of a node, if the graph has the node. -/
def subject? (graph : Graph) (id : NodeId) : Option Term :=
  graph.nodes[id]?.map Node.subject

/-! ## Adding -/

/-- The graph with a further node, and that node's number. -/
def add (graph : Graph) (node : Node) : Graph × NodeId :=
  ({ graph with nodes := graph.nodes ++ [node] }, graph.size)

/-- Add a node that has a subject alone. -/
def addNode (subject : Term) : Action Graph NodeId :=
  modifyGet fun graph => ((graph.add { subject }).2, (graph.add { subject }).1)

/-- A statement under the graph's configuration. -/
def relate (graph : Graph) (source : Term) (predicate : Text) (target : Term) :
    Except Refusal Relationship :=
  Relationship.between graph.config source predicate target

/-- The graph with a further statement of its own. -/
def addRelationship (graph : Graph) (relationship : Relationship) : Graph :=
  { graph with relationships := graph.relationships ++ [relationship] }

/-! ## Changing a node -/

/-- The graph with one node changed. -/
def change (graph : Graph) (id : NodeId) (update : Node → Node) : Graph :=
  { graph with nodes := graph.nodes.modify id update }

/-- Add the node that a text describes: first with its subject alone, and then its types. -/
def describeNode (text : Text) : Action Graph NodeId := do
  let description ← Action.ofExcept (Description.read (← get).config text)
  let id ← addNode description.subject
  modify fun graph => graph.change id fun node => { node with types := description.types }
  return id

/-- What a property holds for a value: one term per element of an array that has
any, and otherwise one term. -/
def heldTerms (config : RenderConfig) (value : Value) : Except Error (List Held) :=
  match Pattern.convertedValues config value.elements with
  | .error reason => .error reason
  | .ok terms => .ok (terms.map .term)

/-- Put a type behind those of a node. -/
def pushType (id : NodeId) (type : Term) : Action Graph Unit :=
  modify fun graph => graph.change id (Node.withType type)

/-- Put more into a node under a predicate. -/
def push (id : NodeId) (predicate : Term) (held : List Held) : Action Graph Unit :=
  modify fun graph => graph.change id (Node.withHeld predicate held)

/-- Make an addition to a node. A link's target is checked before its predicate, and a
property's predicate before its value. -/
def extend (id : NodeId) : Edit → Action Graph Unit
  | .type type => do
      let graph ← get
      let type ← Action.ofExcept (orRefused (Description.typeTerm graph.config type))
      pushType id type
  | .property predicate value => do
      let graph ← get
      let predicate ← Action.ofExcept (orRefused (Term.predicate graph.config predicate))
      let held ← Action.ofExcept (heldTerms graph.config value)
      push id predicate held
  | .link predicate target => do
      let graph ← get
      Action.require (graph.contains target) (.refused (.foreignTarget target))
      let predicate ← Action.ofExcept (orRefused (Term.predicate graph.config predicate))
      push id predicate [.node target]

/-- Make an addition to a node that the graph has. -/
def editNode (id : NodeId) (edit : Edit) : Action Graph Unit := do
  Action.require ((← get).contains id) (.foreignNode id)
  extend id edit

/-! ## Graphs after an action -/

/-- The graph with the node that a text describes. -/
def describe (graph : Graph) (text : Text) : Except Error (Graph × NodeId) :=
  (describeNode text).outcome graph

/-- The graph after an edit of one of its nodes. -/
def edit (graph : Graph) (id : NodeId) (edit : Edit) : Except Error Graph :=
  ((editNode id edit).outcome graph).map Prod.fst

/-! ## Blocks -/

/-- Something held as the object of a pair: a node is shown by its subject. -/
def objectText (graph : Graph) : Held → Text
  | .term term => term.text
  | .node id => ((graph.subject? id).map Term.text).getD []

/-- The pairs of one group. -/
def groupPairs (graph : Graph) (group : Group) : List Pair :=
  group.held.map fun held => ⟨group.predicate.text, graph.objectText held⟩

/-- The pairs of a node: its types, then its properties. -/
def pairs (graph : Graph) (node : Node) : List Pair :=
  node.types.map (fun type => ⟨Term.keyword.text, type.text⟩)
    ++ node.groups.flatMap graph.groupPairs

/-- The block of a node, which is empty where it has no types and properties, if it
can be written. -/
def block? (graph : Graph) (node : Node) : Option Text :=
  Pattern.block? graph.config node.subject.text (graph.pairs node)

/-- The block of the node under a number, if the graph has the node and its block
can be written. -/
def blockAt? (graph : Graph) (id : NodeId) : Option Text :=
  graph.nodes[id]?.bind graph.block?

/-- The blocks of nodes in order, those that are empty left out, if all of them can
be written. -/
def blocks? (graph : Graph) (ids : List NodeId) : Option (List Text) :=
  (ids.mapM graph.blockAt?).map fun blocks => blocks.filter fun block => !block.isEmpty

end Graph

end SparqlText
