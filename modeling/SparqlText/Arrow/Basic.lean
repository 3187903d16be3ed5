/-
# Arrow patterns

A pattern is written as text with nodes in between: `node -[predicate]-> node`. In
the assembled text each node is its position among the pattern's nodes, in decimal
between two NUL characters, and so no other text of a pattern may hold a NUL.
-/

import SparqlText.Graph.Walk

namespace SparqlText

/-- One piece of a written pattern. -/
inductive Segment
  | text (text : Text)
  | node (id : NodeId)
  deriving DecidableEq, Repr

/-- Which way an arrow points. -/
inductive Direction
  | forward
  | backward
  | undirected
  deriving DecidableEq, Repr

/-- An edge between two of a pattern's nodes, by their positions. -/
structure Edge where
  source : Nat
  predicate : Term
  target : Nat
  direction : Direction
  deriving DecidableEq, Repr

/-- The nodes of a pattern in written order, repetitions included, and its edges. -/
structure ArrowPattern where
  nodes : List NodeId
  edges : List Edge
  deriving DecidableEq, Repr

namespace ArrowPattern

/-! ## Assembled text -/

/-- The character on both sides of a node's position. -/
def mark : Char := '\x00'

/-- A node by its position. -/
def placeholder (position : Nat) : Text := mark :: Decimal.digits position ++ [mark]

/-- The text of segments, the first node among them having the given position. -/
def assembled (position : Nat) : List Segment → Except Refusal Text
  | [] => .ok []
  | .text text :: rest =>
      if text.contains mark then .error (.markInPattern text)
      else
        match assembled position rest with
        | .error reason => .error reason
        | .ok after => .ok (text ++ after)
  | .node _ :: rest =>
      match assembled (position + 1) rest with
      | .error reason => .error reason
      | .ok after => .ok (placeholder position ++ after)

/-- The nodes of segments in order. -/
def nodesOf (segments : List Segment) : List NodeId :=
  segments.filterMap fun
    | .text _ => none
    | .node id => some id

/-- Assembled text as messages show it, a dollar sign for each mark. -/
def echoed (text : Text) : Text :=
  text.map fun char => if char = mark then '$' else char

/-! ## Written patterns -/

/-- The subject of the node at a position. -/
def subjectAt? (pattern : ArrowPattern) (graph : Graph) (position : Nat) : Option Term :=
  pattern.nodes[position]?.bind graph.subject?

/-- An edge as a triple of the subjects of its nodes. -/
def edgeText? (pattern : ArrowPattern) (graph : Graph) (edge : Edge) : Option Text := do
  let source ← pattern.subjectAt? graph edge.source
  let target ← pattern.subjectAt? graph edge.target
  return Pattern.triple source.text edge.predicate.text target.text

/-- The text of a pattern in a graph: what is reached from its nodes, then a triple
per edge. There is none if one of the nodes is not in the graph or one of their
blocks cannot be written. -/
def render? (pattern : ArrowPattern) (graph : Graph) : Option Text := do
  let blocks ← graph.blocksFrom? pattern.nodes
  let edges ← pattern.edges.mapM (pattern.edgeText? graph)
  return Graph.joined (blocks ++ edges)

end ArrowPattern

end SparqlText
