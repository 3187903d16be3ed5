/-
# The language of arrow patterns

A pattern is taken as a sequence of symbols, each of them a written character or a
node. Which sequences are patterns, and which edges they have, is said twice:

* `Written` is the grammar: layout between chains, and a chain is a node and the
  arrows that follow one another from it (`Arrows`);
* `Scanned` is the same read from left to right, with the node that an arrow would
  begin at.

A scan that stands at a node does not know whether the white space ahead of it
belongs to an arrow or stands between two chains. This is decided by what comes
later, and so `Scanned.split` cuts what follows the node in two.
-/

import SparqlText.Arrow.Basic

namespace SparqlText

/-! ## Arrows as they are written -/

namespace Direction

/-- What an arrow has in front of its brackets. -/
def front : Direction → Text
  | .backward => ['<', '-']
  | _ => ['-']

/-- What an arrow has behind its brackets. -/
def back : Direction → Text
  | .forward => ['-', '>']
  | _ => ['-']

/-- The edge of an arrow that stands between a node and the node next to it. A
backward arrow has its source on the right. -/
def edge (direction : Direction) (left : Nat) (predicate : Term) : Edge :=
  match direction with
  | .forward => ⟨left, predicate, left + 1, .forward⟩
  | .backward => ⟨left + 1, predicate, left, .backward⟩
  | .undirected => ⟨left, predicate, left + 1, .undirected⟩

end Direction

namespace ArrowPattern

/-! ## Symbols -/

/-- A written character or a node. -/
inductive Symbol
  | char (char : Char)
  | node
  deriving DecidableEq, Repr

/-- Written characters. -/
def chars (text : Text) : List Symbol :=
  text.map .char

/-- The symbols of segments in order. -/
def symbols : List Segment → List Symbol
  | [] => []
  | .text text :: rest => chars text ++ symbols rest
  | .node _ :: rest => .node :: symbols rest

@[simp]
theorem chars_nil : chars [] = [] := rfl

@[simp]
theorem chars_cons (char : Char) (text : Text) : chars (char :: text) = .char char :: chars text :=
  rfl

@[simp]
theorem chars_append (first second : Text) :
    chars (first ++ second) = chars first ++ chars second :=
  List.map_append

theorem char_mem_chars {char : Char} {text : Text} :
    Symbol.char char ∈ chars text ↔ char ∈ text := by
  simp [chars]

/-! ## The grammar -/

/-- A text of white space. -/
def Blank (text : Text) : Prop :=
  ∀ char ∈ text, Text.isBlank char = true

/-- The predicate of an arrow, as it stands between the brackets: on one line, and
resolved to a term that is not a blank node. -/
structure Predicate (config : RenderConfig) (inner : Text) (predicate : Term) : Prop where
  unclosed : ']' ∉ inner
  unbroken : '\n' ∉ inner
  resolved : Term.predicate config inner = .ok predicate
  named : predicate.isBlankNode = false

/-- An arrow, up to its end at the next node. -/
def arrowSymbols (direction : Direction) (inner after : Text) : List Symbol :=
  chars (direction.front ++ '[' :: (inner ++ ']' :: (direction.back ++ after))) ++ [.node]

/-- The arrows that follow one another from the node at a position, with their
edges. -/
inductive Arrows (config : RenderConfig) : Nat → List Symbol → List Edge → Prop
  | none (left : Nat) : Arrows config left [] []
  | arrow {left : Nat} {before inner after : Text} {direction : Direction} {predicate : Term}
      {rest : List Symbol} {edges : List Edge}
      (lead : Blank before) (within : Predicate config inner predicate) (gap : Blank after)
      (later : Arrows config (left + 1) rest edges) :
      Arrows config left (chars before ++ arrowSymbols direction inner after ++ rest)
        (direction.edge left predicate :: edges)

/-- White space, a comma or a full stop. -/
def IsLayout (char : Char) : Prop :=
  Text.isBlank char = true ∨ char = ',' ∨ char = '.'

/-- A pattern whose first node has the given position, with its edges: layout, and
chains of a node and its arrows. -/
inductive Written (config : RenderConfig) : Nat → List Symbol → List Edge → Prop
  | empty (position : Nat) : Written config position [] []
  | layout {position : Nat} {char : Char} {rest : List Symbol} {edges : List Edge}
      (between : IsLayout char) (later : Written config position rest edges) :
      Written config position (.char char :: rest) edges
  | chain {position : Nat} {arrows rest : List Symbol} {first later : List Edge}
      (linked : Arrows config position arrows first)
      (others : Written config (position + 1 + first.length) rest later) :
      Written config position (.node :: (arrows ++ rest)) (first ++ later)

/-! ## Positions -/

variable {config : RenderConfig}

theorem count_node_chars (text : Text) : (chars text).count .node = 0 := by
  rw [List.count_eq_zero]
  simp [chars]

/-- A chain has one node more than it has arrows, and so the position of a node is the
number of nodes in front of it. -/
theorem Arrows.count_node {left : Nat} {arrows : List Symbol} {edges : List Edge}
    (linked : Arrows config left arrows edges) : arrows.count .node = edges.length := by
  induction linked with
  | none left => rfl
  | arrow lead within gap _ ih => simp [arrowSymbols, count_node_chars, ih]

theorem Arrows.edge_le {left : Nat} {arrows : List Symbol} {edges : List Edge}
    (linked : Arrows config left arrows edges) :
    ∀ edge ∈ edges, edge.source ≤ left + edges.length ∧ edge.target ≤ left + edges.length := by
  induction linked with
  | none left => exact nofun
  | @arrow left before inner after direction predicate rest edges _ _ _ _ ih =>
      intro edge member
      rw [List.length_cons]
      cases member with
      | head => cases direction <;> simp only [Direction.edge] <;> omega
      | tail _ member =>
          have bounds := ih edge member
          omega

/-- An edge joins two nodes of the pattern. -/
theorem Written.edge_lt {position : Nat} {input : List Symbol} {edges : List Edge}
    (written : Written config position input edges) :
    ∀ edge ∈ edges, edge.source < position + input.count .node ∧
      edge.target < position + input.count .node := by
  induction written with
  | empty position => exact nofun
  | layout _ _ ih => simpa using ih
  | @chain position arrows rest first later linked _ ih =>
      intro edge member
      rw [List.count_cons_self, List.count_append, linked.count_node]
      cases List.mem_append.mp member with
      | inl member =>
          have bounds := linked.edge_le edge member
          omega
      | inr member =>
          have bounds := ih edge member
          omega

/-! ## The scan -/

/-- A pattern from where a scan stands: behind the node `current`, if an arrow could
begin there, and ahead of the node at the given position. -/
inductive Scanned (config : RenderConfig) : Option Nat → Nat → List Symbol → List Edge → Prop
  | finish (current : Option Nat) (position : Nat) : Scanned config current position [] []
  | blank {current : Option Nat} {position : Nat} {char : Char} {rest : List Symbol}
      {edges : List Edge} (space : Text.isBlank char = true)
      (later : Scanned config current position rest edges) :
      Scanned config current position (.char char :: rest) edges
  | separator {current : Option Nat} {position : Nat} {char : Char} {rest : List Symbol}
      {edges : List Edge} (stop : char = ',' ∨ char = '.')
      (later : Scanned config none position rest edges) :
      Scanned config current position (.char char :: rest) edges
  | node {current : Option Nat} {position : Nat} {rest : List Symbol} {edges : List Edge}
      (later : Scanned config (some position) (position + 1) rest edges) :
      Scanned config current position (.node :: rest) edges
  | arrow {left : Nat} {inner after : Text} {direction : Direction} {predicate : Term}
      {rest : List Symbol} {edges : List Edge}
      (within : Predicate config inner predicate) (gap : Blank after)
      (later : Scanned config (some (left + 1)) (left + 1 + 1) rest edges) :
      Scanned config (some left) (left + 1) (arrowSymbols direction inner after ++ rest)
        (direction.edge left predicate :: edges)

theorem Scanned.blanks {current : Option Nat} {position : Nat} {before : Text}
    {rest : List Symbol} {edges : List Edge} (lead : Blank before)
    (later : Scanned config current position rest edges) :
    Scanned config current position (chars before ++ rest) edges := by
  induction before with
  | nil => exact later
  | cons char before ih =>
      have space := lead char List.mem_cons_self
      have others : Blank before := fun char member => lead char (List.mem_cons_of_mem _ member)
      exact .blank space (ih others)

/-- A scan reads the arrows of a chain one after the other. -/
theorem Arrows.scanned {left : Nat} {arrows rest : List Symbol} {first later : List Edge}
    (linked : Arrows config left arrows first)
    (others : Scanned config (some (left + first.length)) (left + first.length + 1) rest later) :
    Scanned config (some left) (left + 1) (arrows ++ rest) (first ++ later) := by
  induction linked with
  | none left => exact others
  | @arrow left before inner after direction predicate behind edges lead within gap _ ih =>
      have further : left + 1 + edges.length = left + (edges.length + 1) := by omega
      rw [List.length_cons, ← further] at others
      rw [List.append_assoc, List.append_assoc, List.cons_append]
      exact (Scanned.arrow within gap (ih others)).blanks lead

/-- Whatever the grammar allows is scanned, whichever node the scan stands behind. -/
theorem Written.scanned {position : Nat} {input : List Symbol} {edges : List Edge}
    (written : Written config position input edges) (current : Option Nat) :
    Scanned config current position input edges := by
  induction written generalizing current with
  | empty position => exact .finish current position
  | layout between _ ih =>
      cases between with
      | inl space => exact .blank space (ih current)
      | inr stop => exact .separator stop (ih .none)
  | @chain position arrows rest first later linked _ ih =>
      have others := ih (some (position + first.length))
      rw [Nat.add_right_comm] at others
      exact .node (linked.scanned others)

/-- What follows the node at a position: the rest of its chain, and then a pattern of
its own. -/
def Split (config : RenderConfig) (left : Nat) (input : List Symbol) (edges : List Edge) : Prop :=
  ∃ arrows rest first later, input = arrows ++ rest ∧ edges = first ++ later ∧
    Arrows config left arrows first ∧ Written config (left + 1 + first.length) rest later

/-- A pattern of its own may follow any node. -/
theorem Written.split {left : Nat} {input : List Symbol} {edges : List Edge}
    (written : Written config (left + 1) input edges) : Split config left input edges :=
  ⟨[], input, [], edges, rfl, rfl, .none left, written⟩

/-- White space after a node goes to the next arrow if there is one, and stands
between chains otherwise. -/
theorem Split.blank {left : Nat} {char : Char} {input : List Symbol} {edges : List Edge}
    (space : Text.isBlank char = true) (split : Split config left input edges) :
    Split config left (.char char :: input) edges := by
  obtain ⟨arrows, rest, first, later, rfl, rfl, linked, others⟩ := split
  cases linked with
  | none left => exact (Written.layout (.inl space) others).split
  | @arrow _ before inner after direction predicate behind edges lead within gap further =>
      have wider : Blank (char :: before) := by
        intro other member
        cases member with
        | head => exact space
        | tail _ member => exact lead other member
      exact ⟨_, rest, _, later, rfl, rfl, .arrow wider within gap further, others⟩

theorem Split.arrow {left : Nat} {inner after : Text} {direction : Direction}
    {predicate : Term} {input : List Symbol} {edges : List Edge}
    (within : Predicate config inner predicate) (gap : Blank after)
    (split : Split config (left + 1) input edges) :
    Split config left (arrowSymbols direction inner after ++ input)
      (direction.edge left predicate :: edges) := by
  obtain ⟨arrows, rest, first, later, rfl, rfl, linked, others⟩ := split
  have lead : Blank [] := fun _ member => nomatch member
  have extended : Arrows config left (chars [] ++ arrowSymbols direction inner after ++ arrows)
      (direction.edge left predicate :: first) := .arrow lead within gap linked
  refine ⟨_, rest, _, later, ?_, rfl, extended, ?_⟩
  · rw [chars_nil, List.nil_append, List.append_assoc]
  · rw [List.length_cons, Nat.add_comm first.length, ← Nat.add_assoc]
    exact others

/-- Whatever is scanned is a pattern where no node stands in front, and otherwise the
rest of a chain and a pattern. -/
theorem Scanned.split {current : Option Nat} {position : Nat} {input : List Symbol}
    {edges : List Edge} (scanned : Scanned config current position input edges) :
    (current = none → Written config position input edges) ∧
      ∀ left, current = some left → left + 1 = position → Split config left input edges := by
  induction scanned with
  | finish current position =>
      exact ⟨fun _ => .empty position, fun left _ _ => (Written.empty (left + 1)).split⟩
  | blank space _ ih =>
      exact ⟨fun outside => .layout (.inl space) (ih.1 outside),
        fun left behind next => (ih.2 left behind next).blank space⟩
  | separator stop _ ih =>
      have written := Written.layout (.inr stop) (ih.1 rfl)
      exact ⟨fun _ => written, fun left _ next => by subst next; exact written.split⟩
  | @node current position rest edges _ ih =>
      obtain ⟨arrows, rest, first, later, rfl, rfl, linked, others⟩ := ih.2 position rfl rfl
      have written := Written.chain linked others
      exact ⟨fun _ => written, fun left _ next => by subst next; exact written.split⟩
  | @arrow left inner after direction predicate rest edges within gap _ ih =>
      refine ⟨nofun, fun other behind _ => ?_⟩
      cases behind
      exact (ih.2 (left + 1) rfl rfl).arrow within gap

/-- The scan from the start reads exactly the patterns of the grammar. -/
theorem scanned_iff_written {position : Nat} {input : List Symbol} {edges : List Edge} :
    Scanned config none position input edges ↔ Written config position input edges :=
  ⟨fun scanned => scanned.split.1 rfl, fun written => written.scanned none⟩

end ArrowPattern

end SparqlText
