/-
# Reading arrow patterns

A pattern is a sequence of nodes and arrows. White space, commas and full stops
stand between independent nodes; an arrow joins the node before it to the node
after it, which may be the first node of another arrow. An arrow points forward,
backward or neither way, and its predicate stands in brackets on one line.

Faults are blamed on byte offsets of the assembled text: an arrow that breaks off
on its first character, a predicate that does not end on its bracket, a predicate
that is refused on its first character, and anything else on the character that
is not expected.
-/

import SparqlText.Arrow.Basic

namespace SparqlText.ArrowPattern

/-- A fault and the byte offset that it is blamed on. -/
abbrev Blame := Nat × Fault

/-- The position that a text begins with, the bytes that it takes, and what follows
it. -/
def placeholder? : Text → Option (Nat × Nat × Text)
  | [] => none
  | first :: rest =>
      if first = mark then
        let digits := rest.takeWhile (· != mark)
        match rest.dropWhile (· != mark) with
        | [] => none
        | _ :: after =>
            (Decimal.natural? digits).map fun position =>
              (position, Text.size digits + 2, after)
      else none

theorem length_lt_of_placeholder? {text after : Text} {position size : Nat}
    (read : placeholder? text = some (position, size, after)) :
    after.length < text.length := by
  cases text with
  | nil => simp [placeholder?] at read
  | cons first rest =>
      rw [placeholder?] at read
      split at read
      · have whole := (List.dropWhile_sublist (l := rest) (· != mark)).length_le
        split at read
        · simp at read
        · rename_i ends
          rw [ends, List.length_cons] at whole
          simp only [Option.map_eq_some_iff, Prod.mk.injEq] at read
          obtain ⟨_, _, _, _, rfl⟩ := read
          simp only [List.length_cons]
          omega
      · simp at read

/-! ## One arrow -/

/-- A character of a predicate between brackets. -/
def isPredicateChar (char : Char) : Bool :=
  char != ']' && char != '\n' && char != mark

/-- The predicate of an arrow: any key of a property but a blank node. -/
def predicateTerm (config : RenderConfig) (text : Text) : Except Fault Term :=
  match Term.predicate config text with
  | .error reason => .error (.refused reason)
  | .ok term => if term.isBlankNode then .error .blankPredicate else .ok term

/-- The predicate between brackets that a text begins with, and the offset and the
text after its closing bracket. `start` is where the arrow begins. -/
def bracketed (config : RenderConfig) (start offset : Nat) (text : Text) :
    Except Blame (Term × Nat × Text) :=
  match text with
  | [] => .error (start, .incompleteArrow)
  | first :: rest =>
      if first = '[' then
        let inner := rest.takeWhile isPredicateChar
        match rest.dropWhile isPredicateChar with
        | ']' :: after =>
            match predicateTerm config inner with
            | .error fault => .error (offset + 1, fault)
            | .ok term => .ok (term, offset + 1 + Text.size inner + 1, after)
        | _ => .error (offset, .openPredicate)
      else .error (offset, .missingBracket)

/-- The tail of an arrow: its direction, and the offset and the text after it.
`backward` says that the arrow has a head in front. -/
def tail (backward : Bool) (start offset : Nat) (text : Text) :
    Except Blame (Direction × Nat × Text) :=
  match text with
  | [] => .error (start, .incompleteArrow)
  | '-' :: '>' :: after =>
      if backward then .error (start, .twoHeads) else .ok (.forward, offset + 2, after)
  | '-' :: after =>
      .ok (if backward then .backward else .undirected, offset + 1, after)
  | _ => .error (offset, .missingTail)

/-- The node that an arrow ends at, after any white space: its position, and the
offset and the text after it. -/
def endpoint (start offset : Nat) (text : Text) : Except Blame (Nat × Nat × Text) :=
  let blank := text.takeWhile Text.isBlank
  match placeholder? (text.dropWhile Text.isBlank) with
  | none => .error (start, .missingTarget)
  | some (position, size, after) => .ok (position, offset + Text.size blank + size, after)

/-- The edge between two nodes in written order. -/
def edgeBetween (left : Nat) (predicate : Term) (right : Nat) (direction : Direction) : Edge :=
  match direction with
  | .backward => ⟨right, predicate, left, direction⟩
  | _ => ⟨left, predicate, right, direction⟩

/-- An arrow after its head, and what follows it. -/
structure ArrowRead where
  edge : Edge
  right : Nat
  offset : Nat
  rest : Text

/-- The arrow from a node whose head has been read, up to the node that it ends
at. -/
def arrow (config : RenderConfig) (left : Nat) (backward : Bool) (start offset : Nat)
    (text : Text) : Except Blame ArrowRead :=
  match bracketed config start offset text with
  | .error blame => .error blame
  | .ok (predicate, offset, text) =>
      match tail backward start offset text with
      | .error blame => .error blame
      | .ok (direction, offset, text) =>
          match endpoint start offset text with
          | .error blame => .error blame
          | .ok (right, offset, text) =>
              .ok ⟨edgeBetween left predicate right direction, right, offset, text⟩

theorem length_lt_of_bracketed {config : RenderConfig} {start offset stop : Nat}
    {text after : Text} {term : Term}
    (read : bracketed config start offset text = .ok (term, stop, after)) :
    after.length < text.length := by
  cases text with
  | nil => simp [bracketed] at read
  | cons first rest =>
      rw [bracketed] at read
      split at read
      · have whole := (List.dropWhile_sublist (l := rest) isPredicateChar).length_le
        simp only at read
        split at read
        · rename_i ends
          rw [ends, List.length_cons] at whole
          split at read
          · simp at read
          · simp only [Except.ok.injEq, Prod.mk.injEq] at read
            obtain ⟨_, _, rfl⟩ := read
            simp only [List.length_cons]
            omega
        · simp at read
      · simp at read

theorem length_lt_of_tail {backward : Bool} {start offset stop : Nat} {text after : Text}
    {direction : Direction}
    (read : tail backward start offset text = .ok (direction, stop, after)) :
    after.length < text.length := by
  unfold tail at read
  split at read
  · simp at read
  · split at read
    · simp at read
    · simp only [Except.ok.injEq, Prod.mk.injEq] at read
      obtain ⟨_, _, rfl⟩ := read
      simp only [List.length_cons]
      omega
  · simp only [Except.ok.injEq, Prod.mk.injEq] at read
    obtain ⟨_, _, rfl⟩ := read
    simp
  · simp at read

theorem length_lt_of_endpoint {start offset position stop : Nat} {text after : Text}
    (read : endpoint start offset text = .ok (position, stop, after)) :
    after.length < text.length := by
  simp only [endpoint] at read
  split at read
  · simp at read
  · rename_i taken
    simp only [Except.ok.injEq, Prod.mk.injEq] at read
    obtain ⟨_, _, rfl⟩ := read
    have skipped := (List.dropWhile_sublist (l := text) Text.isBlank).length_le
    have := length_lt_of_placeholder? taken
    omega

/-- An arrow takes at least one character after its head. -/
theorem length_lt_of_arrow {config : RenderConfig} {left start offset : Nat}
    {backward : Bool} {text : Text} {result : ArrowRead}
    (read : arrow config left backward start offset text = .ok result) :
    result.rest.length < text.length := by
  rw [arrow] at read
  split at read
  · simp at read
  · rename_i first
    split at read
    · simp at read
    · rename_i second
      split at read
      · simp at read
      · rename_i third
        simp only [Except.ok.injEq] at read
        subst read
        have := length_lt_of_bracketed first
        have := length_lt_of_tail second
        have := length_lt_of_endpoint third
        simp only
        omega

/-! ## Patterns -/

/-- The head of an arrow that a text begins with: whether it points backward, its
size, and what follows it. -/
def head? : Text → Option (Bool × Nat × Text)
  | '<' :: '-' :: rest => some (true, 2, rest)
  | '-' :: rest => some (false, 1, rest)
  | _ => none

theorem length_lt_of_head? {text rest : Text} {backward : Bool} {size : Nat}
    (read : head? text = some (backward, size, rest)) : rest.length < text.length := by
  unfold head? at read
  split at read
  · simp only [Option.some.injEq, Prod.mk.injEq] at read
    obtain ⟨_, _, rfl⟩ := read
    simp only [List.length_cons]
    omega
  · simp only [Option.some.injEq, Prod.mk.injEq] at read
    obtain ⟨_, _, rfl⟩ := read
    simp
  · simp at read

/-- The fault of a character that stands where no node precedes it. -/
def faultWithoutNode (char : Char) : Fault :=
  if char = '-' || char = '<' then .arrowWithoutNode else .unexpectedText

/-- The edges of assembled text from an offset on. `current` is the node that an
arrow would begin at. -/
def edgesFrom (config : RenderConfig) (current : Option Nat) (offset : Nat) (text : Text) :
    Except Blame (List Edge) :=
  match text with
  | [] => .ok []
  | char :: rest =>
      if Text.isBlank char then edgesFrom config current (offset + char.utf8Size) rest
      else if char = mark then
        match _node : placeholder? (char :: rest) with
        | none => .error (offset, .malformedMark)
        | some (position, size, after) => edgesFrom config (some position) (offset + size) after
      else if char = ',' || char = '.' then edgesFrom config none (offset + 1) rest
      else
        match current with
        | none => .error (offset, faultWithoutNode char)
        | some left =>
            match _head : head? (char :: rest) with
            | none => .error (offset, .unexpectedText)
            | some (backward, size, after) =>
                match _arrow : arrow config left backward offset (offset + size) after with
                | .error blame => .error blame
                | .ok result =>
                    match edgesFrom config (some result.right) result.offset result.rest with
                    | .error blame => .error blame
                    | .ok later => .ok (result.edge :: later)
termination_by text.length
decreasing_by
  · simp
  · exact length_lt_of_placeholder? _node
  · simp
  · have := length_lt_of_head? _head
    have := length_lt_of_arrow _arrow
    simp only [List.length_cons] at *
    omega

/-- The pattern that segments write. -/
def read (config : RenderConfig) (segments : List Segment) : Except Error ArrowPattern :=
  match assembled 0 segments with
  | .error reason => .error (.refused reason)
  | .ok text =>
      match edgesFrom config none 0 text with
      | .error (offset, fault) => .error (.unparsed (echoed text) offset fault)
      | .ok edges => .ok ⟨nodesOf segments, edges⟩

end SparqlText.ArrowPattern
