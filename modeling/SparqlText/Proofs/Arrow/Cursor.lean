/-
# Reading arrow patterns by a cursor

The reader of arrow patterns takes a text apart from the front. Here is the same
reading as a machine that leaves the text whole and moves an offset through it. What
the machine looks at is cut out of the text each time, at the offset where it stands
or at one that a search has found, and a cut that is not there leaves it without a
move.

A cursor is the offset and the part of a pattern that it is in. An arrow is read in
stages, and each of them keeps what the later ones need: the node on the left, the
offset that a fault may be blamed on, and the predicate.
-/

import SparqlText.Arrow.Reader
import SparqlText.Proofs.Text.Offsets

namespace SparqlText.ArrowPattern

/-! ## Stages -/

/-- The part of a pattern that a cursor is in. `left` is the node that an arrow begins
at, and `start` is the offset of its head. -/
inductive Stage
  /-- Between arrows, behind the node `current` if one could begin there. -/
  | between (current : Option Nat)
  /-- Behind the head of an arrow. -/
  | head (left : Nat) (backward : Bool) (start : Nat)
  /-- Behind the opening bracket, where the predicate has the offset `opened`. -/
  | inside (left : Nat) (backward : Bool) (start opened : Nat)
  /-- Behind the closing bracket. -/
  | tail (left : Nat) (backward : Bool) (start : Nat) (predicate : Term)
  /-- Behind the tail, where the node that the arrow ends at has to follow. -/
  | target (left start : Nat) (predicate : Term) (direction : Direction)
  deriving DecidableEq, Repr

/-- A stage and an offset of the text. -/
structure Cursor where
  stage : Stage
  offset : Nat
  deriving DecidableEq, Repr

/-- The cursor that a reading begins with. -/
def Cursor.initial : Cursor := ⟨.between none, 0⟩

/-- What a cursor does next. -/
inductive Move
  /-- Goes on, behind an edge if one was completed. -/
  | on (next : Cursor) (edge : Option Edge)
  | refuse (blame : Blame)
  | finish
  deriving DecidableEq, Repr

/-! ## Moves

Every function here gives nothing where it has to cut the text at an offset that is
not a boundary. -/

/-- The position of the node at an offset and the bytes that it takes, if a node is
there. -/
def placeholderAt (text : Text) (offset : Nat) : Option (Option (Nat × Nat)) := do
  match ← Text.from? offset text with
  | [] => return none
  | first :: rest =>
      if first = mark then
        match Text.offsetOf? (· == mark) rest with
        | none => return none
        | some stop =>
            let digits ← Text.upTo? stop rest
            return (Decimal.natural? digits).map fun position => (position, stop + 2)
      else return none

/-- A move between arrows, where `char` is the first character of `rest`. -/
def moveBetween (text rest : Text) (char : Char) (current : Option Nat) (offset : Nat) :
    Option Move :=
  if Text.isBlank char then some (.on ⟨.between current, offset + char.utf8Size⟩ none)
  else if char = mark then do
    match ← placeholderAt text offset with
    | none => return .refuse (offset, .malformedMark)
    | some (position, size) => return .on ⟨.between (some position), offset + size⟩ none
  else if char = ',' || char = '.' then some (.on ⟨.between none, offset + 1⟩ none)
  else
    match current with
    | none => some (.refuse (offset, faultWithoutNode char))
    | some left =>
        match head? rest with
        | none => some (.refuse (offset, .unexpectedText))
        | some (backward, size, _) => some (.on ⟨.head left backward offset, offset + size⟩ none)

/-- The blame of a predicate that does not end: its opening bracket. -/
def unclosed (opened : Nat) : Option Move :=
  match opened with
  | 0 => none
  | bracket + 1 => some (.refuse (bracket, .openPredicate))

/-- A move over a predicate and its closing bracket. -/
def moveInside (config : RenderConfig) (rest : Text) (left : Nat) (backward : Bool)
    (start opened offset : Nat) : Option Move :=
  match Text.offsetOf? (fun char => !isPredicateChar char) rest with
  | none => unclosed opened
  | some close => do
      match ← Text.from? close rest with
      | ']' :: _ =>
          match predicateTerm config (← Text.upTo? close rest) with
          | .error fault => return .refuse (opened, fault)
          | .ok predicate =>
              return .on ⟨.tail left backward start predicate, offset + (close + 1)⟩ none
      | _ => unclosed opened

/-- A move over the tail of an arrow, where `char` is the first character of `rest`. -/
def moveTail (rest : Text) (char : Char) (left : Nat) (backward : Bool) (start : Nat)
    (predicate : Term) (offset : Nat) : Option Move :=
  if char = '-' then do
    let after ← Text.from? 1 rest
    match backward, decide (after.head? = some '>') with
    | true, true => return .refuse (start, .twoHeads)
    | true, false => return .on ⟨.target left start predicate .backward, offset + 1⟩ none
    | false, true => return .on ⟨.target left start predicate .forward, offset + 2⟩ none
    | false, false => return .on ⟨.target left start predicate .undirected, offset + 1⟩ none
  else some (.refuse (offset, .missingTail))

/-- A move to the node that an arrow ends at, where `char` is the first character from the
offset on. The next arrow may begin at that node. -/
def moveTarget (text : Text) (char : Char) (left start : Nat) (predicate : Term)
    (direction : Direction) (offset : Nat) : Option Move :=
  if Text.isBlank char then
    some (.on ⟨.target left start predicate direction, offset + char.utf8Size⟩ none)
  else do
    match ← placeholderAt text offset with
    | none => return .refuse (start, .missingTarget)
    | some (right, size) =>
        return .on ⟨.between (some right), offset + size⟩
          (some (edgeBetween left predicate right direction))

/-- What is left to do at the end of the text. -/
def ending : Stage → Option Move
  | .between _ => some .finish
  | .head _ _ start => some (.refuse (start, .incompleteArrow))
  | .inside _ _ _ opened => unclosed opened
  | .tail _ _ start _ => some (.refuse (start, .incompleteArrow))
  | .target _ start _ _ => some (.refuse (start, .missingTarget))

/-- What a cursor does next where `rest` is the text from its offset on and `char` is the
first character of that. -/
def moveAt (config : RenderConfig) (text rest : Text) (char : Char) (cursor : Cursor) :
    Option Move :=
  match cursor.stage with
  | .between current => moveBetween text rest char current cursor.offset
  | .head left backward start =>
      if char = '[' then
        some (.on ⟨.inside left backward start (cursor.offset + 1), cursor.offset + 1⟩ none)
      else some (.refuse (cursor.offset, .missingBracket))
  | .inside left backward start opened =>
      moveInside config rest left backward start opened cursor.offset
  | .tail left backward start predicate =>
      moveTail rest char left backward start predicate cursor.offset
  | .target left start predicate direction =>
      moveTarget text char left start predicate direction cursor.offset

/-- What a cursor does next in a text. -/
def step (config : RenderConfig) (text : Text) (cursor : Cursor) : Option Move :=
  if cursor.offset < Text.size text then do
    match ← Text.from? cursor.offset text with
    | [] => ending cursor.stage
    | char :: after => moveAt config text (char :: after) char cursor
  else ending cursor.stage

/-! ## Readings -/

/-- The edges of a text from a cursor on, or its fault: one move after the other, until
one of them is the last. -/
inductive Reads (config : RenderConfig) (text : Text) : Cursor → Except Blame (List Edge) → Prop
  | finish {cursor : Cursor} (ends : step config text cursor = some .finish) :
      Reads config text cursor (.ok [])
  | refuse {cursor : Cursor} {blame : Blame}
      (stops : step config text cursor = some (.refuse blame)) :
      Reads config text cursor (.error blame)
  | on {cursor next : Cursor} {edge : Option Edge} {result : Except Blame (List Edge)}
      (moves : step config text cursor = some (.on next edge))
      (later : Reads config text next result) :
      Reads config text cursor (result.map (edge.toList ++ ·))

/-- The cursors of a reading. -/
inductive Reached (config : RenderConfig) (text : Text) : Cursor → Prop
  | initial : Reached config text .initial
  | on {cursor next : Cursor} {edge : Option Edge} (before : Reached config text cursor)
      (moves : step config text cursor = some (.on next edge)) : Reached config text next

variable {config : RenderConfig} {text : Text} {cursor : Cursor}

/-- A reading has one result. -/
theorem Reads.unique {first second : Except Blame (List Edge)}
    (read : Reads config text cursor first) (again : Reads config text cursor second) :
    first = second := by
  induction read generalizing second with
  | finish ends =>
      cases again with
      | finish => rfl
      | refuse stops => rw [ends] at stops; cases stops
      | on moves => rw [ends] at moves; cases moves
  | refuse stops =>
      cases again with
      | finish ends => rw [stops] at ends; cases ends
      | refuse others => rw [stops] at others; cases others; rfl
      | on moves => rw [stops] at moves; cases moves
  | on moves _ ih =>
      cases again with
      | finish ends => rw [moves] at ends; cases ends
      | refuse stops => rw [moves] at stops; cases stops
      | on others later =>
          rw [moves] at others
          cases others
          rw [ih later]

end SparqlText.ArrowPattern
