/-
# The cursor and the reader

Wherever the cursor stands in the encoding of symbols, it stands between two of them
(`Stands`), and from there on the reader of patterns makes something of the rest of
the text (`edgesAt`). One lemma per stage says what the next move is: it is there, it
leads forward to another place between two symbols or ends the reading, and what the
reader makes of the rest follows it (`Follows`). `Stands.proceeds` puts the stages
together.

The offsets that a stage keeps are not needed to go on, but they are blamed later,
and so they are boundaries of the text as long as the cursor stands (`Stage.Rooted`).
-/

import SparqlText.Proofs.Arrow.Cursor
import SparqlText.Proofs.Arrow.Reading

namespace SparqlText.ArrowPattern

/-! ## Encodings in two parts -/

theorem encode_append (position : Nat) (front rest : List Symbol) :
    encode position (front ++ rest) =
      encode position front ++ encode (position + front.count .node) rest := by
  induction front generalizing position with
  | nil => rfl
  | cons symbol front ih =>
      cases symbol with
      | char char => simpa using ih position
      | node => simp [ih, List.append_assoc, Nat.add_assoc, Nat.add_comm 1]

theorem size_encode_chars (position : Nat) (text : Text) :
    Text.size (encode position (chars text)) = Text.size text := by
  have whole := encode_chars position text []
  rw [List.append_nil, encode_nil, List.append_nil] at whole
  rw [whole]

/-! ## The rest of an arrow -/

/-- An arrow behind its tail. -/
def behindTail (left start : Nat) (predicate : Term) (direction : Direction) (offset : Nat)
    (text : Text) : Except Blame ArrowRead := do
  let (right, offset, text) ← endpoint start offset text
  return ⟨edgeBetween left predicate right direction, right, offset, text⟩

/-- An arrow behind its brackets. -/
def behindBracket (left : Nat) (backward : Bool) (start : Nat) (predicate : Term) (offset : Nat)
    (text : Text) : Except Blame ArrowRead := do
  let (direction, offset, text) ← tail backward start offset text
  behindTail left start predicate direction offset text

variable {config : RenderConfig}

theorem arrow_eq (left : Nat) (backward : Bool) (start offset : Nat) (text : Text) :
    arrow config left backward start offset text =
      (do
        let (predicate, offset, text) ← bracketed config start offset text
        behindBracket left backward start predicate offset text) := by
  rw [arrow]
  cases bracketed config start offset text with
  | error blame => rfl
  | ok first =>
      obtain ⟨predicate, offset, text⟩ := first
      simp only [behindBracket, bind, Except.bind]
      cases tail backward start offset text with
      | error blame => rfl
      | ok second =>
          obtain ⟨direction, offset, text⟩ := second
          simp only [behindTail, bind, Except.bind]
          cases endpoint start offset text with
          | error blame => rfl
          | ok third => rfl

/-- The edge of an arrow and the edges behind it. -/
def linked (config : RenderConfig) (read : Except Blame ArrowRead) :
    Except Blame (List Edge) := do
  let arrow ← read
  let later ← edgesFrom config (some arrow.right) arrow.offset arrow.rest
  return arrow.edge :: later

/-- What the reader makes of the text from a cursor on. -/
def edgesAt (config : RenderConfig) (rest : Text) (cursor : Cursor) : Except Blame (List Edge) :=
  match cursor.stage with
  | .between current => edgesFrom config current cursor.offset rest
  | .head left backward start =>
      linked config (arrow config left backward start cursor.offset rest)
  | .inside left backward start opened =>
      linked config (arrow config left backward start (opened - 1) ('[' :: rest))
  | .tail left backward start predicate =>
      linked config (behindBracket left backward start predicate cursor.offset rest)
  | .target left start predicate direction =>
      linked config (behindTail left start predicate direction cursor.offset rest)

/-- A character that is neither layout nor a node has to be the head of an arrow. -/
theorem edgesFrom_of_other {current : Option Nat} {offset : Nat} {char : Char} {rest : Text}
    (visible : Text.isBlank char = false) (written : char ≠ mark)
    (inside : ¬(char = ',' ∨ char = '.')) :
    edgesFrom config current offset (char :: rest) =
      match current with
      | none => .error (offset, faultWithoutNode char)
      | some left =>
          match head? (char :: rest) with
          | none => .error (offset, .unexpectedText)
          | some (backward, size, after) =>
              linked config (arrow config left backward offset (offset + size) after) := by
  have separate : (decide (char = ',') || decide (char = '.')) ≠ true := by simpa using inside
  rw [edgesFrom.eq_def]
  dsimp only
  rw [if_neg (Bool.eq_false_iff.mp visible), if_neg written, if_neg separate]
  cases current with
  | none => rfl
  | some left =>
      dsimp only
      split
      case h_1 missing => rw [missing]
      case h_2 backward size after head =>
        rw [head]
        dsimp only
        split
        case h_1 blame refused => rw [refused]; rfl
        case h_2 result turn =>
          rw [turn]
          simp only [linked, bind, Except.bind]
          cases edgesFrom config (some result.right) result.offset result.rest with
          | error blame => rfl
          | ok later => rfl

/-! ## Where a cursor stands -/

/-- The offsets that a stage keeps are boundaries, and so is the one in front of the
predicate that a cursor is about to read. -/
def Stage.Rooted (offset : Nat) (text : Text) : Stage → Prop
  | .between _ => True
  | .head _ _ start => Text.IsBoundary start text
  | .inside _ _ start opened =>
      Text.IsBoundary start text ∧ opened = offset ∧
        ∃ bracket, opened = bracket + 1 ∧ Text.IsBoundary bracket text
  | .tail _ _ start _ => Text.IsBoundary start text
  | .target _ start _ _ => Text.IsBoundary start text

/-- A cursor in an encoding stands between two symbols: `behind` is what it has read, and
`ahead` is what it has not. -/
structure Stands (input behind ahead : List Symbol) (cursor : Cursor) : Prop where
  whole : input = behind ++ ahead
  offset : cursor.offset = Text.size (encode 0 behind)
  rooted : cursor.stage.Rooted cursor.offset (encode 0 input)

variable {input behind ahead : List Symbol} {cursor : Cursor}

namespace Stands

theorem initial (input : List Symbol) : Stands input [] input .initial :=
  ⟨rfl, rfl, trivial⟩

theorem encode_eq (stands : Stands input behind ahead cursor) :
    encode 0 input = encode 0 behind ++ encode (behind.count .node) ahead := by
  rw [stands.whole, encode_append, Nat.zero_add]

theorem unread (stands : Stands input behind ahead cursor)
    (unmarked : Symbol.char mark ∉ input) : Symbol.char mark ∉ ahead := by
  rw [stands.whole, List.mem_append, not_or] at unmarked
  exact unmarked.2

theorem from?_eq (stands : Stands input behind ahead cursor) :
    Text.from? cursor.offset (encode 0 input) = some (encode (behind.count .node) ahead) := by
  rw [stands.encode_eq, stands.offset]
  exact Text.from?_append _ _

theorem boundary (stands : Stands input behind ahead cursor) :
    Text.IsBoundary cursor.offset (encode 0 input) := by
  rw [stands.encode_eq, stands.offset]
  exact Text.isBoundary_size_append _ _

/-- The cursor behind some of the symbols ahead. -/
theorem on {moved rest : List Symbol} {next : Cursor}
    (stands : Stands input behind (moved ++ rest) cursor)
    (further : next.offset = cursor.offset + Text.size (encode (behind.count .node) moved))
    (rooted : next.stage.Rooted next.offset (encode 0 input)) :
    Stands input (behind ++ moved) rest next := by
  refine ⟨?_, ?_, rooted⟩
  · rw [stands.whole, List.append_assoc]
  · rw [further, stands.offset, encode_append, Text.size_append, Nat.zero_add]

theorem step_of_nil (stands : Stands input behind [] cursor) :
    step config (encode 0 input) cursor = ending cursor.stage := by
  have ended : cursor.offset = Text.size (encode 0 input) := by
    rw [stands.offset, stands.whole, List.append_nil]
  rw [step, ended, if_neg (Nat.lt_irrefl _)]

theorem step_of_cons {char : Char} {after : Text} (stands : Stands input behind ahead cursor)
    (first : encode (behind.count .node) ahead = char :: after) :
    step config (encode 0 input) cursor =
      moveAt config (encode 0 input) (encode (behind.count .node) ahead) char cursor := by
  have within : cursor.offset < Text.size (encode 0 input) := by
    have positive := char.utf8Size_pos
    rw [stands.offset, stands.encode_eq, Text.size_append, first, Text.size_cons]
    omega
  rw [step, if_pos within, stands.from?_eq, first]
  rfl

theorem step_of_char {char : Char} {rest : List Symbol}
    (stands : Stands input behind (.char char :: rest) cursor) :
    step config (encode 0 input) cursor =
      moveAt config (encode 0 input) (char :: encode (behind.count .node) rest) char cursor :=
  stands.step_of_cons (encode_char _ _ _)

theorem step_of_node {rest : List Symbol} (stands : Stands input behind (.node :: rest) cursor) :
    step config (encode 0 input) cursor =
      moveAt config (encode 0 input) (encode (behind.count .node) (.node :: rest)) mark cursor :=
  stands.step_of_cons (placeholder_eq_cons _ _)

end Stands

/-! ## Placeholders -/

/-- What is cut out of the text at an offset is read as it is when it has been taken off
the front. -/
theorem placeholderAt_eq {text rest : Text} {offset : Nat}
    (cut : Text.from? offset text = some rest) :
    placeholderAt text offset =
      some ((placeholder? rest).map fun (position, size, _) => (position, size)) := by
  rw [placeholderAt, cut]
  cases rest with
  | nil => rfl
  | cons first rest =>
      simp only [Option.bind_eq_bind, Option.bind_some, placeholder?]
      by_cases marked : first = mark
      case neg => rw [if_neg marked, if_neg marked]; rfl
      have search : (fun char => !(char != mark)) = (· == mark) := by
        funext char
        rw [bne, Bool.not_not]
      rw [if_pos marked, if_pos marked, ← search, Text.offsetOf?_not]
      cases ends : rest.dropWhile (· != mark) with
      | nil => rfl
      | cons stop after =>
          rw [if_neg (List.cons_ne_nil stop after)]
          simp only [Text.upTo?_takeWhile, Option.bind_some, Option.map_map]
          rfl

theorem size_placeholder (position : Nat) :
    Text.size (placeholder position) = Text.size (Decimal.digits position) + 2 := by
  have one : mark.utf8Size = 1 := by decide
  rw [placeholder, List.cons_append, Text.size_cons, Text.size_append, Text.size_cons,
    Text.size_nil, one]
  omega

theorem placeholderAt_node {rest : List Symbol}
    (stands : Stands input behind (.node :: rest) cursor) :
    placeholderAt (encode 0 input) cursor.offset =
      some (some (behind.count .node, Text.size (placeholder (behind.count .node)))) := by
  rw [placeholderAt_eq stands.from?_eq, encode_node, placeholder?_placeholder, size_placeholder]
  rfl

/-! ## One move -/

/-- A move that is safe for a cursor, and agrees with what the reader makes of the text from
there on. It goes forward, to another place between two symbols, or it ends the
reading with the blame that the reader has, on a boundary. -/
inductive Follows (config : RenderConfig) (input : List Symbol) (cursor : Cursor) :
    Move → Except Blame (List Edge) → Prop
  | finish : Follows config input cursor .finish (.ok [])
  | refuse {offset : Nat} {fault : Fault} (boundary : Text.IsBoundary offset (encode 0 input))
      (other : fault ≠ .malformedMark) :
      Follows config input cursor (.refuse (offset, fault)) (.error (offset, fault))
  | on {next : Cursor} {edge : Option Edge} {result : Except Blame (List Edge)}
      {behind ahead : List Symbol} (further : cursor.offset < next.offset)
      (stands : Stands input behind ahead next)
      (same : result =
        (edgesAt config (encode (behind.count .node) ahead) next).map (edge.toList ++ ·)) :
      Follows config input cursor (.on next edge) result

/-- There is such a move. -/
def Moves (config : RenderConfig) (input : List Symbol) (cursor : Cursor) (move : Option Move)
    (result : Except Blame (List Edge)) : Prop :=
  ∃ next, move = some next ∧ Follows config input cursor next result

namespace Moves

theorem refuse {offset : Nat} {fault : Fault}
    (boundary : Text.IsBoundary offset (encode 0 input)) (other : fault ≠ .malformedMark) :
    Moves config input cursor (some (.refuse (offset, fault))) (.error (offset, fault)) :=
  ⟨_, rfl, .refuse boundary other⟩

/-- A move over some of the symbols ahead. -/
theorem on {moved rest : List Symbol} {next : Cursor} {edge : Option Edge}
    {result : Except Blame (List Edge)} (stands : Stands input behind (moved ++ rest) cursor)
    (further : next.offset = cursor.offset + Text.size (encode (behind.count .node) moved))
    (nonempty : moved ≠ []) (rooted : next.stage.Rooted next.offset (encode 0 input))
    (same : result =
      (edgesAt config (encode (behind.count .node + moved.count .node) rest) next).map
        (edge.toList ++ ·)) :
    Moves config input cursor (some (.on next edge)) result := by
  have positive : 0 < Text.size (encode (behind.count .node) moved) := by
    rw [Nat.pos_iff_ne_zero, ne_eq, Text.size_eq_zero_iff]
    cases moved with
    | nil => exact absurd rfl nonempty
    | cons symbol moved => cases symbol <;> simp [placeholder]
  refine ⟨_, rfl, .on ?_ (stands.on further rooted) ?_⟩
  · rw [further]
    exact Nat.lt_add_of_pos_right positive
  · rw [List.count_append]
    exact same

theorem map_no_edge (result : Except Blame (List Edge)) :
    result.map ((none : Option Edge).toList ++ ·) = result := by
  cases result with
  | error blame => rfl
  | ok edges => rfl

/-- A move over written characters, which completes no edge. -/
theorem overChars (text : Text) {rest : List Symbol} {next : Cursor}
    {result : Except Blame (List Edge)}
    (stands : Stands input behind (chars text ++ rest) cursor)
    (further : next.offset = cursor.offset + Text.size text) (nonempty : text ≠ [])
    (rooted : next.stage.Rooted next.offset (encode 0 input))
    (same : result = edgesAt config (encode (behind.count .node) rest) next) :
    Moves config input cursor (some (.on next none)) result := by
  refine on stands ?_ ?_ rooted ?_
  · rw [size_encode_chars, further]
  · simpa [chars] using nonempty
  · rw [count_node_chars, Nat.add_zero, same, map_no_edge]

/-- A move over a node. -/
theorem overNode {rest : List Symbol} {next : Cursor} {edge : Option Edge}
    {result : Except Blame (List Edge)} (stands : Stands input behind (.node :: rest) cursor)
    (further : next.offset = cursor.offset + Text.size (placeholder (behind.count .node)))
    (rooted : next.stage.Rooted next.offset (encode 0 input))
    (same : result =
      (edgesAt config (encode (behind.count .node + 1) rest) next).map (edge.toList ++ ·)) :
    Moves config input cursor (some (.on next edge)) result := by
  have single : [Symbol.node] ++ rest = .node :: rest := rfl
  rw [← single] at stands
  refine on stands ?_ (by simp) rooted same
  rw [further, encode_node, encode_nil, List.append_nil]

end Moves

/-- The next move of a cursor is safe, and the reader agrees with it. -/
def Proceeds (config : RenderConfig) (input behind ahead : List Symbol) (cursor : Cursor) : Prop :=
  Moves config input cursor (step config (encode 0 input) cursor)
    (edgesAt config (encode (behind.count .node) ahead) cursor)

/-! ## Between arrows -/

theorem size_eq_of_head? {text after : Text} {backward : Bool} {size : Nat}
    (taken : head? text = some (backward, size, after)) :
    size = Text.size (Direction.front (if backward then .backward else .undirected)) := by
  unfold head? at taken
  split at taken
  · cases taken; rfl
  · cases taken; rfl
  · cases taken

theorem faultWithoutNode_ne_malformedMark (char : Char) :
    faultWithoutNode char ≠ .malformedMark := by
  rw [faultWithoutNode]
  split
  · exact nofun
  · exact nofun

namespace Stands

variable {offset : Nat}

/-- A head is written characters, and the offset of the first of them is kept. -/
theorem moves_over_head {left size : Nat} {backward : Bool} {after : Text}
    (stands : Stands input behind ahead ⟨.between (some left), offset⟩)
    (head : head? (encode (behind.count .node) ahead) = some (backward, size, after)) :
    Moves config input ⟨.between (some left), offset⟩
      (some (.on ⟨.head left backward offset, offset + size⟩ none))
      (linked config (arrow config left backward offset (offset + size) after)) := by
  have whole := of_head?_eq_some head
  have plain : mark ∉ Direction.front (if backward then .backward else .undirected) := by
    cases backward <;> decide
  obtain ⟨later, rfl, rfl⟩ := encode_eq_append plain whole
  refine .overChars _ stands ?_ ?_ stands.boundary rfl
  · rw [size_eq_of_head? head]
  · cases backward <;> exact nofun

theorem proceeds_between {current : Option Nat} (unread : Symbol.char mark ∉ ahead)
    (stands : Stands input behind ahead ⟨.between current, offset⟩) :
    Proceeds config input behind ahead ⟨.between current, offset⟩ := by
  rw [Proceeds]
  cases ahead with
  | nil =>
      rw [stands.step_of_nil, edgesAt, encode_nil]
      dsimp only
      rw [edgesFrom_nil]
      exact ⟨.finish, rfl, .finish⟩
  | cons symbol rest =>
      cases symbol with
      | node =>
          rw [stands.step_of_node, moveAt, edgesAt]
          dsimp only
          rw [moveBetween.eq_def, if_neg (Bool.eq_false_iff.mp not_isBlank_mark), if_pos rfl,
            placeholderAt_node stands, encode_node, edgesFrom_placeholder, ← size_placeholder]
          exact .overNode stands rfl trivial (Moves.map_no_edge _).symm
      | char written =>
          have other : written ≠ mark := by
            rintro rfl
            exact unread List.mem_cons_self
          rw [stands.step_of_char, moveAt, edgesAt, encode_char]
          dsimp only
          rw [moveBetween.eq_def]
          by_cases space : Text.isBlank written = true
          · rw [if_pos space, edgesFrom_blank space]
            exact .overChars [written] stands rfl (by simp) trivial rfl
          rw [if_neg space, if_neg other]
          by_cases stop : written = ',' ∨ written = '.'
          · rw [if_pos (by simpa using stop), edgesFrom_separator stop]
            refine .overChars [written] stands ?_ (by simp) trivial rfl
            rcases stop with rfl | rfl <;> rfl
          rw [if_neg (by simpa using stop),
            edgesFrom_of_other (Bool.eq_false_iff.mpr space) other stop]
          cases current with
          | none => exact .refuse stands.boundary (faultWithoutNode_ne_malformedMark written)
          | some left =>
              dsimp only
              cases head : head? (written :: encode (behind.count .node) rest) with
              | none => exact .refuse stands.boundary nofun
              | some taken =>
                  rw [← encode_char] at head
                  exact stands.moves_over_head head

end Stands

/-! ## Brackets -/

theorem predicateTerm_ne_malformedMark {text : Text} {fault : Fault}
    (refused : predicateTerm config text = .error fault) : fault ≠ .malformedMark := by
  rintro rfl
  rw [predicateTerm] at refused
  split at refused
  · cases refused
  · split at refused
    · cases refused
    · cases refused

namespace Stands

variable {offset left start : Nat} {backward : Bool}

theorem proceeds_head (stands : Stands input behind ahead ⟨.head left backward start, offset⟩) :
    Proceeds config input behind ahead ⟨.head left backward start, offset⟩ := by
  have rooted : Text.IsBoundary start (encode 0 input) := stands.rooted
  rw [Proceeds]
  cases ahead with
  | nil =>
      rw [stands.step_of_nil]
      exact .refuse rooted nofun
  | cons symbol rest =>
      cases symbol with
      | node =>
          rw [stands.step_of_node]
          exact .refuse stands.boundary nofun
      | char written =>
          rw [stands.step_of_char, moveAt, edgesAt, encode_char]
          dsimp only
          by_cases opens : written = '['
          · subst opens
            rw [if_pos rfl]
            refine .overChars ['['] stands rfl (by simp) ?_ rfl
            exact ⟨rooted, rfl, offset, rfl, stands.boundary⟩
          · rw [if_neg opens, arrow, bracketed, if_neg opens]
            exact .refuse stands.boundary nofun

/-- At a predicate the end of the text is one more way for it not to be closed. -/
theorem step_inside {opened : Nat}
    (stands : Stands input behind ahead ⟨.inside left backward start opened, offset⟩) :
    step config (encode 0 input) ⟨.inside left backward start opened, offset⟩ =
      moveInside config (encode (behind.count .node) ahead) left backward start opened offset := by
  cases ahead with
  | nil => exact stands.step_of_nil
  | cons symbol rest =>
      cases symbol with
      | node => exact stands.step_of_node
      | char written => exact stands.step_of_char

/-- A predicate and the bracket behind it are written characters. -/
theorem moves_over_predicate {opened : Nat} {predicate : Term} {after : Text}
    (stands : Stands input behind ahead ⟨.inside left backward start opened, offset⟩)
    (rooted : Text.IsBoundary start (encode 0 input))
    (ends : (encode (behind.count .node) ahead).dropWhile isPredicateChar = ']' :: after) :
    let size := Text.size ((encode (behind.count .node) ahead).takeWhile isPredicateChar)
    Moves config input ⟨.inside left backward start opened, offset⟩
      (some (.on ⟨.tail left backward start predicate, offset + (size + 1)⟩ none))
      (linked config (behindBracket left backward start predicate (offset + size + 1) after)) := by
  have whole := Text.eq_takeWhile_append ends
  have inside : ∀ char ∈ (encode (behind.count .node) ahead).takeWhile isPredicateChar,
      isPredicateChar char = true := Text.takeWhile_inside _
  generalize (encode (behind.count .node) ahead).takeWhile isPredicateChar = inner at *
  have plain : mark ∉ inner ++ [']'] := by
    rw [List.mem_append, not_or]
    refine ⟨fun member => (isPredicateChar_iff.mp (inside mark member)).2.2 rfl, ?_⟩
    decide
  have split : encode (behind.count .node) ahead = (inner ++ [']']) ++ after := by
    rw [whole, List.append_assoc]
    rfl
  obtain ⟨later, rfl, rfl⟩ := encode_eq_append plain split
  refine .overChars _ stands ?_ (by simp) rooted rfl
  rw [Text.size_append]
  rfl

theorem proceeds_inside {opened : Nat}
    (stands : Stands input behind ahead ⟨.inside left backward start opened, offset⟩) :
    Proceeds config input behind ahead ⟨.inside left backward start opened, offset⟩ := by
  obtain ⟨rooted, same, bracket, rfl, before⟩ := stands.rooted
  have other : Fault.openPredicate ≠ .malformedMark := by decide
  dsimp only at same
  subst same
  rw [Proceeds, stands.step_inside, moveInside, edgesAt]
  dsimp only
  rw [arrow_eq, Nat.add_sub_cancel, bracketed, if_pos rfl, Text.offsetOf?_not]
  dsimp only
  set rest := encode (behind.count .node) ahead
  cases ends : rest.dropWhile isPredicateChar with
  | nil => exact .refuse before other
  | cons stop after =>
      rw [if_neg (List.cons_ne_nil stop after)]
      dsimp only
      rw [Text.from?_takeWhile, Text.upTo?_takeWhile, ends]
      simp only [Option.bind_eq_bind, Option.bind_some]
      by_cases closes : stop = ']'
      case neg =>
        -- Any other character that ends a predicate leaves it unclosed.
        split
        case h_1 closed =>
          rw [List.cons.injEq] at closed
          exact absurd closed.1 closes
        case h_2 =>
          split
          case h_1 closed =>
            rw [List.cons.injEq] at closed
            exact absurd closed.1 closes
          case h_2 => exact .refuse before other
      subst closes
      cases resolved : predicateTerm config (rest.takeWhile isPredicateChar) with
      | error fault =>
          exact .refuse stands.boundary (predicateTerm_ne_malformedMark resolved)
      | ok predicate =>
          exact stands.moves_over_predicate rooted ends

end Stands

/-! ## Tails -/

theorem tail_of_other {backward : Bool} {start offset : Nat} {char : Char} {rest : Text}
    (other : char ≠ '-') :
    tail backward start offset (char :: rest) = .error (offset, .missingTail) := by
  unfold tail
  split
  case h_1 none => cases none
  case h_2 same => cases same; exact absurd rfl other
  case h_3 same => cases same; exact absurd rfl other
  case h_4 => rfl

namespace Stands

variable {offset left start : Nat} {backward : Bool} {predicate : Term}

theorem proceeds_tail
    (stands : Stands input behind ahead ⟨.tail left backward start predicate, offset⟩) :
    Proceeds config input behind ahead ⟨.tail left backward start predicate, offset⟩ := by
  have rooted : Text.IsBoundary start (encode 0 input) := stands.rooted
  rw [Proceeds]
  cases ahead with
  | nil =>
      rw [stands.step_of_nil]
      exact .refuse rooted nofun
  | cons symbol rest =>
      cases symbol with
      | node =>
          rw [stands.step_of_node]
          exact .refuse stands.boundary nofun
      | char written =>
          rw [stands.step_of_char, moveAt, edgesAt, encode_char]
          dsimp only
          by_cases dash : written = '-'
          case neg =>
            rw [moveTail, if_neg dash, behindBracket, tail_of_other dash]
            exact .refuse stands.boundary nofun
          subst dash
          have cut : Text.from? 1 ('-' :: encode (behind.count .node) rest) =
              some (encode (behind.count .node) rest) := Text.from?_append ['-'] _
          rw [moveTail, if_pos rfl, cut, Option.bind_eq_bind, Option.bind_some]
          by_cases pointed : (encode (behind.count .node) rest).head? = some '>'
          case pos =>
            obtain ⟨after, shown⟩ := List.head?_eq_some_iff.mp pointed
            have plain : mark ∉ ['>'] := by decide
            obtain ⟨later, rfl, rfl⟩ := encode_eq_append plain shown
            cases backward with
            | true =>
                rw [decide_eq_true pointed, shown]
                exact .refuse rooted nofun
            | false =>
                rw [decide_eq_true pointed, shown]
                exact .overChars ['-', '>'] stands rfl (by simp) rooted rfl
          case neg =>
            cases backward with
            | true =>
                have turn : tail true start offset ('-' :: encode (behind.count .node) rest) =
                    .ok (.backward, offset + 1, encode (behind.count .node) rest) :=
                  @tail_eq_ok .backward _ pointed start offset
                rw [decide_eq_false pointed, behindBracket, turn]
                exact .overChars ['-'] stands rfl (by simp) rooted rfl
            | false =>
                have turn : tail false start offset ('-' :: encode (behind.count .node) rest) =
                    .ok (.undirected, offset + 1, encode (behind.count .node) rest) :=
                  @tail_eq_ok .undirected _ pointed start offset
                rw [decide_eq_false pointed, behindBracket, turn]
                exact .overChars ['-'] stands rfl (by simp) rooted rfl

end Stands

/-! ## Targets -/

theorem endpoint_blank {start offset : Nat} {char : Char} {rest : Text}
    (space : Text.isBlank char = true) :
    endpoint start offset (char :: rest) = endpoint start (offset + char.utf8Size) rest := by
  rw [endpoint, endpoint, List.takeWhile_cons, List.dropWhile_cons, if_pos space, if_pos space,
    Text.size_cons, Nat.add_assoc]

theorem endpoint_of_visible {start offset : Nat} {char : Char} {rest : Text}
    (visible : Text.isBlank char = false) :
    endpoint start offset (char :: rest) =
      match placeholder? (char :: rest) with
      | none => .error (start, .missingTarget)
      | some (position, size, after) => .ok (position, offset + size, after) := by
  rw [endpoint, List.takeWhile_cons, List.dropWhile_cons, visible]
  rfl

theorem endpoint_placeholder (start offset position : Nat) (rest : Text) :
    endpoint start offset (placeholder position ++ rest) =
      .ok (position, offset + Text.size (placeholder position), rest) := by
  rw [placeholder_eq_cons, endpoint_of_visible not_isBlank_mark, ← placeholder_eq_cons,
    placeholder?_placeholder, size_placeholder]

namespace Stands

variable {offset left start : Nat} {predicate : Term} {direction : Direction}

theorem proceeds_target (unread : Symbol.char mark ∉ ahead)
    (stands : Stands input behind ahead ⟨.target left start predicate direction, offset⟩) :
    Proceeds config input behind ahead ⟨.target left start predicate direction, offset⟩ := by
  have rooted : Text.IsBoundary start (encode 0 input) := stands.rooted
  rw [Proceeds]
  cases ahead with
  | nil =>
      rw [stands.step_of_nil]
      exact .refuse rooted nofun
  | cons symbol rest =>
      cases symbol with
      | node =>
          rw [stands.step_of_node, moveAt, edgesAt, encode_node]
          dsimp only
          rw [moveTarget, if_neg (Bool.eq_false_iff.mp not_isBlank_mark),
            placeholderAt_node stands, behindTail, endpoint_placeholder]
          exact .overNode stands rfl trivial rfl
      | char written =>
          have other : written ≠ mark := by
            rintro rfl
            exact unread List.mem_cons_self
          rw [stands.step_of_char, moveAt, edgesAt, encode_char]
          dsimp only
          by_cases space : Text.isBlank written = true
          · rw [moveTarget, if_pos space, behindTail, endpoint_blank space]
            exact .overChars [written] stands rfl (by simp) rooted rfl
          · rw [moveTarget, if_neg space, behindTail,
              endpoint_of_visible (Bool.eq_false_iff.mpr space),
              placeholderAt_eq stands.from?_eq, encode_char, placeholder?, if_neg other]
            exact .refuse rooted nofun

end Stands

/-! ## Every stage -/

/-- Wherever a cursor stands, its next move is safe and the reader agrees with it. -/
theorem Stands.proceeds (config : RenderConfig) (unmarked : Symbol.char mark ∉ input)
    (stands : Stands input behind ahead cursor) :
    Proceeds config input behind ahead cursor := by
  have unread := stands.unread unmarked
  obtain ⟨stage, offset⟩ := cursor
  cases stage with
  | between current => exact stands.proceeds_between unread
  | head left backward start => exact stands.proceeds_head
  | inside left backward start opened => exact stands.proceeds_inside
  | tail left backward start predicate => exact stands.proceeds_tail
  | target left start predicate direction => exact stands.proceeds_target unread

end SparqlText.ArrowPattern
