/-
# Safety of reading arrow patterns

The cursor goes forward with every move, and so it comes to the end of the text or to
a fault, with the same result as the reader of patterns (`Stands.reads`). What holds
wherever it stands holds at every cursor of the reading: it stands at a boundary, all
that it cuts out of the text is there, its faults are blamed on boundaries, and the
node that it reads is the node of the segment that was written there (`Safe`). The
reader's faults are those of some cursor, and so `read_safe` says the same of what
the reader of segments blames.
-/

import SparqlText.Proofs.Arrow.Agreement

namespace SparqlText.ArrowPattern

variable {config : RenderConfig} {input behind ahead : List Symbol} {cursor : Cursor}

/-! ## Whole readings -/

/-- A cursor comes to the end of its reading, with what the reader makes of the text. -/
theorem Stands.reads (unmarked : Symbol.char mark ∉ input)
    (stands : Stands input behind ahead cursor) :
    Reads config (encode 0 input) cursor
      (edgesAt config (encode (behind.count .node) ahead) cursor) := by
  -- Every move leaves fewer bytes in front of the cursor.
  induction left : Text.size (encode 0 input) - cursor.offset using Nat.strongRecOn
    generalizing behind ahead cursor with
  | ind bound ih =>
      obtain ⟨move, moves, follows⟩ := stands.proceeds config unmarked
      generalize edgesAt config (encode (behind.count .node) ahead) cursor = result at follows ⊢
      cases follows with
      | finish => exact .finish moves
      | refuse boundary other => exact .refuse moves
      | @on next edge _ behind ahead further later same =>
          have within := later.boundary.le
          have fewer : Text.size (encode 0 input) - next.offset < bound := by
            rw [← left]
            exact Nat.sub_lt_sub_left (further.trans_le within) further
          rw [same]
          exact .on moves (ih _ fewer later rfl)

theorem reads_initial (config : RenderConfig) (unmarked : Symbol.char mark ∉ input) :
    Reads config (encode 0 input) .initial (edgesFrom config none 0 (encode 0 input)) :=
  (Stands.initial input).reads unmarked

theorem Reached.stands (unmarked : Symbol.char mark ∉ input)
    (reached : Reached config (encode 0 input) cursor) :
    ∃ behind ahead, Stands input behind ahead cursor := by
  induction reached with
  | initial => exact ⟨[], input, .initial input⟩
  | on before moves ih =>
      obtain ⟨behind, ahead, stands⟩ := ih
      obtain ⟨move, same, follows⟩ := stands.proceeds config unmarked
      rw [moves, Option.some.injEq] at same
      subst same
      cases follows with
      | on further later _ => exact ⟨_, _, later⟩

/-! ## The cursors of a reading -/

/-- A node is no character of a text, and so all of the text is in front of it. -/
theorem of_chars_append_eq {text : Text} {others rest : List Symbol}
    (split : chars text ++ others = behind ++ .node :: rest) :
    ∃ more, behind = chars text ++ more ∧ others = more ++ .node :: rest := by
  rw [List.append_eq_append_iff] at split
  cases split with
  | inl split => exact split
  | inr split =>
      obtain ⟨inside, whole, later⟩ := split
      cases inside with
      | nil => exact ⟨[], by simpa using whole.symm, by simpa using later.symm⟩
      | cons symbol inside =>
          rw [List.cons_append, List.cons.injEq] at later
          obtain ⟨rfl, _⟩ := later
          have absent := List.count_eq_zero.mp (count_node_chars text)
          rw [whole] at absent
          exact absurd (List.mem_append_right _ List.mem_cons_self) absent

/-- A node among the symbols of segments is one of the segments. -/
theorem exists_of_symbols_eq {segments : List Segment} {behind rest : List Symbol}
    (split : symbols segments = behind ++ .node :: rest) :
    ∃ before id after, segments = before ++ .node id :: after ∧ symbols before = behind := by
  induction segments generalizing behind with
  | nil => cases behind <;> cases split
  | cons segment segments ih =>
      cases segment with
      | node id =>
          cases behind with
          | nil => exact ⟨[], id, segments, rfl, rfl⟩
          | cons symbol behind =>
              rw [symbols, List.cons_append, List.cons.injEq] at split
              obtain ⟨rfl, later⟩ := split
              obtain ⟨before, other, after, rfl, rfl⟩ := ih later
              exact ⟨.node id :: before, other, after, rfl, rfl⟩
      | text text =>
          obtain ⟨others, rfl, later⟩ := of_chars_append_eq split
          obtain ⟨before, id, after, rfl, rfl⟩ := ih later
          exact ⟨.text text :: before, id, after, rfl, rfl⟩

/-- A node of segments that their text has at an offset: it is the node of one segment,
which has the given position among all nodes, and the text of the segments in front of
that one ends where the node is written. -/
def NodeAt (segments : List Segment) (offset position size : Nat) : Prop :=
  ∃ before id after front, segments = before ++ .node id :: after ∧
    assembled 0 before = .ok front ∧ Text.size front = offset ∧
    size = Text.size (placeholder position) ∧ position = (nodesOf before).length ∧
    (nodesOf segments)[position]? = some id

/-- What is safe about a reading of segments when it comes to a cursor. -/
structure Safe (config : RenderConfig) (segments : List Segment) (text : Text) (cursor : Cursor) :
    Prop where
  /-- It stands at a boundary. -/
  within : Text.IsBoundary cursor.offset text
  /-- It has a move, and so every cut that it makes of the text is there. -/
  moves : (step config text cursor).isSome
  /-- It goes forward unless the reading ends. -/
  advances : ∀ next edge, step config text cursor = some (.on next edge) →
    cursor.offset < next.offset
  /-- A fault is blamed on a boundary, and is never that of a malformed node. -/
  blames : ∀ offset fault, step config text cursor = some (.refuse (offset, fault)) →
    Text.IsBoundary offset text ∧ fault ≠ .malformedMark
  /-- A node that is read here is the one whose segment was written here. -/
  nodes : ∀ position size, placeholderAt text cursor.offset = some (some (position, size)) →
    NodeAt segments cursor.offset position size

variable {segments : List Segment}

theorem Stands.nodeAt_of_placeholderAt {position size : Nat}
    (unmarked : Symbol.char mark ∉ symbols segments)
    (stands : Stands (symbols segments) behind ahead cursor)
    (taken : placeholderAt (encode 0 (symbols segments)) cursor.offset =
      some (some (position, size))) :
    NodeAt segments cursor.offset position size := by
  have read := taken
  rw [placeholderAt_eq stands.from?_eq, Option.some.injEq, Option.map_eq_some_iff] at read
  obtain ⟨⟨found, bytes, rest⟩, read, _⟩ := read
  obtain ⟨later, rfl, _, _⟩ := placeholder?_encode (stands.unread unmarked) read
  obtain ⟨before, id, after, rfl, rfl⟩ := exists_of_symbols_eq stands.whole
  rw [placeholderAt_node stands, Option.some.injEq, Option.some.injEq, Prod.mk.injEq] at taken
  obtain ⟨rfl, rfl⟩ := taken
  have unread : Symbol.char mark ∉ symbols before := by
    rw [stands.whole, List.mem_append, not_or] at unmarked
    exact unmarked.1
  refine ⟨before, id, after, encode 0 (symbols before), rfl, assembled_of_unmarked unread,
    stands.offset.symm, rfl, count_node_symbols before, ?_⟩
  rw [count_node_symbols, nodesOf, nodesOf, List.filterMap_append,
    List.getElem?_append_right (Nat.le_refl _), Nat.sub_self]
  rfl

theorem Stands.safe (unmarked : Symbol.char mark ∉ symbols segments)
    (stands : Stands (symbols segments) behind ahead cursor) :
    Safe config segments (encode 0 (symbols segments)) cursor := by
  obtain ⟨move, moves, follows⟩ := stands.proceeds config unmarked
  constructor
  case within => exact stands.boundary
  case moves => rw [moves]; rfl
  case advances =>
    intro next edge same
    rw [moves, Option.some.injEq] at same
    subst same
    cases follows with
    | on further => exact further
  case blames =>
    intro offset fault same
    rw [moves, Option.some.injEq] at same
    subst same
    generalize edgesAt config (encode (behind.count .node) ahead) cursor = result at follows
    cases follows with
    | refuse boundary other => exact ⟨boundary, other⟩
  case nodes => exact fun position size taken => stands.nodeAt_of_placeholderAt unmarked taken

/-- A fault of a reading is that of one of its cursors. -/
theorem Reads.exists_refused {text : Text} {blame : Blame} (reached : Reached config text cursor)
    (reads : Reads config text cursor (.error blame)) :
    ∃ last, Reached config text last ∧ step config text last = some (.refuse blame) := by
  generalize outcome : Except.error blame = result at reads
  induction reads with
  | finish => cases outcome
  | refuse stops =>
      cases outcome
      exact ⟨_, reached, stops⟩
  | @on cursor next edge result moves _ ih =>
      cases result with
      | error other =>
          cases outcome
          exact ih (.on reached moves) rfl
      | ok edges => cases outcome

theorem isBoundary_echoed {offset : Nat} {text : Text} (boundary : Text.IsBoundary offset text) :
    Text.IsBoundary offset (echoed text) := by
  refine boundary.map ?_
  intro char
  split
  case isTrue marked =>
    subst marked
    rfl
  case isFalse => rfl

/-- The message of a refusal begins unlike that of a malformed node. -/
theorem head?_message (reason : Refusal) : reason.message.head? = some 'i' := by
  have lead : "invalid value \x60".toList.head? = some 'i' := by decide +kernel
  unfold Refusal.message
  rw [List.append_assoc, List.append_assoc, List.head?_append, lead]
  exact Option.some_or

theorem malformedMark_of_message_eq {fault : Fault}
    (same : fault.message = Fault.malformedMark.message) : fault = .malformedMark := by
  cases fault with
  | malformedMark => rfl
  | refused reason =>
      have first : Fault.malformedMark.message.head? = some 'm' := by decide +kernel
      have other : (Fault.refused reason).message.head? = some 'i' := head?_message reason
      rw [← same, other] at first
      cases first
  | _ => exact absurd same (by decide +kernel)

/-! ## Reading segments -/

/-- The text that segments are assembled to is read to its end, with the result of the
reader of patterns and no other, and at every cursor on the way the reading is safe. Where
the reader refuses the text, the offset is a boundary of the text as it is shown, and the
fault is not that of a malformed node. -/
theorem read_safe (config : RenderConfig) (segments : List Segment) :
    (∀ text, assembled 0 segments = .ok text →
      (∀ result, Reads config text .initial result ↔ result = edgesFrom config none 0 text) ∧
        ∀ cursor, Reached config text cursor → Safe config segments text cursor) ∧
      ∀ input offset fault, read config segments = .error (.unparsed input offset fault) →
        ∃ text, assembled 0 segments = .ok text ∧ input = echoed text ∧
          Text.IsBoundary offset input ∧ offset ≤ Text.size input ∧
          fault.message ≠ Fault.malformedMark.message := by
  constructor
  · intro text assembly
    obtain ⟨unmarked, rfl⟩ := assembled_eq_ok_iff.mp assembly
    have reads := reads_initial config unmarked
    refine ⟨fun result => ⟨fun other => other.unique reads, fun same => same ▸ reads⟩, ?_⟩
    intro cursor reached
    obtain ⟨behind, ahead, stands⟩ := reached.stands unmarked
    exact stands.safe unmarked
  · intro input offset fault refused
    rw [read] at refused
    split at refused
    case h_1 => cases refused
    case h_2 text assembly =>
      split at refused
      case h_2 => cases refused
      case h_1 offset fault blamed =>
        cases refused
        obtain ⟨unmarked, rfl⟩ := assembled_eq_ok_iff.mp assembly
        have reads := reads_initial config unmarked
        rw [blamed] at reads
        obtain ⟨last, reached, stops⟩ := Reads.exists_refused .initial reads
        obtain ⟨behind, ahead, stands⟩ := reached.stands unmarked
        obtain ⟨boundary, other⟩ := (stands.safe unmarked).blames _ _ stops
        have shown := isBoundary_echoed boundary
        refine ⟨_, assembly, rfl, shown, shown.le, ?_⟩
        exact fun same => other (malformedMark_of_message_eq same)

/-- Two nodes with an arrow between them, among characters of more than one byte, and
then a letter where the next arrow could begin. -/
def wide : List Segment :=
  [.node 7, .text ['\u3000', '<', '-', '[', '?', 'p', ']', '-'], .node 5, .text [' ', 'é']]

/-- The text of `wide`. The arrow begins at its seventh byte. -/
def wideText : Text :=
  [mark, '0', mark, '\u3000', '<', '-', '[', '?', 'p', ']', '-', mark, '1', mark, ' ', 'é']

theorem read_safe_wide :
    read .standard wide = .error (.unparsed (echoed wideText) 17 .unexpectedText) ∧
      Text.IsBoundary 17 (echoed wideText) ∧
      Safe .standard wide wideText ⟨.target 0 6 ⟨['?', 'p']⟩ .backward, 13⟩ := by
  have assembly : assembled 0 wide = .ok wideText := by decide +kernel
  obtain ⟨reads, safe⟩ := (read_safe .standard wide).1 wideText assembly
  -- Over the first node, the space, the head, the bracket, the predicate, the tail, the second
  -- node and the space, to the letter.
  have outcome : edgesFrom .standard none 0 wideText = .error (17, .unexpectedText) :=
    ((reads (.error (17, .unexpectedText))).mp
      (.on rfl (.on rfl (.on rfl (.on rfl (.on rfl (.on rfl (.on rfl (.on rfl
        (.refuse rfl)))))))))).symm
  have refused : read .standard wide =
      .error (.unparsed (echoed wideText) 17 .unexpectedText) := by
    rw [read, assembly]
    dsimp only
    rw [outcome]
  obtain ⟨_, _, _, boundary, _⟩ := (read_safe .standard wide).2 _ _ _ refused
  have reached : Reached .standard wideText ⟨.target 0 6 ⟨['?', 'p']⟩ .backward, 13⟩ :=
    .on (.on (.on (.on (.on (.on .initial rfl) rfl) rfl) rfl) rfl) rfl
  exact ⟨refused, boundary, safe _ reached⟩

end SparqlText.ArrowPattern
