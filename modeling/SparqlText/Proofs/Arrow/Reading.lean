/-
# Reading arrow patterns from assembled text

Each reader is described by what it accepts: given what it should read it answers,
and what it answers was there to be read. The edges read from an encoding are then
those of the scan of its symbols (`edgesFrom_eq_ok_iff`), and so those of the grammar
(`read_eq_ok_iff_written`).

The reader knows only the node that it stands behind and an offset. That the next
node has the position after that one is what it keeps on its way, since nothing
else numbers the nodes of the text.
-/

import SparqlText.Proofs.Arrow.Encoding

namespace SparqlText.ArrowPattern

/-! ## One arrow -/

theorem isPredicateChar_iff {char : Char} :
    isPredicateChar char = true ↔ char ≠ ']' ∧ char ≠ '\n' ∧ char ≠ mark := by
  simp [isPredicateChar, and_assoc]

theorem predicateTerm_eq_ok_iff {config : RenderConfig} {text : Text} {term : Term} :
    predicateTerm config text = .ok term ↔
      Term.predicate config text = .ok term ∧ term.isBlankNode = false := by
  rw [predicateTerm]
  cases resolved : Term.predicate config text with
  | error reason => simp
  | ok other =>
      simp only [Except.ok.injEq]
      by_cases blank : other.isBlankNode = true
      · rw [if_pos blank]
        refine ⟨nofun, ?_⟩
        rintro ⟨rfl, named⟩
        exact absurd blank (Bool.eq_false_iff.mp named)
      · rw [if_neg blank, Except.ok.injEq]
        refine ⟨?_, fun ⟨same, _⟩ => same⟩
        intro same
        subst same
        exact ⟨rfl, Bool.eq_false_iff.mpr blank⟩

/-- What stands between brackets is taken up to the first closing bracket. -/
theorem bracketed_eq_ok {config : RenderConfig} {inner after : Text} {term : Term}
    (unmarked : mark ∉ inner) (within : Predicate config inner term) (start offset : Nat) :
    bracketed config start offset ('[' :: (inner ++ ']' :: after)) =
      .ok (term, offset + 1 + Text.size inner + 1, after) := by
  have inside : ∀ char ∈ inner, isPredicateChar char = true := by
    intro char member
    refine isPredicateChar_iff.mpr ⟨?_, ?_, ?_⟩
    · rintro rfl; exact within.unclosed member
    · rintro rfl; exact within.unbroken member
    · rintro rfl; exact unmarked member
  have stop : isPredicateChar ']' = false := by decide
  have accepted : predicateTerm config inner = .ok term :=
    predicateTerm_eq_ok_iff.mpr ⟨within.resolved, within.named⟩
  rw [bracketed, if_pos rfl]
  simp only [Text.takeWhile_run inside stop, Text.dropWhile_run inside stop, accepted]

theorem of_bracketed_eq_ok {config : RenderConfig} {start offset stop : Nat} {text after : Text}
    {term : Term} (taken : bracketed config start offset text = .ok (term, stop, after)) :
    ∃ inner, text = '[' :: (inner ++ ']' :: after) ∧ mark ∉ inner ∧
      Predicate config inner term := by
  cases text with
  | nil => cases taken
  | cons first rest =>
      rw [bracketed] at taken
      split at taken
      case isFalse => cases taken
      case isTrue opened =>
        simp only at taken
        split at taken
        case h_2 => cases taken
        case h_1 others closed =>
          split at taken
          case h_1 => cases taken
          case h_2 other accepted =>
            simp only [Except.ok.injEq, Prod.mk.injEq] at taken
            obtain ⟨rfl, _, rfl⟩ := taken
            have whole := Text.eq_takeWhile_append closed
            have inside (char : Char) (member : char ∈ rest.takeWhile isPredicateChar) :=
              isPredicateChar_iff.mp (Text.takeWhile_inside rest char member)
            obtain ⟨resolved, named⟩ := predicateTerm_eq_ok_iff.mp accepted
            refine ⟨rest.takeWhile isPredicateChar, ?_, ?_, ?_, ?_, resolved, named⟩
            · rw [opened, ← whole]
            · exact fun member => (inside _ member).2.2 rfl
            · exact fun member => (inside _ member).1 rfl
            · exact fun member => (inside _ member).2.1 rfl

/-- A tail is read for what it is, unless what follows would make it another. -/
theorem tail_eq_ok {direction : Direction} {after : Text} (unpointed : after.head? ≠ some '>')
    (start offset : Nat) :
    tail (decide (direction = .backward)) start offset (direction.back ++ after) =
      .ok (direction, offset + direction.back.length, after) := by
  cases direction with
  | forward => rfl
  | backward | undirected =>
      cases after with
      | nil => rfl
      | cons char after =>
          have other : char ≠ '>' := fun same => unpointed (congrArg some same)
          simp [tail, Direction.back, other]

theorem of_tail_eq_ok {backward : Bool} {start offset stop : Nat} {text after : Text}
    {direction : Direction}
    (taken : tail backward start offset text = .ok (direction, stop, after)) :
    text = direction.back ++ after ∧ backward = decide (direction = .backward) := by
  unfold tail at taken
  split at taken
  · cases taken
  · cases backward with
    | true => cases taken
    | false =>
        cases taken
        exact ⟨rfl, rfl⟩
  · cases backward with
    | true =>
        cases taken
        exact ⟨rfl, rfl⟩
    | false =>
        cases taken
        exact ⟨rfl, rfl⟩
  · cases taken

/-- The head of an arrow is read for what it is. -/
theorem head?_front (direction : Direction) (rest : Text) :
    head? (direction.front ++ '[' :: rest) =
      some (decide (direction = .backward), direction.front.length, '[' :: rest) := by
  cases direction <;> rfl

theorem of_head?_eq_some {text after : Text} {backward : Bool} {size : Nat}
    (taken : head? text = some (backward, size, after)) :
    text = Direction.front (if backward then .backward else .undirected) ++ after := by
  unfold head? at taken
  split at taken
  · cases taken
    rfl
  · cases taken
    rfl
  · cases taken

theorem not_isBlank_mark : Text.isBlank mark = false := by decide

/-- The node that an arrow ends at is found behind white space. -/
theorem endpoint_eq_ok {blank : Text} (gap : Blank blank) (position : Nat) (rest : Text)
    (start offset : Nat) :
    ∃ stop, endpoint start offset (blank ++ (placeholder position ++ rest)) =
      .ok (position, stop, rest) := by
  rw [endpoint, placeholder_eq_cons, Text.dropWhile_run gap not_isBlank_mark,
    ← placeholder_eq_cons, placeholder?_placeholder]
  exact ⟨_, rfl⟩

theorem of_endpoint_eq_ok {start offset stop position right : Nat} {input : List Symbol}
    {after : Text} (unmarked : Symbol.char mark ∉ input)
    (taken : endpoint start offset (encode position input) = .ok (right, stop, after)) :
    ∃ blank rest, input = chars blank ++ .node :: rest ∧ Blank blank ∧ right = position ∧
      after = encode (position + 1) rest := by
  rw [endpoint] at taken
  split at taken
  case h_1 => cases taken
  case h_2 found size ends reached =>
    cases taken
    have whole : encode position input = _ ++ (encode position input).dropWhile Text.isBlank :=
      Text.eq_takeWhile_append rfl
    have gap : Blank ((encode position input).takeWhile Text.isBlank) := Text.takeWhile_inside _
    have clear : mark ∉ (encode position input).takeWhile Text.isBlank := by
      intro member
      have blank := gap mark member
      rw [not_isBlank_mark] at blank
      cases blank
    obtain ⟨behind, same, encoded⟩ := encode_eq_append clear whole
    have fewer : Symbol.char mark ∉ behind := by
      intro member
      rw [same] at unmarked
      exact unmarked (List.mem_append_right _ member)
    rw [encoded] at reached
    obtain ⟨rest, rfl, sits, left⟩ := placeholder?_encode fewer reached
    exact ⟨_, rest, same, gap, sits, left⟩

/-- An arrow is read for what it is. -/
theorem arrow_eq_ok {config : RenderConfig} {inner after : Text} {predicate : Term}
    (unmarked : mark ∉ inner) (within : Predicate config inner predicate) (gap : Blank after)
    (left : Nat) (direction : Direction) (rest : Text) (start offset : Nat) :
    ∃ stop, arrow config left (decide (direction = .backward)) start offset
        ('[' :: (inner ++ ']' :: (direction.back ++ (after ++ (placeholder (left + 1) ++ rest))))) =
      .ok ⟨direction.edge left predicate, left + 1, stop, rest⟩ := by
  have unpointed : (after ++ (placeholder (left + 1) ++ rest)).head? ≠ some '>' := by
    cases after with
    | nil => exact nofun
    | cons char after =>
        intro pointed
        have blank := gap char List.mem_cons_self
        rw [List.cons_append, List.head?_cons, Option.some.injEq] at pointed
        subst pointed
        cases blank
  obtain ⟨stop, ends⟩ := endpoint_eq_ok gap (left + 1) rest start
    (offset + 1 + Text.size inner + 1 + direction.back.length)
  refine ⟨stop, ?_⟩
  rw [arrow, bracketed_eq_ok unmarked within]
  simp only [tail_eq_ok unpointed, ends]
  cases direction <;> rfl

theorem of_arrow_eq_ok {config : RenderConfig} {left position start offset : Nat}
    {backward : Bool} {input : List Symbol} {result : ArrowRead}
    (unmarked : Symbol.char mark ∉ input)
    (taken : arrow config left backward start offset (encode position input) = .ok result) :
    ∃ inner direction after predicate rest,
      input = chars ('[' :: (inner ++ ']' :: (direction.back ++ after))) ++ .node :: rest ∧
      backward = decide (direction = .backward) ∧ Predicate config inner predicate ∧
      Blank after ∧ result.edge = edgeBetween left predicate position direction ∧
      result.right = position ∧ result.rest = encode (position + 1) rest := by
  rw [arrow] at taken
  split at taken
  case h_1 => cases taken
  case h_2 predicate middle second bracket =>
    split at taken
    case h_1 => cases taken
    case h_2 direction last third turn =>
      split at taken
      case h_1 => cases taken
      case h_2 right stop fourth reached =>
        cases taken
        obtain ⟨inner, whole, clear, within⟩ := of_bracketed_eq_ok bracket
        obtain ⟨rfl, side⟩ := of_tail_eq_ok turn
        have plain : mark ∉ '[' :: (inner ++ ']' :: direction.back) := by
          cases direction <;> simpa [mark, Direction.back] using clear
        have split : encode position input =
            '[' :: (inner ++ ']' :: direction.back) ++ third := by simpa using whole
        obtain ⟨behind, rfl, rfl⟩ := encode_eq_append plain split
        have fewer : Symbol.char mark ∉ behind :=
          fun member => unmarked (List.mem_append_right _ member)
        obtain ⟨blank, rest, rfl, gap, rfl, rfl⟩ := of_endpoint_eq_ok fewer reached
        refine ⟨inner, direction, blank, predicate, rest, ?_, side, within, gap, rfl, rfl, rfl⟩
        simp [chars]

/-! ## Edges -/

variable {config : RenderConfig} {current : Option Nat} {offset : Nat}

theorem edgesFrom_nil : edgesFrom config current offset [] = .ok [] := by
  rw [edgesFrom.eq_def]

theorem edgesFrom_blank {char : Char} {rest : Text} (space : Text.isBlank char = true) :
    edgesFrom config current offset (char :: rest) =
      edgesFrom config current (offset + char.utf8Size) rest := by
  rw [edgesFrom.eq_def]
  dsimp only
  rw [if_pos space]

theorem edgesFrom_separator {char : Char} {rest : Text} (stop : char = ',' ∨ char = '.') :
    edgesFrom config current offset (char :: rest) =
      edgesFrom config none (offset + 1) rest := by
  rw [edgesFrom.eq_def]
  dsimp only
  cases stop with
  | inl comma =>
      subst comma
      rw [if_neg (by decide), if_neg (by decide), if_pos (by decide)]
  | inr point =>
      subst point
      rw [if_neg (by decide), if_neg (by decide), if_pos (by decide)]

/-- A node is where the next arrow would begin, whatever came before it. -/
theorem edgesFrom_placeholder (position : Nat) (rest : Text) :
    edgesFrom config current offset (placeholder position ++ rest) =
      edgesFrom config (some position) (offset + (Text.size (Decimal.digits position) + 2))
        rest := by
  have taken := placeholder?_placeholder position rest
  rw [placeholder_eq_cons] at taken ⊢
  rw [edgesFrom.eq_def]
  dsimp only
  rw [if_neg (Bool.eq_false_iff.mp not_isBlank_mark), if_pos rfl]
  split
  case h_1 missing =>
    rw [taken] at missing
    cases missing
  case h_2 found size after read =>
    rw [taken] at read
    cases read
    rfl

/-- Anything else can only be the head of an arrow that begins at the node before
it. -/
theorem edgesFrom_eq_ok_iff_of_other {char : Char} {rest : Text} {edges : List Edge}
    (visible : Text.isBlank char = false) (written : char ≠ mark)
    (inside : ¬(char = ',' ∨ char = '.')) :
    edgesFrom config current offset (char :: rest) = .ok edges ↔
      ∃ left backward size after result later, current = some left ∧
        head? (char :: rest) = some (backward, size, after) ∧
        arrow config left backward offset (offset + size) after = .ok result ∧
        edgesFrom config (some result.right) result.offset result.rest = .ok later ∧
        edges = result.edge :: later := by
  have separate : (decide (char = ',') || decide (char = '.')) ≠ true := by simpa using inside
  rw [edgesFrom.eq_def]
  dsimp only
  rw [if_neg (Bool.eq_false_iff.mp visible), if_neg written, if_neg separate]
  constructor
  · intro accepted
    cases current with
    | none => cases accepted
    | some left =>
        simp only at accepted
        split at accepted
        case h_1 => cases accepted
        case h_2 backward size after head =>
          split at accepted
          case h_1 => cases accepted
          case h_2 result turn =>
            split at accepted
            case h_1 => cases accepted
            case h_2 later others =>
              cases accepted
              exact ⟨left, backward, size, after, result, later, rfl, head, turn, others, rfl⟩
  · rintro ⟨left, backward, size, after, result, later, rfl, head, turn, others, rfl⟩
    simp only
    split
    case h_1 missing =>
      rw [head] at missing
      cases missing
    case h_2 read =>
      rw [head] at read
      cases read
      split
      case h_1 refused =>
        rw [turn] at refused
        cases refused
      case h_2 read =>
        rw [turn] at read
        cases read
        rw [others]

theorem edgesFrom_front {left : Nat} {direction : Direction} {rest : Text}
    {result : ArrowRead} {later : List Edge}
    (turn : arrow config left (decide (direction = .backward)) offset
      (offset + direction.front.length) ('[' :: rest) = .ok result)
    (others : edgesFrom config (some result.right) result.offset result.rest = .ok later) :
    edgesFrom config (some left) offset (direction.front ++ '[' :: rest) =
      .ok (result.edge :: later) := by
  have head := head?_front direction rest
  cases direction with
  | backward =>
      exact (edgesFrom_eq_ok_iff_of_other (by decide) (by decide) (by decide)).mpr
        ⟨left, _, _, _, result, later, rfl, head, turn, others, rfl⟩
  | forward | undirected =>
      exact (edgesFrom_eq_ok_iff_of_other (by decide) (by decide) (by decide)).mpr
        ⟨left, _, _, _, result, later, rfl, head, turn, others, rfl⟩

/-! ## Encodings of scans -/

theorem encode_arrowSymbols (position : Nat) (direction : Direction) (inner after : Text)
    (rest : List Symbol) :
    encode position (arrowSymbols direction inner after ++ rest) =
      direction.front ++ '[' :: (inner ++ ']' :: (direction.back ++
        (after ++ (placeholder position ++ encode (position + 1) rest)))) := by
  rw [arrowSymbols, List.append_assoc, encode_chars]
  simp

theorem not_mem_of_not_mem_arrowSymbols {direction : Direction} {inner after : Text} {char : Char}
    (absent : Symbol.char char ∉ arrowSymbols direction inner after) : char ∉ inner := by
  intro member
  rw [arrowSymbols, List.mem_append, not_or, char_mem_chars] at absent
  exact absent.1 (List.mem_append_right _
    (List.mem_cons_of_mem _ (List.mem_append_left _ member)))

/-- Every scan of symbols is read from their encoding. -/
theorem edgesFrom_of_scanned {position : Nat} {input : List Symbol} {edges : List Edge}
    (scanned : Scanned config current position input edges)
    (unmarked : Symbol.char mark ∉ input) (offset : Nat) :
    edgesFrom config current offset (encode position input) = .ok edges := by
  induction scanned generalizing offset with
  | finish current position => exact edgesFrom_nil
  | blank space _ ih =>
      rw [encode_char, edgesFrom_blank space]
      exact ih (List.not_mem_of_not_mem_cons unmarked) _
  | separator stop _ ih =>
      rw [encode_char, edgesFrom_separator stop]
      exact ih (List.not_mem_of_not_mem_cons unmarked) _
  | node _ ih =>
      rw [encode_node, edgesFrom_placeholder]
      exact ih (List.not_mem_of_not_mem_cons unmarked) _
  | @arrow left inner after direction predicate rest edges within gap _ ih =>
      rw [List.mem_append, not_or] at unmarked
      have clear := not_mem_of_not_mem_arrowSymbols unmarked.1
      obtain ⟨stop, turn⟩ := arrow_eq_ok clear within gap left direction
        (encode (left + 1 + 1) rest) offset (offset + direction.front.length)
      rw [encode_arrowSymbols]
      exact edgesFrom_front turn (ih unmarked.2 stop)

/-- A head and what is read behind it are the symbols of one arrow. -/
theorem of_head?_of_arrow {left size start offset : Nat} {backward : Bool} {input : List Symbol}
    {after : Text} {result : ArrowRead} (unmarked : Symbol.char mark ∉ input)
    (head : head? (encode (left + 1) input) = some (backward, size, after))
    (turn : arrow config left backward start offset after = .ok result) :
    ∃ direction inner gap predicate rest, input = arrowSymbols direction inner gap ++ rest ∧
      Predicate config inner predicate ∧ Blank gap ∧
      result.edge = direction.edge left predicate ∧ result.right = left + 1 ∧
      result.rest = encode (left + 1 + 1) rest := by
  have whole := of_head?_eq_some head
  have plain : mark ∉ Direction.front (if backward then .backward else .undirected) := by
    cases backward <;> decide
  obtain ⟨behind, rfl, rfl⟩ := encode_eq_append plain whole
  have fewer : Symbol.char mark ∉ behind :=
    fun member => unmarked (List.mem_append_right _ member)
  obtain ⟨inner, direction, gap, predicate, rest, rfl, rfl, within, spaces, edge, right, left⟩ :=
    of_arrow_eq_ok fewer turn
  refine ⟨direction, inner, gap, predicate, rest, ?_, within, spaces, ?_, right, left⟩
  · cases direction <;> simp [arrowSymbols, chars, Direction.front]
  · cases direction <;> exact edge

/-- Whatever is read from the encoding of symbols is a scan of them, if the node that
the reader stands behind is the last one before them. -/
theorem scanned_of_edgesFrom {position : Nat} {input : List Symbol} {edges : List Edge}
    (behind : ∀ left, current = some left → left + 1 = position)
    (unmarked : Symbol.char mark ∉ input)
    (accepted : edgesFrom config current offset (encode position input) = .ok edges) :
    Scanned config current position input edges := by
  -- By induction on the number of symbols: an arrow takes several of them at once.
  induction size : input.length using Nat.strongRecOn
    generalizing current offset position input edges with
  | ind bound ih =>
      cases input with
      | nil =>
          rw [encode_nil, edgesFrom_nil, Except.ok.injEq] at accepted
          subst accepted
          exact .finish current position
      | cons symbol rest =>
          have fewer := List.not_mem_of_not_mem_cons unmarked
          have shorter : rest.length < bound := by
            rw [← size, List.length_cons]
            exact Nat.lt_succ_self _
          cases symbol with
          | node =>
              rw [encode_node, edgesFrom_placeholder] at accepted
              refine .node (ih rest.length shorter ?_ fewer accepted rfl)
              rintro left same
              cases same
              rfl
          | char char =>
              rw [encode_char] at accepted
              by_cases space : Text.isBlank char = true
              · rw [edgesFrom_blank space] at accepted
                exact .blank space (ih rest.length shorter behind fewer accepted rfl)
              by_cases stop : char = ',' ∨ char = '.'
              · rw [edgesFrom_separator stop] at accepted
                exact .separator stop (ih rest.length shorter nofun fewer accepted rfl)
              have written : char ≠ mark := by
                intro same
                subst same
                exact unmarked List.mem_cons_self
              rw [edgesFrom_eq_ok_iff_of_other (Bool.eq_false_iff.mpr space) written stop]
                at accepted
              obtain ⟨left, backward, taken, after, result, later, rfl, head, turn, others, rfl⟩ :=
                accepted
              have next := behind left rfl
              subst next
              obtain ⟨direction, inner, gap, predicate, rest', same, within, spaces, edge, right,
                left'⟩ := of_head?_of_arrow unmarked head turn
              rw [right, left'] at others
              rw [same] at unmarked size ⊢
              have shorter : rest'.length < bound := by
                rw [← size, arrowSymbols, List.length_append, List.length_append]
                simp only [List.length_cons]
                omega
              have fewer : Symbol.char mark ∉ rest' :=
                fun member => unmarked (List.mem_append_right _ member)
              have next : ∀ other, some (left + 1) = some other → other + 1 = left + 1 + 1 := by
                rintro other same
                cases same
                rfl
              rw [edge]
              exact .arrow within spaces (ih rest'.length shorter next fewer others rfl)

/-- The reader accepts exactly what the scan accepts, with the same edges. -/
theorem edgesFrom_eq_ok_iff {position : Nat} {input : List Symbol} {edges : List Edge}
    (behind : ∀ left, current = some left → left + 1 = position)
    (unmarked : Symbol.char mark ∉ input) :
    edgesFrom config current offset (encode position input) = .ok edges ↔
      Scanned config current position input edges :=
  ⟨scanned_of_edgesFrom behind unmarked, fun scanned => edgesFrom_of_scanned scanned unmarked _⟩

theorem read_eq_ok_iff {segments : List Segment} {pattern : ArrowPattern} :
    read config segments = .ok pattern ↔
      Symbol.char mark ∉ symbols segments ∧
        Written config 0 (symbols segments) pattern.edges ∧
        pattern.nodes = nodesOf segments := by
  rw [read]
  constructor
  · intro accepted
    split at accepted
    case h_1 => cases accepted
    case h_2 text assembly =>
      obtain ⟨unmarked, rfl⟩ := assembled_eq_ok_iff.mp assembly
      split at accepted
      case h_1 => cases accepted
      case h_2 edges taken =>
        cases accepted
        have outside : ∀ left, (none : Option Nat) = some left → left + 1 = 0 := nofun
        have scanned := (edgesFrom_eq_ok_iff outside unmarked).mp taken
        exact ⟨unmarked, scanned_iff_written.mp scanned, rfl⟩
  · rintro ⟨unmarked, written, nodes⟩
    have taken := edgesFrom_of_scanned (scanned_iff_written.mpr written) unmarked 0
    rw [assembled_of_unmarked unmarked]
    simp only [taken, ← nodes]

/-- The edges of a pattern that was read are between its nodes. -/
theorem edge_lt_of_read {segments : List Segment} {pattern : ArrowPattern}
    (accepted : read config segments = .ok pattern) :
    ∀ edge ∈ pattern.edges, edge.source < pattern.nodes.length ∧
      edge.target < pattern.nodes.length := by
  obtain ⟨_, written, nodes⟩ := read_eq_ok_iff.mp accepted
  have bounds := written.edge_lt
  rw [count_node_symbols, Nat.zero_add] at bounds
  rw [nodes]
  exact bounds

/-- The segments that are read as a pattern are those without a mark whose symbols the
grammar allows. The nodes of the pattern are those of the segments, and its edges are
those that the grammar gives to their symbols. -/
theorem read_eq_ok_iff_written (config : RenderConfig) (segments : List Segment)
    (pattern : ArrowPattern) :
    read config segments = .ok pattern ↔
      (∀ text, Segment.text text ∈ segments → mark ∉ text) ∧
        Written config 0 (symbols segments) pattern.edges ∧
        pattern.nodes = nodesOf segments := by
  have unmarked_iff : Symbol.char mark ∉ symbols segments ↔
      ∀ text, Segment.text text ∈ segments → mark ∉ text := by
    rw [char_mem_symbols_iff, not_exists]
    exact forall_congr' fun _ => not_and
  rw [read_eq_ok_iff, unmarked_iff]

end SparqlText.ArrowPattern
