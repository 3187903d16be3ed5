/-
# The shape of descriptions

A description is a subject with layout around it, or a subject, the keyword `a` and a list
of types with commas between them. `Shaped` says this by what stands one behind the other,
and says of every part at which byte it begins; nothing in it looks ahead.

The reader looks ahead for the longest part, the longest list and the keyword, and takes
back what does not lead on. It finds the shape of every text that has one. Of any other text
it takes a beginning that has the shape, and no longer beginning has it: what the reader
leaves unread is never more than what any other way of taking the text apart leaves.
-/

import SparqlText.Description
import SparqlText.Proofs.Text.Runs

namespace SparqlText.Description

/-! ## The grammar -/

/-- A text of layout, which may be empty. -/
def Layout (text : Text) : Prop := ∀ char ∈ text, Text.isLayout char = true

/-- A subject or a type: a text that is not empty, without white space and commas. -/
structure IsPart (text : Text) : Prop where
  some : text ≠ []
  solid : ∀ char ∈ text, Text.isBlank char = false ∧ char ≠ ','

/-- The types that follow a type, each behind a comma, from an offset on. -/
inductive Further : Nat → Text → List Part → Prop
  | none (offset : Nat) : Further offset [] []
  | type {offset : Nat} {before after type rest : Text} {types : List Part}
      (lead : Layout before) (gap : Layout after) (part : IsPart type)
      (later : Further (offset + Text.size before + 1 + Text.size after + Text.size type)
        rest types) :
      Further offset (before ++ ',' :: (after ++ (type ++ rest)))
        (⟨offset + Text.size before + 1 + Text.size after, type⟩ :: types)

/-- What follows a subject from an offset on: nothing, or the keyword and types. Layout
stands on both sides of the keyword. -/
inductive Typed : Nat → Text → List Part → Prop
  | none (offset : Nat) : Typed offset [] []
  | types {offset : Nat} {before after type rest : Text} {types : List Part}
      (lead : Layout before) (apart : before ≠ []) (gap : Layout after) (behind : after ≠ [])
      (part : IsPart type)
      (later : Further (offset + Text.size before + 1 + Text.size after + Text.size type)
        rest types) :
      Typed offset (before ++ 'a' :: (after ++ (type ++ rest)))
        (⟨offset + Text.size before + 1 + Text.size after, type⟩ :: types)

/-- A text with the shape of a description. -/
inductive Shaped : Text → Shape → Prop
  | shape {before subject listed after : Text} {types : List Part} (lead : Layout before)
      (part : IsPart subject) (typed : Typed (Text.size before + Text.size subject) listed types)
      (trail : Layout after) :
      Shaped (before ++ (subject ++ (listed ++ after))) ⟨⟨Text.size before, subject⟩, types⟩

/-! ## Characters -/

theorem isPartChar_iff {char : Char} :
    isPartChar char = true ↔ Text.isBlank char = false ∧ char ≠ ',' := by
  simp [isPartChar]

theorem not_isPartChar_of_isLayout {char : Char} (layout : Text.isLayout char = true) :
    isPartChar char = false := by
  simp [isPartChar, Text.isBlank_of_isLayout layout]

theorem IsPart.inside {part : Text} (named : IsPart part) :
    ∀ char ∈ part, isPartChar char = true :=
  fun char member => isPartChar_iff.mpr (named.solid char member)

theorem isPart_of_inside {text : Text} (some : text ≠ [])
    (inside : ∀ char ∈ text, isPartChar char = true) : IsPart text :=
  ⟨some, fun char member => isPartChar_iff.mp (inside char member)⟩

theorem IsPart.unlaid {part : Text} (named : IsPart part) :
    ∃ first rest, part = first :: rest ∧ Text.isLayout first = false := by
  cases part with
  | nil => exact absurd rfl named.some
  | cons first rest =>
      refine ⟨first, rest, rfl, ?_⟩
      have solid := (named.solid first List.mem_cons_self).1
      by_contra layout
      rw [Bool.not_eq_false] at layout
      rw [Text.isBlank_of_isLayout layout] at solid
      cases solid

/-! ## Reading one piece -/

theorem leadingPart_append {part : Text} (named : IsPart part) (rest : Text) :
    leadingPart (part ++ rest) = part ++ leadingPart rest :=
  List.takeWhile_append_of_pos named.inside

theorem afterPart_append {part : Text} (named : IsPart part) (rest : Text) :
    afterPart (part ++ rest) = afterPart rest :=
  List.dropWhile_append_of_pos named.inside

theorem leadingPart_append_afterPart (text : Text) : leadingPart text ++ afterPart text = text :=
  List.takeWhile_append_dropWhile

/-- The layout that a text begins with. -/
def leadingLayout (text : Text) : Text := text.takeWhile Text.isLayout

theorem layout_leadingLayout (text : Text) : Layout (leadingLayout text) :=
  Text.takeWhile_inside text

theorem layoutSize_eq (text : Text) : layoutSize text = Text.size (leadingLayout text) := rfl

theorem leadingLayout_append_afterLayout (text : Text) :
    leadingLayout text ++ afterLayout text = text :=
  List.takeWhile_append_dropWhile

theorem afterLayout_append {before : Text} (lead : Layout before) (rest : Text) :
    afterLayout (before ++ rest) = afterLayout rest :=
  List.dropWhile_append_of_pos lead

/-- Layout before a character that is none is taken whole. -/
theorem afterLayout_stop {before : Text} (lead : Layout before) {stop : Char}
    (unlaid : Text.isLayout stop = false) (rest : Text) :
    afterLayout (before ++ stop :: rest) = stop :: rest :=
  Text.dropWhile_run lead unlaid

theorem layoutSize_stop {before : Text} (lead : Layout before) {stop : Char}
    (unlaid : Text.isLayout stop = false) (rest : Text) :
    layoutSize (before ++ stop :: rest) = Text.size before := by
  rw [layoutSize, Text.takeWhile_run lead unlaid]

theorem afterLayout_part {after type : Text} (gap : Layout after) (part : IsPart type)
    (rest : Text) : afterLayout (after ++ (type ++ rest)) = type ++ rest := by
  obtain ⟨first, others, rfl, unlaid⟩ := part.unlaid
  exact afterLayout_stop gap unlaid (others ++ rest)

theorem layoutSize_part {after type : Text} (gap : Layout after) (part : IsPart type)
    (rest : Text) : layoutSize (after ++ (type ++ rest)) = Text.size after := by
  obtain ⟨first, others, rfl, unlaid⟩ := part.unlaid
  exact layoutSize_stop gap unlaid (others ++ rest)

theorem isPart_leadingPart {text : Text} (some : (leadingPart text).isEmpty = false) :
    IsPart (leadingPart text) :=
  isPart_of_inside (List.isEmpty_eq_false_iff.mp some) (Text.takeWhile_inside text)

/-- Behind a part that is taken whole no part begins. -/
theorem leadingPart_afterPart (text : Text) : leadingPart (afterPart text) = [] := by
  rw [leadingPart, List.takeWhile_eq_nil_iff]
  intro some
  exact Bool.not_eq_true _ ▸ List.dropWhile_get_zero_not isPartChar text some

theorem isEmpty_leadingPart {part : Text} (named : IsPart part) (rest : Text) :
    (part ++ leadingPart rest).isEmpty = false :=
  List.isEmpty_eq_false_iff.mpr (List.append_ne_nil_of_left_ne_nil named.some _)

/-- A type behind a mark and layout: where it begins, the type as far as it goes, and what
is made of the text behind it. -/
def typeBehind (start : Nat) (type rest : Text) : List Part × Nat × Text :=
  let part := type ++ leadingPart rest
  let (types, stop, left) := furtherTypes (start + Text.size part) (afterPart rest)
  (⟨start, part⟩ :: types, stop, left)

theorem furtherTypes_comma {before after type : Text} (lead : Layout before)
    (gap : Layout after) (part : IsPart type) (offset : Nat) (rest : Text) :
    furtherTypes offset (before ++ ',' :: (after ++ (type ++ rest))) =
      typeBehind (offset + Text.size before + 1 + Text.size after) type rest := by
  have comma : Text.isLayout ',' = false := rfl
  have some := isEmpty_leadingPart part rest
  rw [furtherTypes]
  split
  case h_1 behind same =>
    rw [afterLayout_stop lead comma] at same
    cases same
    simp only [afterLayout_part gap part, layoutSize_part gap part, layoutSize_stop lead comma,
      leadingPart_append part, afterPart_append part, some, Bool.false_eq_true, if_false]
    rfl
  case h_2 other => exact absurd (afterLayout_stop lead comma _) (other _)

theorem layoutSize_ne_zero {before : Text} (lead : Layout before) (apart : before ≠ [])
    (rest : Text) : layoutSize (before ++ rest) ≠ 0 := by
  cases before with
  | nil => exact absurd rfl apart
  | cons first others =>
      have laid : Text.isLayout first = true := lead first List.mem_cons_self
      rw [layoutSize, List.cons_append, List.takeWhile_cons_of_pos laid, Text.size_cons]
      have wide := Char.utf8Size_pos first
      omega

theorem typeList?_keyword {before after type : Text} (lead : Layout before)
    (apart : before ≠ []) (gap : Layout after) (behind : after ≠ []) (part : IsPart type)
    (offset : Nat) (rest : Text) :
    typeList? offset (before ++ 'a' :: (after ++ (type ++ rest))) =
      some (typeBehind (offset + Text.size before + 1 + Text.size after) type rest) := by
  have unlaid : Text.isLayout 'a' = false := rfl
  have first := layoutSize_ne_zero lead apart ('a' :: (after ++ (type ++ rest)))
  have second := layoutSize_ne_zero gap behind (type ++ rest)
  have some := isEmpty_leadingPart part rest
  rw [layoutSize_stop lead unlaid] at first
  rw [layoutSize_part gap part] at second
  simp only [typeList?, afterLayout_stop lead unlaid, layoutSize_stop lead unlaid,
    afterLayout_part gap part, layoutSize_part gap part, leadingPart_append part,
    afterPart_append part, some, first, second, decide_false, Bool.or_false,
    Bool.false_eq_true, if_false]
  rfl

/-! ## Lists of types -/

/-- A text that goes on, behind layout, with a mark and a part is laid out in pieces, and
the part goes as far as it can. -/
theorem pieces_of_mark {mark : Char} {text rest : Text} (marked : afterLayout text = mark :: rest)
    (some : (leadingPart (afterLayout rest)).isEmpty = false) :
    ∃ type left, IsPart type ∧ leadingPart left = [] ∧
      text = leadingLayout text ++ mark :: (leadingLayout rest ++ (type ++ left)) := by
  refine ⟨leadingPart (afterLayout rest), afterPart (afterLayout rest),
    isPart_leadingPart some, leadingPart_afterPart _, ?_⟩
  rw [leadingPart_append_afterPart, leadingLayout_append_afterLayout, ← marked,
    leadingLayout_append_afterLayout]

/-- Either no type follows, and nothing is read, or a comma and a type are next. -/
theorem furtherTypes_cases (offset : Nat) (text : Text) :
    furtherTypes offset text = ([], offset, text) ∨
      ∃ before after type rest, Layout before ∧ Layout after ∧ IsPart type ∧
        leadingPart rest = [] ∧ text = before ++ ',' :: (after ++ (type ++ rest)) := by
  rw [furtherTypes]
  split
  case h_1 rest marked =>
    cases found : (leadingPart (afterLayout rest)).isEmpty with
    | true => exact Or.inl (if_pos found)
    | false =>
        obtain ⟨type, left, part, ends, whole⟩ := pieces_of_mark marked found
        exact Or.inr ⟨_, _, type, left, layout_leadingLayout text, layout_leadingLayout rest,
          part, ends, whole⟩
  case h_2 => exact Or.inl rfl

theorem leadingLayout_ne_nil {text : Text} (some : layoutSize text ≠ 0) :
    leadingLayout text ≠ [] := by
  intro none
  rw [layoutSize_eq, none] at some
  exact some rfl

/-- Either no keyword follows, or it and a type are next. -/
theorem typeList?_cases (offset : Nat) (text : Text) :
    typeList? offset text = none ∨
      ∃ before after type rest, Layout before ∧ before ≠ [] ∧ Layout after ∧ after ≠ [] ∧
        IsPart type ∧ leadingPart rest = [] ∧
        text = before ++ 'a' :: (after ++ (type ++ rest)) := by
  rw [typeList?]
  split
  case h_1 rest marked =>
    dsimp only
    split
    case isTrue => exact Or.inl rfl
    case isFalse kept =>
      simp only [Bool.or_eq_true, decide_eq_true_eq, not_or, Bool.not_eq_true] at kept
      obtain ⟨⟨apart, behind⟩, found⟩ := kept
      obtain ⟨type, left, part, ends, whole⟩ := pieces_of_mark marked found
      exact Or.inr ⟨_, _, type, left, layout_leadingLayout text, leadingLayout_ne_nil apart,
        layout_leadingLayout rest, leadingLayout_ne_nil behind, part, ends, whole⟩
  case h_2 => exact Or.inl rfl

/-- What is made of the text behind a subject: the types, and where the reading stops. -/
def typesFrom (offset : Nat) (text : Text) : List Part × Nat × Text :=
  (typeList? offset text).getD ([], offset, text)

/-- A reading from an offset that follows a grammar: what it has taken belongs to the grammar and
ends where the reading stops, and behind layout no more is left than there was. -/
structure Takes (grammar : Nat → Text → List Part → Prop) (offset : Nat) (text : Text)
    (found : List Part × Nat × Text) : Prop where
  listed : ∃ listed, text = listed ++ found.2.2 ∧ grammar offset listed found.1 ∧
    found.2.1 = offset + Text.size listed
  shorter : (afterLayout found.2.2).length ≤ (afterLayout text).length

theorem afterPart_of_ends {rest : Text} (ends : leadingPart rest = []) :
    afterPart rest = rest := by
  have whole := leadingPart_append_afterPart rest
  rwa [ends, List.nil_append] at whole

theorem typeBehind_of_ends {rest : Text} (ends : leadingPart rest = []) (start : Nat)
    (type : Text) :
    typeBehind start type rest =
      (⟨start, type⟩ :: (furtherTypes (start + Text.size type) rest).1,
        (furtherTypes (start + Text.size type) rest).2) := by
  rw [typeBehind, ends, afterPart_of_ends ends, List.append_nil]

theorem size_marked (before after type listed : Text) (mark : Char) (narrow : mark.utf8Size = 1) :
    Text.size (before ++ mark :: (after ++ (type ++ listed))) =
      Text.size before + 1 + Text.size after + Text.size type + Text.size listed := by
  simp only [Text.size_append, Text.size_cons, narrow]
  omega

/-- A mark and a type are taken with all that is taken behind the type. -/
theorem typeBehind_takes {grammar : Nat → Text → List Part → Prop} {offset : Nat}
    {before after type rest : Text} {mark : Char} (lead : Layout before)
    (unlaid : Text.isLayout mark = false) (narrow : mark.utf8Size = 1)
    (ends : leadingPart rest = [])
    (grows : ∀ listed types,
      Further (offset + Text.size before + 1 + Text.size after + Text.size type) listed types →
        grammar offset (before ++ mark :: (after ++ (type ++ listed)))
          (⟨offset + Text.size before + 1 + Text.size after, type⟩ :: types))
    (behind : Takes Further (offset + Text.size before + 1 + Text.size after + Text.size type) rest
      (furtherTypes (offset + Text.size before + 1 + Text.size after + Text.size type) rest)) :
    Takes grammar offset (before ++ mark :: (after ++ (type ++ rest)))
      (typeBehind (offset + Text.size before + 1 + Text.size after) type rest) := by
  rw [typeBehind_of_ends ends]
  obtain ⟨⟨listed, whole, further, stop⟩, shorter⟩ := behind
  refine ⟨⟨before ++ mark :: (after ++ (type ++ listed)), ?_, grows listed _ further, ?_⟩, ?_⟩
  · simp only [List.append_assoc, List.cons_append]
    rw [← whole]
  · rw [stop, size_marked _ _ _ _ _ narrow]
    omega
  · have fewer := length_afterLayout_le rest
    rw [afterLayout_stop lead unlaid]
    simp only [List.length_cons, List.length_append]
    omega

theorem furtherTypes_takes (offset : Nat) (text : Text) :
    Takes Further offset text (furtherTypes offset text) := by
  -- Each type that is taken leaves a shorter text.
  induction bound : text.length using Nat.strong_induction_on generalizing offset text with
  | _ length ih =>
      subst bound
      rcases furtherTypes_cases offset text with
        none | ⟨before, after, type, rest, lead, gap, part, ends, rfl⟩
      · rw [none]
        exact ⟨⟨[], rfl, .none offset, rfl⟩, Nat.le_refl _⟩
      · have fewer : rest.length < (before ++ ',' :: (after ++ (type ++ rest))).length := by
          simp only [List.length_cons, List.length_append]
          omega
        rw [furtherTypes_comma lead gap part]
        exact typeBehind_takes lead rfl rfl ends (fun _ _ => .type lead gap part)
          (ih _ fewer _ rest rfl)

theorem typesFrom_takes (offset : Nat) (text : Text) :
    Takes Typed offset text (typesFrom offset text) := by
  rcases typeList?_cases offset text with
    none | ⟨before, after, type, rest, lead, apart, gap, behind, part, ends, rfl⟩
  · rw [typesFrom, none]
    exact ⟨⟨[], rfl, .none offset, rfl⟩, Nat.le_refl _⟩
  · rw [typesFrom, typeList?_keyword lead apart gap behind part]
    exact typeBehind_takes lead rfl rfl ends (fun _ _ => .types lead apart gap behind part)
      (furtherTypes_takes _ rest)

/-! ## Every list is found -/

theorem leadingPart_of_isLayout {first : Char} (laid : Text.isLayout first = true)
    (rest : Text) : leadingPart (first :: rest) = [] :=
  List.takeWhile_cons_of_neg (by simp [not_isPartChar_of_isLayout laid])

/-- A part ends before layout and before a mark. -/
theorem leadingPart_marked {before : Text} (lead : Layout before) {mark : Char}
    (outside : before ≠ [] ∨ isPartChar mark = false) (rest : Text) :
    leadingPart (before ++ mark :: rest) = [] := by
  cases before with
  | nil => exact List.takeWhile_cons_of_neg (by simpa using outside)
  | cons first others => exact leadingPart_of_isLayout (lead first List.mem_cons_self) _

theorem leadingPart_layout {after : Text} (trail : Layout after) : leadingPart after = [] := by
  cases after with
  | nil => rfl
  | cons first others => exact leadingPart_of_isLayout (trail first List.mem_cons_self) others

theorem afterLayout_layout {after : Text} (trail : Layout after) : afterLayout after = [] :=
  List.dropWhile_eq_nil_iff.mpr trail

theorem Further.ends {offset : Nat} {listed after : Text} {types : List Part}
    (further : Further offset listed types) (trail : Layout after) :
    leadingPart (listed ++ after) = [] := by
  cases further with
  | none => exact leadingPart_layout trail
  | type lead =>
      rw [List.append_assoc, List.cons_append]
      exact leadingPart_marked lead (Or.inr rfl) _

theorem Typed.ends {offset : Nat} {listed after : Text} {types : List Part}
    (typed : Typed offset listed types) (trail : Layout after) :
    leadingPart (listed ++ after) = [] := by
  cases typed with
  | none => exact leadingPart_layout trail
  | types lead apart =>
      rw [List.append_assoc, List.cons_append]
      exact leadingPart_marked lead (Or.inl apart) _

theorem furtherTypes_further {offset : Nat} {listed after : Text} {types : List Part}
    (further : Further offset listed types) (trail : Layout after) :
    furtherTypes offset (listed ++ after) = (types, offset + Text.size listed, after) := by
  induction further with
  | none offset =>
      rw [furtherTypes]
      split
      case h_1 rest marked =>
        rw [List.nil_append, afterLayout_layout trail] at marked
        cases marked
      case h_2 => rfl
  | type lead gap part later ih =>
      simp only [List.append_assoc, List.cons_append]
      rw [furtherTypes_comma lead gap part, typeBehind_of_ends (later.ends trail), ih,
        size_marked _ _ _ _ _ rfl]
      simp only [Nat.add_assoc]

theorem typesFrom_typed {offset : Nat} {listed after : Text} {types : List Part}
    (typed : Typed offset listed types) (trail : Layout after) :
    typesFrom offset (listed ++ after) = (types, offset + Text.size listed, after) := by
  cases typed with
  | none =>
      rw [typesFrom, typeList?, List.nil_append, afterLayout_layout trail]
      rfl
  | types lead apart gap behind part later =>
      simp only [List.append_assoc, List.cons_append]
      rw [typesFrom, typeList?_keyword lead apart gap behind part,
        typeBehind_of_ends (later.ends trail), furtherTypes_further later trail,
        size_marked _ _ _ _ _ rfl]
      simp only [Nat.add_assoc, Option.getD_some]

/-! ## No more is left unread

Of a text that only begins with a list the reader may take the list apart another way: the
last type may be longer, and more types may follow. -/

theorem length_afterLayout_afterPart {after : Text} (trail : Layout after) (rest : Text) :
    (afterLayout (afterPart (after ++ rest))).length ≤ rest.length := by
  cases after with
  | nil => exact (length_afterLayout_le _).trans (length_afterPart_le rest)
  | cons first others =>
      have ends : leadingPart (first :: others ++ rest) = [] :=
        leadingPart_of_isLayout (trail first List.mem_cons_self) _
      rw [afterPart_of_ends ends, afterLayout_append trail]
      exact length_afterLayout_le rest

theorem furtherTypes_reaches {offset : Nat} {listed after : Text} {types : List Part}
    (further : Further offset listed types) (trail : Layout after) (start : Nat) (rest : Text) :
    (afterLayout (furtherTypes start (afterPart (listed ++ (after ++ rest)))).2.2).length ≤
      rest.length := by
  induction further generalizing start with
  | none =>
      exact (furtherTypes_takes start _).shorter.trans (length_afterLayout_afterPart trail rest)
  | type lead gap part later ih =>
      simp only [List.append_assoc, List.cons_append]
      rw [afterPart_of_ends (leadingPart_marked lead (Or.inr rfl) _),
        furtherTypes_comma lead gap part]
      exact ih _

theorem typesFrom_reaches {offset : Nat} {listed after : Text} {types : List Part}
    (typed : Typed offset listed types) (trail : Layout after) (start : Nat) (rest : Text) :
    (afterLayout (typesFrom start (afterPart (listed ++ (after ++ rest)))).2.2).length ≤
      rest.length := by
  cases typed with
  | none =>
      exact (typesFrom_takes start _).shorter.trans (length_afterLayout_afterPart trail rest)
  | types lead apart gap behind part later =>
      simp only [List.append_assoc, List.cons_append]
      rw [afterPart_of_ends (leadingPart_marked lead (Or.inl apart) _), typesFrom,
        typeList?_keyword lead apart gap behind part]
      exact furtherTypes_reaches later trail _ rest

/-! ## Descriptions -/

theorem shape_eq (input : Text) :
    shape input =
      if (leadingPart (afterLayout input)).isEmpty then .error (layoutSize input)
      else
        let subject : Part := ⟨layoutSize input, leadingPart (afterLayout input)⟩
        let found := typesFrom (subject.offset + Text.size subject.text)
          (afterPart (afterLayout input))
        if (afterLayout found.2.2).isEmpty then .ok ⟨subject, found.1⟩
        else .error (found.2.1 + layoutSize found.2.2) := rfl

theorem shape_of_shaped {input : Text} {parts : Shape} (shaped : Shaped input parts) :
    shape input = .ok parts := by
  cases shaped with
  | @shape before subject listed after types lead part typed trail =>
      have ends := typed.ends trail
      have only : leadingPart (subject ++ (listed ++ after)) = subject := by
        rw [leadingPart_append part, ends, List.append_nil]
      have behind : afterPart (subject ++ (listed ++ after)) = listed ++ after := by
        rw [afterPart_append part, afterPart_of_ends ends]
      have some : subject.isEmpty = false := List.isEmpty_eq_false_iff.mpr part.some
      rw [shape_eq]
      simp only [afterLayout_part lead part, layoutSize_part lead part, only, behind, some,
        typesFrom_typed typed trail, afterLayout_layout trail, Bool.false_eq_true, if_false]
      rfl

/-- A subject and what is read behind it have the shape of a description. -/
theorem shaped_prefix {input : Text} (some : (leadingPart (afterLayout input)).isEmpty = false)
    {found : List Part × Nat × Text}
    (read : typesFrom (layoutSize input + Text.size (leadingPart (afterLayout input)))
      (afterPart (afterLayout input)) = found) :
    ∃ pre, input = pre ++ afterLayout found.2.2 ∧
      Text.size pre = found.2.1 + layoutSize found.2.2 ∧
      Shaped pre ⟨⟨layoutSize input, leadingPart (afterLayout input)⟩, found.1⟩ := by
  obtain ⟨⟨listed, whole, grammar, stop⟩, -⟩ := typesFrom_takes
    (layoutSize input + Text.size (leadingPart (afterLayout input))) (afterPart (afterLayout input))
  rw [read] at whole grammar stop
  refine ⟨leadingLayout input ++
    (leadingPart (afterLayout input) ++ (listed ++ leadingLayout found.2.2)), ?_, ?_,
    .shape (layout_leadingLayout input) (isPart_leadingPart some) grammar
      (layout_leadingLayout found.2.2)⟩
  · simp only [List.append_assoc]
    rw [leadingLayout_append_afterLayout, ← whole, leadingPart_append_afterPart,
      leadingLayout_append_afterLayout]
  · simp only [Text.size_append]
    rw [stop, layoutSize_eq, layoutSize_eq]
    omega

theorem shaped_of_shape {input : Text} {parts : Shape} (read : shape input = .ok parts) :
    Shaped input parts := by
  rw [shape_eq] at read
  cases found : (leadingPart (afterLayout input)).isEmpty with
  | true =>
      rw [if_pos found] at read
      cases read
  | false =>
      rw [if_neg (Bool.eq_false_iff.mp found)] at read
      obtain ⟨pre, whole, -, shaped⟩ := shaped_prefix found rfl
      dsimp only at read
      split at read
      case isTrue none =>
        rw [List.isEmpty_iff.mp none, List.append_nil] at whole
        cases read
        exact whole ▸ shaped
      case isFalse => cases read

/-- The reader finds the shape of a text exactly when it has one, and then that one. -/
theorem shape_eq_ok_iff (input : Text) (parts : Shape) :
    shape input = .ok parts ↔ Shaped input parts :=
  ⟨shaped_of_shape, shape_of_shaped⟩

/-- The offset at which a text without the shape of a description goes wrong: behind the longest
beginning that has the shape, or behind the leading layout when no subject follows it. -/
inductive GoesWrong (input : Text) : Nat → Prop
  | behind {pre : Text} {parts : Shape} (begins : pre <+: input) (shaped : Shaped pre parts)
      (longest : ∀ other, other <+: input → (∃ parts, Shaped other parts) →
        other.length ≤ pre.length) : GoesWrong input (Text.size pre)
  | bare {before : Text} (begins : before <+: input) (lead : Layout before)
      (longest : ∀ other, other <+: input → Layout other → other.length ≤ before.length)
      (none : ∀ part, IsPart part → ¬ before ++ part <+: input) :
      GoesWrong input (Text.size before)

/-- No beginning with the shape leaves less than the reader. -/
theorem length_left_le {input other rest : Text} {parts : Shape} (whole : input = other ++ rest)
    (shaped : Shaped other parts) :
    (leadingPart (afterLayout input)).isEmpty = false ∧
      ∀ start, (afterLayout (typesFrom start (afterPart (afterLayout input))).2.2).length ≤
        rest.length := by
  subst whole
  cases shaped with
  | shape lead part typed trail =>
      simp only [List.append_assoc, afterLayout_part lead part, leadingPart_append part,
        afterPart_append part]
      exact ⟨isEmpty_leadingPart part _, fun start => typesFrom_reaches typed trail start rest⟩

/-- Where no subject is read none follows the leading layout. -/
theorem goesWrong_of_bare {input : Text}
    (none : (leadingPart (afterLayout input)).isEmpty = true) :
    GoesWrong input (layoutSize input) := by
  rw [layoutSize_eq]
  refine .bare (List.takeWhile_prefix _) (layout_leadingLayout input) ?_ ?_
  · rintro other ⟨rest, whole⟩ lead
    have same : leadingLayout input = other ++ leadingLayout rest := by
      rw [← whole]
      exact List.takeWhile_append_of_pos lead
    rw [same, List.length_append]
    exact Nat.le_add_right _ _
  · rintro part named ⟨rest, whole⟩
    have behind := afterLayout_part (layout_leadingLayout input) named rest
    rw [List.append_assoc] at whole
    rw [whole] at behind
    rw [behind, leadingPart_append named, isEmpty_leadingPart named] at none
    cases none

/-- A text without the shape is blamed where it goes wrong. -/
theorem shape_eq_error {input : Text} {offset : Nat} (read : shape input = .error offset) :
    GoesWrong input offset := by
  rw [shape_eq] at read
  cases found : (leadingPart (afterLayout input)).isEmpty with
  | true =>
      rw [if_pos found] at read
      cases read
      exact goesWrong_of_bare found
  | false =>
      rw [if_neg (Bool.eq_false_iff.mp found)] at read
      obtain ⟨pre, whole, size, shaped⟩ := shaped_prefix found rfl
      dsimp only at read
      split at read
      case isTrue => cases read
      case isFalse =>
        cases read
        rw [← size]
        refine .behind ⟨_, whole.symm⟩ shaped ?_
        rintro other ⟨rest, same⟩ ⟨parts, apart⟩
        have left := (length_left_le same.symm apart).2
          (layoutSize input + Text.size (leadingPart (afterLayout input)))
        have first := congrArg List.length whole
        have second := congrArg List.length same
        rw [List.length_append] at first second
        omega

end SparqlText.Description
