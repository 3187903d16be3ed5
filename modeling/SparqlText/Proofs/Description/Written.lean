/-
# Reading a node that is written as a description

A node is written as its subject and, behind the keyword, its types with commas between them.
The parts of a description have no white space and no comma in them, while a reference between
angle brackets may hold a comma, and may hold the white space that is not ASCII. So a node is
read back from its written form when its terms are parts, which names of every kind are. When
one of its terms is not, a beginning of that term is taken for a part; it is a reference
without its closing bracket, which is refused, and nothing is read.
-/

import SparqlText.Proofs.Description.Reading
import SparqlText.Proofs.Term.Normal

namespace SparqlText.Description

/-! ## Written forms -/

/-- The types of a node as they are written behind its subject. -/
def writtenTypes : List Text → Text
  | [] => []
  | first :: rest => [' ', 'a', ' '] ++ Text.join [',', ' '] (first :: rest)

/-- A node as it is written. -/
def written (description : Description) : Text :=
  description.subject.text ++ writtenTypes (description.types.map Term.text)

/-- Types that follow a type, each as it is written behind a comma and a space. -/
def writtenFurther (types : List Text) : Text :=
  types.flatMap fun type => ',' :: ' ' :: type

theorem writtenFurther_cons (type : Text) (types : List Text) :
    writtenFurther (type :: types) =
      [] ++ ',' :: ([' '] ++ (type ++ writtenFurther types)) := rfl

theorem join_eq_writtenFurther (type : Text) (types : List Text) :
    Text.join [',', ' '] (type :: types) = type ++ writtenFurther types := by
  induction types generalizing type with
  | nil => exact (List.append_nil type).symm
  | cons next types ih =>
      rw [Text.join_cons_of_ne_nil _ _ (List.cons_ne_nil _ _), ih, writtenFurther_cons]
      simp

theorem writtenTypes_cons (type : Text) (types : List Text) :
    writtenTypes (type :: types) =
      [' '] ++ 'a' :: ([' '] ++ (type ++ writtenFurther types)) := by
  rw [writtenTypes, join_eq_writtenFurther]
  rfl

theorem layout_nil : Layout [] := nofun

theorem layout_space : Layout [' '] := List.all_eq_true.mp rfl

/-! ## Terms that are parts -/

variable {config : RenderConfig} {text : Text} {term : Term}

theorem isPartChar_of_isNameChar {char : Char} (inside : Lexer.isNameChar char = true) :
    isPartChar char = true := by
  have other : char ≠ ',' := by
    rintro rfl
    exact absurd inside (by decide)
  exact isPartChar_iff.mpr ⟨Term.isBlank_of_isNameChar inside, other⟩

/-- A reference that a part begins with but does not go to the end of. -/
structure IsCut (text run : Text) : Prop where
  split : ∃ stop behind, text = '<' :: run ++ stop :: behind ∧ isPartChar stop = false
  inside : ∀ char ∈ '<' :: run, isPartChar char = true
  unclosed : '>' ∉ run

/-- Every form is a part or cut. -/
theorem isPart_or_isCut (form : Term.Form config text) : IsPart text ∨ ∃ run, IsCut text run := by
  cases form.reference_or_name with
  | inr name =>
      exact .inl (isPart_of_inside name.1 fun char member =>
        isPartChar_of_isNameChar (name.2 char member))
  | inl reference =>
      obtain ⟨inner, rfl, clean⟩ := reference
      have opened : isPartChar '<' = true := by decide
      have closed : isPartChar '>' = true := by decide
      cases ends : inner.dropWhile isPartChar with
      | nil =>
          have solid : ∀ char ∈ inner, isPartChar char = true := List.dropWhile_eq_nil_iff.mp ends
          refine .inl (isPart_of_inside (List.cons_ne_nil _ _) ?_)
          simpa [opened, closed, or_imp, forall_and] using solid
      | cons stop behind =>
          have whole := Text.eq_takeWhile_append ends
          have cut := List.head?_dropWhile_not isPartChar inner
          rw [ends] at cut
          refine .inr ⟨inner.takeWhile isPartChar, ⟨stop, behind ++ ['>'], ?_, by simpa using cut⟩,
            List.forall_mem_cons.mpr ⟨opened, Text.takeWhile_inside inner⟩, fun member => ?_⟩
          · calc '<' :: inner ++ ['>']
                = '<' :: (inner.takeWhile isPartChar ++ stop :: behind) ++ ['>'] := by rw [← whole]
              _ = '<' :: inner.takeWhile isPartChar ++ stop :: (behind ++ ['>']) := by simp
          · have other := clean '>' ((List.takeWhile_sublist isPartChar).subset member)
            exact absurd other (by decide)

theorem IsCut.leadingPart_eq {run : Text} (cut : IsCut text run) (rest : Text) :
    leadingPart (text ++ rest) = '<' :: run := by
  obtain ⟨stop, behind, rfl, outside⟩ := cut.split
  rw [List.append_assoc, List.cons_append]
  exact Text.takeWhile_run cut.inside outside

/-- A form that does not begin with an angle bracket is a part. -/
theorem isPart_of_form (form : Term.Form config text) (bare : text.head? ≠ some '<') :
    IsPart text := by
  cases isPart_or_isCut form with
  | inl part => exact part
  | inr broken =>
      obtain ⟨run, cut⟩ := broken
      obtain ⟨stop, behind, rfl, -⟩ := cut.split
      exact absurd rfl bare

/-- A part begins wherever a form does. -/
theorem isPart_leadingPart_form (form : Term.Form config text) (rest : Text) :
    IsPart (leadingPart (text ++ rest)) := by
  apply isPart_leadingPart
  cases isPart_or_isCut form with
  | inl part =>
      rw [leadingPart_append part]
      exact isEmpty_leadingPart part rest
  | inr broken =>
      obtain ⟨run, cut⟩ := broken
      rw [cut.leadingPart_eq]
      rfl

/-- What is taken of a form resolves only if it is the whole form. -/
theorem isPart_of_resolves (form : Term.Form config text) {rest : Text}
    (accepted : Term.reference config (leadingPart (text ++ rest)) = .ok term) : IsPart text := by
  cases isPart_or_isCut form with
  | inl part => exact part
  | inr broken =>
      obtain ⟨run, cut⟩ := broken
      rw [cut.leadingPart_eq] at accepted
      have solid : ∀ char ∈ run, Text.isBlank char = false := fun char member =>
        (isPartChar_iff.mp (cut.inside char (List.mem_cons_of_mem _ member))).1
      exact absurd accepted (Term.reference_unclosed solid cut.unclosed)

/-! ## The shape of a written form -/

theorem further_writtenFurther (offset : Nat) {types : List Text}
    (parts : ∀ type ∈ types, IsPart type) :
    ∃ found, Further offset (writtenFurther types) found ∧ found.map Part.text = types := by
  induction types generalizing offset with
  | nil => exact ⟨[], .none offset, rfl⟩
  | cons type types ih =>
      obtain ⟨part, later⟩ := List.forall_mem_cons.mp parts
      obtain ⟨found, further, texts⟩ :=
        ih (offset + Text.size [] + 1 + Text.size [' '] + Text.size type) later
      exact ⟨_, .type layout_nil layout_space part further, by simp [texts]⟩

theorem typed_writtenTypes (offset : Nat) {types : List Text}
    (parts : ∀ type ∈ types, IsPart type) :
    ∃ found, Typed offset (writtenTypes types) found ∧ found.map Part.text = types := by
  cases types with
  | nil => exact ⟨[], .none offset, rfl⟩
  | cons type types =>
      obtain ⟨part, later⟩ := List.forall_mem_cons.mp parts
      have apart : [' '] ≠ [] := List.cons_ne_nil _ _
      obtain ⟨found, further, texts⟩ := further_writtenFurther
        (offset + Text.size [' '] + 1 + Text.size [' '] + Text.size type) later
      rw [writtenTypes_cons]
      exact ⟨_, .types layout_space apart layout_space apart part further, by simp [texts]⟩

/-! ## What is read of a written form -/

/-- Every one of the parts resolves. -/
def AllResolve (config : RenderConfig) (parts : List Part) : Prop :=
  ∀ part ∈ parts, ∃ term, Term.reference config part.text = .ok term

theorem allResolve_of_types {parts : List Part} {types : List Term}
    (each : List.Forall₂ (fun part term => IsType config part.text term) parts types) :
    AllResolve config parts := by
  induction each with
  | nil => exact nofun
  | cons type _ ih => exact List.forall_mem_cons.mpr ⟨⟨_, type.1⟩, ih⟩

theorem leadingPart_writtenFurther (types : List Text) :
    leadingPart (writtenFurther types) = [] := by
  cases types with
  | nil => rfl
  | cons type types => exact leadingPart_marked layout_nil (.inr rfl) _

theorem leadingPart_writtenTypes (types : List Text) : leadingPart (writtenTypes types) = [] := by
  cases types with
  | nil => rfl
  | cons type types =>
      rw [writtenTypes_cons]
      exact leadingPart_marked layout_space (.inl (List.cons_ne_nil _ _)) _

/-- A type is read whole, and the types behind it as they are, if what is read resolves. -/
theorem allResolve_typeBehind {start : Nat} {type rest : Text} (form : Term.Form config type)
    (ends : leadingPart rest = [])
    (resolve : AllResolve config
      (typeBehind start (leadingPart (type ++ rest)) (afterPart (type ++ rest))).1) :
    IsPart type ∧ AllResolve config (furtherTypes (start + Text.size type) rest).1 := by
  rw [typeBehind_of_ends (leadingPart_afterPart _)] at resolve
  obtain ⟨⟨term, accepted⟩, later⟩ := List.forall_mem_cons.mp resolve
  have part := isPart_of_resolves form accepted
  rw [leadingPart_append part, afterPart_append part, ends, List.append_nil,
    afterPart_of_ends ends] at later
  exact ⟨part, later⟩

theorem isPart_of_furtherTypes {offset : Nat} {types : List Text}
    (forms : ∀ type ∈ types, Term.Form config type)
    (resolve : AllResolve config (furtherTypes offset (writtenFurther types)).1) :
    ∀ type ∈ types, IsPart type := by
  -- A type that is a part is read whole, so the types behind it are read as they are written.
  induction types generalizing offset with
  | nil => exact nofun
  | cons type types ih =>
      obtain ⟨form, later⟩ := List.forall_mem_cons.mp forms
      have some := isPart_leadingPart_form form (writtenFurther types)
      rw [writtenFurther_cons, ← leadingPart_append_afterPart (type ++ writtenFurther types),
        furtherTypes_comma layout_nil layout_space some] at resolve
      obtain ⟨part, behind⟩ := allResolve_typeBehind form (leadingPart_writtenFurther types) resolve
      exact List.forall_mem_cons.mpr ⟨part, ih later behind⟩

theorem isPart_of_typesFrom {offset : Nat} {types : List Text}
    (forms : ∀ type ∈ types, Term.Form config type)
    (resolve : AllResolve config (typesFrom offset (writtenTypes types)).1) :
    ∀ type ∈ types, IsPart type := by
  cases types with
  | nil => exact nofun
  | cons type types =>
      obtain ⟨form, later⟩ := List.forall_mem_cons.mp forms
      have some := isPart_leadingPart_form form (writtenFurther types)
      have apart : [' '] ≠ [] := List.cons_ne_nil _ _
      rw [writtenTypes_cons, ← leadingPart_append_afterPart (type ++ writtenFurther types),
        typesFrom, typeList?_keyword layout_space apart layout_space apart some] at resolve
      obtain ⟨part, behind⟩ := allResolve_typeBehind form (leadingPart_writtenFurther types) resolve
      exact List.forall_mem_cons.mpr ⟨part, isPart_of_furtherTypes later behind⟩

theorem parts_of_shape {input : Text} {parts : Shape} (found : shape input = .ok parts) :
    parts.subject.text = leadingPart (afterLayout input) ∧
      ∃ offset, parts.types = (typesFrom offset (afterPart (afterLayout input))).1 := by
  rw [shape_eq] at found
  split at found
  case isTrue => cases found
  case isFalse =>
    dsimp only at found
    split at found
    case isTrue =>
      cases found
      exact ⟨rfl, _, rfl⟩
    case isFalse => cases found

/-! ## Nodes -/

/-- A node whose terms resolve to themselves. -/
structure IsNode (config : RenderConfig) (description : Description) : Prop where
  subject : IsSubject config description.subject.text description.subject
  types : ∀ type ∈ description.types, IsType config type.text type

/-- A node that is built from texts is one. -/
theorem isNode_of_given (apart : ∀ name, config.allows ('?' :: name) = false) {given : Text}
    {subject : Term} (named : IsSubject config given subject) {texts : List Text}
    {types : List Term} (typed : List.Forall₂ (IsType config) texts types) :
    IsNode config ⟨subject, types⟩ where
  subject := ⟨Term.reference_text apart named.1, named.2⟩
  types := by
    induction typed with
    | nil => exact nofun
    | cons type _ ih =>
        exact List.forall_mem_cons.mpr ⟨⟨Term.reference_text apart type.1, type.2⟩, ih⟩

variable {description : Description}

theorem IsNode.forms (node : IsNode config description) :
    ∀ term ∈ description.subject :: description.types, Term.Form config term.text :=
  List.forall_mem_cons.mpr ⟨Term.form_of_reference node.subject.1,
    fun type member => Term.form_of_reference (node.types type member).1⟩

/-- A node whose terms are parts is read back. -/
theorem IsNode.read_written (node : IsNode config description)
    (parts : ∀ term ∈ description.subject :: description.types, IsPart term.text) :
    read config (written description) = .ok description := by
  obtain ⟨part, later⟩ := List.forall_mem_cons.mp parts
  obtain ⟨found, typed, texts⟩ := typed_writtenTypes
    (Text.size [] + Text.size description.subject.text) (List.forall_mem_map.mpr later)
  have shaped := Shaped.shape layout_nil part typed layout_nil
  rw [List.nil_append, List.append_nil] at shaped
  refine (read_eq_ok_iff_of_shaped shaped description).mpr ⟨node.subject, ?_⟩
  rw [← List.forall₂_map_left_iff (f := Part.text), texts, List.forall₂_map_left_iff,
    List.forall₂_same]
  exact node.types

/-- Of a node nothing is read unless its terms are parts. -/
theorem IsNode.isPart_of_read (node : IsNode config description) {found : Description}
    (accepted : read config (written description) = .ok found) :
    ∀ term ∈ description.subject :: description.types, IsPart term.text := by
  obtain ⟨form, forms⟩ := List.forall_mem_cons.mp node.forms
  cases laid : shape (written description) with
  | error offset =>
      rw [read, laid] at accepted
      cases accepted
  | ok parts =>
      -- The subject is decided first: only behind a subject that is a part the types are read.
      have resolves := (read_eq_ok_iff_of_shaped (shaped_of_shape laid) found).mp accepted
      have some := isPart_leadingPart_form form (writtenTypes (description.types.map Term.text))
      have bare := afterLayout_part layout_nil some (afterPart (written description))
      rw [List.nil_append, written, leadingPart_append_afterPart, ← written] at bare
      obtain ⟨subject, offset, types⟩ := parts_of_shape laid
      rw [bare] at subject types
      have first := resolves.subject.1
      rw [subject, written] at first
      have part := isPart_of_resolves form first
      have behind : afterPart (written description) =
          writtenTypes (description.types.map Term.text) := by
        rw [written, afterPart_append part, afterPart_of_ends (leadingPart_writtenTypes _)]
      have later := allResolve_of_types resolves.types
      rw [types, behind] at later
      have solid := isPart_of_typesFrom (List.forall_mem_map.mpr forms) later
      exact List.forall_mem_cons.mpr ⟨part, List.forall_mem_map.mp solid⟩

/-- A node is read back from its written form exactly when its terms are parts, and otherwise
nothing is read. The terms that are not begin with an angle bracket. -/
theorem read_written_iff {given : Text} {subject : Term}
    (named : Term.reference .standard given = .ok subject) (other : subject ≠ Term.keyword)
    {texts : List Text} {types : List Term}
    (typed : List.Forall₂ (fun text term => typeTerm .standard text = .ok term) texts types) :
    (∀ found, read .standard (written ⟨subject, types⟩) = .ok found ↔
      found = ⟨subject, types⟩ ∧ ∀ term ∈ subject :: types, IsPart term.text) ∧
    ∀ term ∈ subject :: types, term.text.head? ≠ some '<' → IsPart term.text := by
  have each : List.Forall₂ (IsType .standard) texts types :=
    typed.imp fun _ _ accepted => (typeTerm_eq_ok_iff _ _ _).mp accepted
  have node : IsNode .standard ⟨subject, types⟩ :=
    isNode_of_given (fun _ => rfl) ⟨named, other⟩ each
  refine ⟨fun found => ⟨fun accepted => ?_, ?_⟩, fun term member => ?_⟩
  · have parts := node.isPart_of_read accepted
    have back := node.read_written parts
    rw [accepted, Except.ok.injEq] at back
    exact ⟨back, parts⟩
  · rintro ⟨rfl, parts⟩
    exact node.read_written parts
  · exact isPart_of_form (node.forms term member)

/-- A blank node with a type of every other kind is read back. -/
theorem read_written_of_every_kind :
    let texts := ["http://x.org/T".toList, " ex:U".toList, "$c".toList]
    let node : Description := ⟨⟨"_:b1".toList⟩,
      [⟨"<http://x.org/T>".toList⟩, ⟨"ex:U".toList⟩, ⟨"?c".toList⟩]⟩
    Term.reference .standard "_:b1".toList = .ok node.subject ∧ node.subject ≠ Term.keyword ∧
      List.Forall₂ (fun text term => typeTerm .standard text = .ok term) texts node.types ∧
      written node = "_:b1 a <http://x.org/T>, ex:U, ?c".toList ∧
      read .standard (written node) = .ok node := by
  intro texts node
  have named : Term.reference .standard "_:b1".toList = .ok node.subject := by decide
  have other : node.subject ≠ Term.keyword := by decide
  have typed : List.Forall₂ (fun text term => typeTerm .standard text = .ok term)
      texts node.types :=
    .cons (by decide) (.cons (by decide) (.cons (by decide) .nil))
  have inside {text : Text} (some : text ≠ []) (all : text.all isPartChar = true) : IsPart text :=
    isPart_of_inside some (List.all_eq_true.mp all)
  have parts : ∀ term ∈ node.subject :: node.types, IsPart term.text := by
    simp only [node, List.forall_mem_cons]
    exact ⟨inside (by decide) rfl, inside (by decide) rfl, inside (by decide) rfl,
      inside (by decide) rfl, nofun⟩
  obtain ⟨reads, -⟩ := read_written_iff named other typed
  exact ⟨named, other, typed, by decide, (reads node).mpr ⟨rfl, parts⟩⟩

/-- A reference may hold a comma, and a node with that subject is not read back. -/
theorem comma_in_reference :
    let node : Description := ⟨⟨"<http://x.org/a,b>".toList⟩, []⟩
    Term.reference .standard "http://x.org/a,b".toList = .ok node.subject ∧
      node.subject ≠ Term.keyword ∧
      read .standard (written node) = .error (.unparsed (written node) 15 .notDescription) := by
  exact ⟨by decide, by decide, by decide⟩

end SparqlText.Description
