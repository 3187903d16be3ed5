/-
# Nested templates

A template that has been rendered can be spliced into another one. The query is then the
one that the pieces of the first template give when they stand in the place of the hole,
trimmed at their own ends (`written_splice`). Which pieces are trimmed depends on where the
template as a whole begins and ends, so what has to be shown is that trimming stops at the
hole on either side: the term in it is never trimmed, and the pieces that replace it have
nothing left to trim.

A tree of templates, each of which stands for a piece of the one around it, is therefore
rendered from the inside out or all at once with the same result (`Nested.render_pieces`).
-/

import Mathlib.Data.List.ModifyLast
import SparqlText.Proofs.Text.Trimming
import SparqlText.Template

namespace SparqlText

/-! ## Trimmed ends -/

namespace Piece

theorem trimStart_trimStart (piece : Piece) : piece.trimStart.trimStart = piece.trimStart := by
  cases piece with
  | fragment text => exact congrArg fragment (List.dropWhile_idempotent Text.isBlank text)
  | splice value => rfl

theorem trimEnd_trimEnd (piece : Piece) : piece.trimEnd.trimEnd = piece.trimEnd := by
  cases piece with
  | fragment text => exact congrArg fragment (List.rdropWhile_idempotent Text.isBlank text)
  | splice value => rfl

/-- Trimming at the end brings no white space to the start. -/
theorem trimStart_trimEnd_trimStart (piece : Piece) :
    piece.trimStart.trimEnd.trimStart = piece.trimStart.trimEnd := by
  cases piece with
  | fragment text => exact congrArg fragment (Text.trimStart_trim text)
  | splice value => rfl

end Piece

namespace Template

/-- The pieces of a template as they are spliced into another one: the first is trimmed at
its start and the last at its end. -/
def sealed (template : Template) : Template :=
  (template.modifyHead Piece.trimStart).modifyLast Piece.trimEnd

theorem trimFirst_eq_modifyHead (template : Template) :
    trimFirst template = template.modifyHead Piece.trimStart := by
  cases template with
  | nil => rfl
  | cons piece rest => rfl

theorem trimLast_concat (template : Template) (piece : Piece) :
    trimLast (template ++ [piece]) = template ++ [piece.trimEnd] := by
  induction template with
  | nil => rfl
  | cons first rest ih =>
      cases rest with
      | nil => rfl
      | cons next rest => exact congrArg (first :: ·) ih

theorem trimLast_eq_modifyLast (template : Template) :
    trimLast template = template.modifyLast Piece.trimEnd := by
  cases template using List.reverseRecOn with
  | nil => rfl
  | append_singleton rest piece => rw [trimLast_concat, List.modifyLast_concat]

theorem sealed_eq (template : Template) : template.sealed = trimLast (trimFirst template) := by
  rw [sealed, trimLast_eq_modifyLast, trimFirst_eq_modifyHead]

theorem sealed_ne_nil {template : Template} (some : template ≠ []) : template.sealed ≠ [] := by
  rw [sealed_eq]
  match template with
  | [] => exact absurd rfl some
  | [piece] => exact List.cons_ne_nil _ _
  | piece :: next :: rest => exact List.cons_ne_nil _ _

/-- A sealed template has nothing to trim at its start. -/
theorem trimFirst_sealed (template : Template) : trimFirst template.sealed = template.sealed := by
  rw [sealed_eq]
  match template with
  | [] => rfl
  | [piece] => exact congrArg ([·]) piece.trimStart_trimEnd_trimStart
  | piece :: next :: rest =>
      exact congrArg (· :: trimLast (next :: rest)) piece.trimStart_trimStart

/-- A sealed template has nothing to trim at its end. -/
theorem trimLast_sealed (template : Template) : trimLast template.sealed = template.sealed := by
  rw [sealed_eq]
  generalize trimFirst template = trimmed
  cases trimmed using List.reverseRecOn with
  | nil => rfl
  | append_singleton rest piece =>
      rw [trimLast_concat, trimLast_concat, Piece.trimEnd_trimEnd]

/-- Trimming at the start comes no further than pieces that have nothing to trim there. -/
theorem trimFirst_append {middle : Template} (some : middle ≠ [])
    (opened : trimFirst middle = middle) (before after : Template) :
    trimFirst (before ++ (middle ++ after)) = trimFirst before ++ (middle ++ after) := by
  cases before with
  | nil =>
      cases middle with
      | nil => exact absurd rfl some
      | cons piece rest =>
          rw [trimFirst, List.cons.injEq] at opened
          exact congrArg (· :: (rest ++ after)) opened.1
  | cons piece rest => rfl

/-- Trimming at the end comes no further than pieces that have nothing to trim there. -/
theorem trimLast_append {middle : Template} (some : middle ≠ [])
    (closed : trimLast middle = middle) (before after : Template) :
    trimLast (before ++ (middle ++ after)) = before ++ (middle ++ trimLast after) := by
  cases after using List.reverseRecOn with
  | nil =>
      cases middle using List.reverseRecOn with
      | nil => exact absurd rfl some
      | append_singleton rest piece =>
          rw [trimLast_concat, List.append_cancel_left_eq] at closed
          rw [trimLast, List.append_nil, ← List.append_assoc, trimLast_concat, closed]
  | append_singleton rest piece =>
      rw [← List.append_assoc, ← List.append_assoc, trimLast_concat, trimLast_concat,
        List.append_assoc, List.append_assoc]

/-- The ends of a template are trimmed on either side of a middle that has nothing to trim,
whatever that middle is. -/
theorem sealed_append {middle : Template} (some : middle ≠ [])
    (opened : trimFirst middle = middle) (closed : trimLast middle = middle)
    (before after : Template) :
    sealed (before ++ (middle ++ after)) = trimFirst before ++ (middle ++ trimLast after) := by
  rw [sealed_eq, trimFirst_append some opened, trimLast_append some closed]

/-! ## Written pieces -/

variable {config : RenderConfig}

theorem render_eq (config : RenderConfig) (template : Template) :
    render config template = (written config template.sealed).map Term.raw := by
  rw [render, sealed_eq]
  cases written config (trimLast (trimFirst template)) <;> rfl

theorem written_append_of_ok {first : Template} {text : Text}
    (whole : written config first = .ok text) (second : Template) :
    written config (first ++ second) = (written config second).map (text ++ ·) := by
  induction first generalizing text with
  | nil =>
      cases whole
      rw [List.nil_append]
      cases written config second <;> rfl
  | cons piece rest ih =>
      rw [written] at whole
      rw [List.cons_append, written]
      cases own : piece.written config with
      | error reason =>
          rw [own] at whole
          cases whole
      | ok lead =>
          cases others : written config rest with
          | error reason =>
              rw [own, others] at whole
              cases whole
          | ok texts =>
              rw [own, others] at whole
              cases whole
              rw [ih others]
              cases written config second with
              | error reason => rfl
              | ok later => exact congrArg Except.ok (List.append_assoc lead texts later).symm

/-- What is written before does not tell two templates apart that are written alike. -/
theorem written_append_congr {first second : Template}
    (alike : written config first = written config second) (before : Template) :
    written config (before ++ first) = written config (before ++ second) := by
  induction before with
  | nil => exact alike
  | cons piece rest ih => rw [List.cons_append, List.cons_append, written, written, ih]

/-- A term in a hole is written as it stands. -/
theorem written_hole (term : Term) : written config [.splice (.term term)] = .ok term.text := by
  rw [written, Piece.written, Value.toTerm]
  exact congrArg Except.ok (List.append_nil term.text)

/-- A rendered template in a hole can be replaced by its sealed pieces. -/
theorem written_splice {inner : Template} {term : Term}
    (rendered : render config inner = .ok term) (before after : Template) :
    written config (before ++ ([.splice (.term term)] ++ after)) =
      written config (before ++ (inner.sealed ++ after)) := by
  have whole : written config inner.sealed = .ok term.text := by
    rw [render_eq] at rendered
    cases found : written config inner.sealed with
    | error reason =>
        rw [found] at rendered
        cases rendered
    | ok text =>
        rw [found] at rendered
        cases rendered
        rfl
  apply written_append_congr
  rw [written_append_of_ok (written_hole term), written_append_of_ok whole]

theorem render_splice {inner : Template} (some : inner ≠ []) {term : Term}
    (rendered : render config inner = .ok term) (before after : Template) :
    render config (before ++ .splice (.term term) :: after) =
      render config (before ++ (inner.sealed ++ after)) := by
  have hole : [Piece.splice (.term term)] ≠ [] := List.cons_ne_nil _ _
  rw [render_eq, render_eq, ← List.singleton_append, sealed_append hole rfl rfl,
    sealed_append (sealed_ne_nil some) inner.trimFirst_sealed inner.trimLast_sealed,
    written_splice rendered]

/-! ## Trees of templates -/

/-- A piece of a template, which may be a template of its own. That one has at least one
piece: of an empty one nothing would be left to keep its neighbours from the ends. -/
inductive Nested
  | leaf (piece : Piece)
  | node (first : Nested) (rest : List Nested)

namespace Nested

mutual

/-- The piece that stands for a template: the term that it is rendered to, those inside it
before it. -/
def rendered (config : RenderConfig) : Nested → Except Error Piece
  | .leaf piece => .ok piece
  | .node first rest =>
      match rendered config first with
      | .error reason => .error reason
      | .ok piece =>
          match pieces config rest with
          | .error reason => .error reason
          | .ok pieces => (render config (piece :: pieces)).map fun term => .splice (.term term)

/-- Pieces in order, each template among them rendered. -/
def pieces (config : RenderConfig) : List Nested → Except Error Template
  | [] => .ok []
  | first :: rest =>
      match rendered config first with
      | .error reason => .error reason
      | .ok piece =>
          match pieces config rest with
          | .error reason => .error reason
          | .ok pieces => .ok (piece :: pieces)

end

mutual

/-- The pieces in the place of a template: its own, sealed, each template among them
replaced before. -/
def spliced : Nested → Template
  | .leaf piece => [piece]
  | .node first rest => sealed (spliced first ++ splicedAll rest)

/-- Pieces in order, each template among them replaced by its own. -/
def splicedAll : List Nested → Template
  | [] => []
  | first :: rest => spliced first ++ splicedAll rest

end

theorem spliced_ne_nil : ∀ nested : Nested, nested.spliced ≠ []
  | .leaf piece => List.cons_ne_nil piece []
  | .node first rest => by
      rw [spliced]
      exact sealed_ne_nil (List.append_ne_nil_of_left_ne_nil first.spliced_ne_nil _)

/-- What a list of pieces comes to is what its first piece and the others come to. -/
theorem of_pieces_cons {first : Nested} {rest : List Nested} {template : Template}
    (whole : pieces config (first :: rest) = .ok template) :
    ∃ lead later, first.rendered config = .ok lead ∧ pieces config rest = .ok later ∧
      template = lead :: later := by
  rw [pieces] at whole
  cases own : first.rendered config with
  | error reason =>
      rw [own] at whole
      cases whole
  | ok lead =>
      cases others : pieces config rest with
      | error reason =>
          rw [own, others] at whole
          cases whole
      | ok later =>
          rw [own, others] at whole
          cases whole
          exact ⟨lead, later, rfl, rfl, rfl⟩

/-- The piece of a template holds the term that its pieces are rendered to. -/
theorem of_rendered_node {first : Nested} {rest : List Nested} {piece : Piece}
    (whole : (node first rest).rendered config = .ok piece) :
    ∃ lead later term, first.rendered config = .ok lead ∧ pieces config rest = .ok later ∧
      render config (lead :: later) = .ok term ∧ piece = .splice (.term term) := by
  rw [rendered] at whole
  cases own : first.rendered config with
  | error reason =>
      rw [own] at whole
      cases whole
  | ok lead =>
      cases others : pieces config rest with
      | error reason =>
          rw [own, others] at whole
          cases whole
      | ok later =>
          cases made : render config (lead :: later) with
          | error reason =>
              simp only [own, others, made] at whole
              cases whole
          | ok term =>
              simp only [own, others, made] at whole
              cases whole
              exact ⟨lead, later, term, rfl, rfl, made, rfl⟩

mutual

/-- The piece of a template can be replaced by its own pieces, whatever stands around it. -/
theorem render_rendered : ∀ (nested : Nested) {piece : Piece},
    nested.rendered config = .ok piece → ∀ before after : Template,
      render config (before ++ piece :: after) =
        render config (before ++ (nested.spliced ++ after))
  | .leaf own, piece, whole, before, after => by
      rw [rendered] at whole
      cases whole
      rfl
  | .node first rest, piece, whole, before, after => by
      obtain ⟨lead, later, term, own, others, inside, rfl⟩ := of_rendered_node whole
      have some : first.spliced ++ splicedAll rest ≠ [] :=
        List.append_ne_nil_of_left_ne_nil first.spliced_ne_nil _
      have replaced : render config (first.spliced ++ splicedAll rest) = .ok term := by
        rw [← render_pieces rest others first.spliced, ← inside]
        exact (render_rendered first own [] later).symm
      rw [spliced]
      exact render_splice some replaced before after

/-- A template is rendered alike with every template among its pieces rendered first and with
every one of them replaced by its own pieces. -/
theorem render_pieces : ∀ (parts : List Nested) {template : Template},
    pieces config parts = .ok template → ∀ before : Template,
      render config (before ++ template) = render config (before ++ splicedAll parts)
  | [], template, whole, before => by
      rw [pieces] at whole
      cases whole
      rfl
  | first :: rest, template, whole, before => by
      obtain ⟨lead, later, own, others, rfl⟩ := of_pieces_cons whole
      rw [render_rendered first own, splicedAll, ← List.append_assoc, ← List.append_assoc]
      exact render_pieces rest others (before ++ first.spliced)

end

end Nested

/-- A rendered template that is spliced into another one, whatever stands around the hole,
makes the query or the failure that its own pieces make in the place of the hole, trimmed at
their own ends. So it is with every template in a tree of them: rendering the inner ones
first, however deep they stand, is rendering all pieces at once. -/
theorem render_nested (config : RenderConfig) :
    (∀ (inner : Template) (term : Term), inner ≠ [] → render config inner = .ok term →
      ∀ before after : Template,
        render config (before ++ .splice (.term term) :: after) =
          render config (before ++ (inner.sealed ++ after))) ∧
    (∀ (parts : List Nested) (template : Template), Nested.pieces config parts = .ok template →
      render config template = render config (Nested.splicedAll parts)) :=
  ⟨fun _ _ some rendered => render_splice some rendered,
    fun parts _ whole => Nested.render_pieces parts whole []⟩

/-- White space at both ends, and a value that ends in some and holds a quote. -/
def padded : Template :=
  [.fragment "\n ?s ?p ".toList, .splice (.string "a\x22 ".toList), .fragment " \t".toList]

/-- A template that begins with that one and ends in white space of its own. -/
def around : Nested :=
  .node (.node (.leaf (.fragment "\n ?s ?p ".toList))
      [.leaf (.splice (.string "a\x22 ".toList)), .leaf (.fragment " \t".toList)])
    [.leaf (.fragment " . ".toList)]

theorem render_nested_twice :
    ∃ term template, padded ≠ [] ∧ render .standard padded = .ok term ∧
      Nested.pieces .standard [around, .leaf (.fragment "  ".toList)] = .ok template ∧
      (∀ before after : Template,
        render .standard (before ++ .splice (.term term) :: after) =
          render .standard (before ++ (padded.sealed ++ after))) ∧
      render .standard template =
        render .standard (Nested.splicedAll [around, .leaf (.fragment "  ".toList)]) := by
  obtain ⟨term, rendered⟩ : ∃ term, render .standard padded = .ok term := ⟨_, rfl⟩
  obtain ⟨template, whole⟩ : ∃ template,
      Nested.pieces .standard [around, .leaf (.fragment "  ".toList)] = .ok template := ⟨_, rfl⟩
  exact ⟨term, template, List.cons_ne_nil _ _, rendered, whole,
    (render_nested .standard).1 padded term (List.cons_ne_nil _ _) rendered,
    (render_nested .standard).2 _ template whole⟩

/-- Of an empty template in the middle nothing is spliced, and its neighbour is then the last
piece and trimmed. -/
example :
    render .standard [.fragment "?s ".toList, .splice (.term ⟨[]⟩)] = .ok ⟨"?s ".toList⟩ ∧
      render .standard [] = .ok ⟨[]⟩ ∧
      render .standard [.fragment "?s ".toList] = .ok ⟨"?s".toList⟩ := by
  decide

end Template

end SparqlText
