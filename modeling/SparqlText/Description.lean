/-
# Node descriptions

A compact description of a node: a subject, and perhaps the keyword `a` and a
list of types with commas between them. Layout may stand at either end and around
commas, and must stand on both sides of the keyword. The shape of a description is
read first and its parts are resolved afterwards, so a text of another shape is
blamed where its longest description ends, and a text of the right shape at its
first part that does not resolve.
-/

import SparqlText.Term

namespace SparqlText

/-- A node's subject and its types. -/
structure Description where
  subject : Term
  types : List Term
  deriving DecidableEq, Repr

namespace Description

/-- A part of a text and the byte offset at which it begins. -/
structure Part where
  offset : Nat
  text : Text
  deriving DecidableEq, Repr

/-- The parts of a description. -/
structure Shape where
  subject : Part
  types : List Part
  deriving DecidableEq, Repr

/-- A character of a subject or type: neither white space nor a comma. -/
def isPartChar (char : Char) : Bool := !Text.isBlank char && char != ','

/-! ## Shape -/

/-- A text without the layout that it begins with. -/
def afterLayout (text : Text) : Text := text.dropWhile Text.isLayout

/-- The bytes of the layout that a text begins with. -/
def layoutSize (text : Text) : Nat := Text.size (text.takeWhile Text.isLayout)

/-- The part that a text begins with, which may be empty. -/
def leadingPart (text : Text) : Text := text.takeWhile isPartChar

/-- What follows the part that a text begins with. -/
def afterPart (text : Text) : Text := text.dropWhile isPartChar

theorem length_afterLayout_le (text : Text) :
    (afterLayout text).length ≤ text.length :=
  (List.dropWhile_sublist _).length_le

theorem length_afterPart_le (text : Text) :
    (afterPart text).length ≤ text.length :=
  (List.dropWhile_sublist _).length_le

/-- The types that follow a type, each after a comma, with the offset and the text
after the last of them. A comma without a type after it is left unread. -/
def furtherTypes (offset : Nat) (text : Text) : List Part × Nat × Text :=
  match _comma : afterLayout text with
  | ',' :: rest =>
      let part := leadingPart (afterLayout rest)
      if part.isEmpty then ([], offset, text)
      else
        let start := offset + layoutSize text + 1 + layoutSize rest
        let (types, stop, left) :=
          furtherTypes (start + Text.size part) (afterPart (afterLayout rest))
        (⟨start, part⟩ :: types, stop, left)
  | _ => ([], offset, text)
termination_by text.length
decreasing_by
  have whole := length_afterLayout_le text
  rw [_comma, List.length_cons] at whole
  have inner := length_afterLayout_le rest
  have left := length_afterPart_le (afterLayout rest)
  omega

/-- The keyword and the list of types that may follow a subject, with the offset
and the text after them. -/
def typeList? (offset : Nat) (text : Text) : Option (List Part × Nat × Text) :=
  match afterLayout text with
  | 'a' :: rest =>
      let part := leadingPart (afterLayout rest)
      if layoutSize text = 0 || layoutSize rest = 0 || part.isEmpty then none
      else
        let start := offset + layoutSize text + 1 + layoutSize rest
        let (types, stop, left) :=
          furtherTypes (start + Text.size part) (afterPart (afterLayout rest))
        some (⟨start, part⟩ :: types, stop, left)
  | _ => none

/-- The parts of a text that has the shape of a description; otherwise the offset
at which the longest one that it begins with ends, layout included. -/
def shape (input : Text) : Except Nat Shape :=
  let start := layoutSize input
  let text := afterLayout input
  let subject := leadingPart text
  if subject.isEmpty then .error start
  else
    let offset := start + Text.size subject
    let (types, stop, left) :=
      (typeList? offset (afterPart text)).getD ([], offset, afterPart text)
    if (afterLayout left).isEmpty then .ok ⟨⟨start, subject⟩, types⟩
    else .error (stop + layoutSize left)

/-! ## Resolution -/

/-- A node's type: any kind of reference but the keyword and blank nodes. -/
def typeTerm (config : RenderConfig) (text : Text) : Except Refusal Term :=
  match Term.reference config text with
  | .error reason => .error reason
  | .ok term =>
      if term == Term.keyword || term.isBlankNode then .error (.typeNotIri text)
      else .ok term

/-- The terms of type parts in order, blamed on the first that has none. -/
def resolvedTypes (config : RenderConfig) (input : Text) :
    List Part → Except Error (List Term)
  | [] => .ok []
  | part :: rest =>
      match typeTerm config part.text with
      | .error reason => .error (.unparsed input part.offset (.refused reason))
      | .ok term =>
          match resolvedTypes config input rest with
          | .error reason => .error reason
          | .ok terms => .ok (term :: terms)

/-- The description that a text is. -/
def read (config : RenderConfig) (input : Text) : Except Error Description :=
  match shape input with
  | .error offset => .error (.unparsed input offset .notDescription)
  | .ok shape =>
      match Term.reference config shape.subject.text with
      | .error reason =>
          .error (.unparsed input shape.subject.offset (.refused reason))
      | .ok subject =>
          if subject = Term.keyword then
            .error (.unparsed input shape.subject.offset .subjectIsKeyword)
          else
            match resolvedTypes config input shape.types with
            | .error reason => .error reason
            | .ok types => .ok ⟨subject, types⟩

end Description

end SparqlText
