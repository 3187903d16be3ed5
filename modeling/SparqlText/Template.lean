/-
# Templates

Query text with values spliced in. The values are converted with nulls as the
empty string. White space is trimmed only at the outer ends, and only where the
template begins or ends in text: the terms in between are never touched.
-/

import SparqlText.Value.Conversion

namespace SparqlText

/-- A piece of a template. -/
inductive Piece
  | fragment (text : Text)
  | splice (value : Value)

namespace Piece

/-- A piece without the white space that its text begins with. -/
def trimStart : Piece → Piece
  | .fragment text => .fragment (Text.trimStart text)
  | .splice value => .splice value

/-- A piece without the white space that its text ends in. -/
def trimEnd : Piece → Piece
  | .fragment text => .fragment (Text.trimEnd text)
  | .splice value => .splice value

/-- A piece as it appears in the query. -/
def written (config : RenderConfig) : Piece → Except Error Text
  | .fragment text => .ok text
  | .splice value =>
      match value.toTerm config false with
      | .error reason => .error reason
      | .ok term => .ok term.text

end Piece

/-- Pieces of a query in order. -/
abbrev Template := List Piece

namespace Template

/-- A template whose first piece is trimmed at its start. -/
def trimFirst : Template → Template
  | [] => []
  | piece :: rest => piece.trimStart :: rest

/-- A template whose last piece is trimmed at its end. -/
def trimLast : Template → Template
  | [] => []
  | [piece] => [piece.trimEnd]
  | piece :: next :: rest => piece :: trimLast (next :: rest)

/-- The pieces one after the other; the first failure is the failure of all. -/
def written (config : RenderConfig) : Template → Except Error Text
  | [] => .ok []
  | piece :: rest =>
      match piece.written config with
      | .error reason => .error reason
      | .ok text =>
          match written config rest with
          | .error reason => .error reason
          | .ok texts => .ok (text ++ texts)

/-- The query that a template stands for, trimmed at its ends. -/
def render (config : RenderConfig) (template : Template) : Except Error Term :=
  match written config (trimLast (trimFirst template)) with
  | .error reason => .error reason
  | .ok text => .ok ⟨text⟩

/-- Fragments of text with values between them. -/
def interleaved : List Text → List Value → Template
  | [], _ => []
  | text :: fragments, [] => .fragment text :: interleaved fragments []
  | text :: fragments, value :: values =>
      .fragment text :: .splice value :: interleaved fragments values

/-- Splice values between fragments, of which there must be one more, under the
standard configuration. -/
def interpolate (fragments : List Text) (values : List Value) : Except Error Term :=
  if fragments.length = values.length + 1 then
    render .standard (interleaved fragments values)
  else .error (.refused (.fragmentCount fragments.length values.length))

end Template

end SparqlText
