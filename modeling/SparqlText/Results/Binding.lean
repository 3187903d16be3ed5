/-
# Bindings

One bound value of a result in the SPARQL JSON format: its kind, its lexical
form, and perhaps a datatype and a language. A binding is read from JSON and
written as JSON.
-/

import SparqlText.Json.Fields

namespace SparqlText

/-- The kind of a bound value. -/
inductive BindingKind
  | uri
  | literal
  | typedLiteral
  | blankNode
  deriving DecidableEq, Repr

namespace BindingKind

/-- The name of a kind in JSON. -/
def name : BindingKind → Text
  | .uri => "uri".toList
  | .literal => "literal".toList
  | .typedLiteral => "typed-literal".toList
  | .blankNode => "bnode".toList

/-- The kind that a name in JSON names. -/
def ofName? (name : Text) : Option BindingKind :=
  [uri, literal, typedLiteral, blankNode].find? fun kind => kind.name == name

/-- The kind that a JSON tree is: its name, or an object with its name as the only
member and null as that member's value. -/
def ofTree? : Json.Tree → Option BindingKind
  | .string content => content.bind ofName?
  | .object [(some name, .null)] => ofName? name
  | _ => none

end BindingKind

/-- A bound value. -/
structure Binding where
  kind : BindingKind
  lexical : Text
  datatype : Option Text := none
  language : Option Text := none
  deriving DecidableEq, Repr

namespace Binding

/-- The binding of a reference. -/
def ofUri (reference : Text) : Binding := { kind := .uri, lexical := reference }

/-- The binding of a literal. -/
def ofLiteral (lexical : Text) (datatype : Option Text) : Binding :=
  { kind := .literal, lexical, datatype }

/-- The names of the fields in JSON, in their order. -/
def fieldNames : List (List Text) :=
  [["type".toList], ["value".toList], ["datatype".toList],
    ["xml:lang".toList, "lang".toList]]

/-- The binding that a JSON tree is. -/
def ofTree? (tree : Json.Tree) : Option Binding := do
  let given ← Json.given? fieldNames tree
  let kind ← given.required? 0 BindingKind.ofTree?
  let lexical ← given.required? 1 Json.Tree.text?
  let datatype ← given.optional? 2 Json.Tree.text?
  let language ← given.optional? 3 Json.Tree.text?
  return { kind, lexical, datatype, language }

/-- The binding that a JSON text is. -/
def read? (text : Text) : Option Binding := (Json.Tree.read? text).bind ofTree?

/-- A member with a text as its value. -/
def textMember (name : String) (text : Text) : Option Text × Json.Tree :=
  (some name.toList, .string (some text))

/-- A binding as a JSON tree, without the fields that it does not have. -/
def toTree (binding : Binding) : Json.Tree :=
  .object <|
    [textMember "type" binding.kind.name, textMember "value" binding.lexical]
      ++ (binding.datatype.map (textMember "datatype")).toList
      ++ (binding.language.map (textMember "xml:lang")).toList

end Binding

end SparqlText
