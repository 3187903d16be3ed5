/-
# Native values

What a binding is worth in a program. A literal whose datatype is known becomes a
truth value, an integer, a double, an instant or a JSON value; where it has no
such value, and for every other binding, it stays the text that it is.
-/

import SparqlText.Json.Basic
import SparqlText.Results.Binding
import SparqlText.Timestamp.Reader
import SparqlText.Binary64.Plain
import SparqlText.Vocabulary

namespace SparqlText

/-- A value of a program. -/
inductive Native
  | text (text : Text)
  | integer (value : Int64)
  | float (value : Binary64)
  | boolean (value : Bool)
  | timestamp (value : Timestamp)
  | json (value : Json)

/-- What the values of a datatype are. -/
inductive DatatypeClass
  | boolean
  | integer
  | float
  | temporal
  | json
  | other
  deriving DecidableEq, Repr

namespace DatatypeClass

/-- The class of a local name in the XML Schema namespace. -/
def ofLocalName (name : Text) : DatatypeClass :=
  if name = "boolean".toList then .boolean
  else if ["decimal", "float", "double"].map String.toList |>.contains name then .float
  else if ["date", "dateTime", "dateTimeStamp", "time"].map String.toList
      |>.contains name then .temporal
  else if Vocabulary.integerFamily.contains name then .integer
  else .other

/-- The class of a datatype. -/
def ofDatatype (datatype : Text) : DatatypeClass :=
  if datatype = Vocabulary.rdfJson then .json
  else
    match Vocabulary.xsdLocalName? datatype with
    | none => .other
    | some name => ofLocalName name

end DatatypeClass

namespace Native

/-- The integer of 64 bits that a text denotes. -/
def integer64? (text : Text) : Option Int64 :=
  (Decimal.integer? text).bind fun value =>
    if Int64.minValue.toInt ≤ value && value ≤ Int64.maxValue.toInt then
      some (Int64.ofInt value)
    else none

/-- The double that a text denotes, if it is a number. -/
def float? (text : Text) : Option Binary64 :=
  (Binary64.read? text).filter fun value => !value.isNaN

/-- The value of a lexical form under a datatype, if it has one. White space around
the form does not count, except in JSON, which has rules of its own. -/
def ofLexical? (datatype lexical : Text) : Option Native :=
  let trimmed := Text.trim lexical
  match DatatypeClass.ofDatatype datatype with
  | .boolean => some (.boolean (trimmed == "true".toList || trimmed == ['1']))
  | .integer => (integer64? trimmed).map .integer
  | .float => (float? trimmed).map .float
  | .temporal => (Timestamp.read? trimmed).map .timestamp
  | .json => (Json.read? lexical).map .json
  | .other => none

end Native

namespace Binding

/-- What a binding is worth in a program. -/
def toNative (binding : Binding) : Native :=
  match binding.kind, binding.datatype with
  | .uri, _ => .text binding.lexical
  | _, none => .text binding.lexical
  | _, some datatype =>
      (Native.ofLexical? datatype binding.lexical).getD (.text binding.lexical)

end Binding

end SparqlText
