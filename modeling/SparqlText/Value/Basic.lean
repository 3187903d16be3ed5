/-
# Values

What may be spliced into a query: nothing, a text, a number, a truth value, an
instant, a term, or an array or record of values. The keys of a record are names
to be resolved or terms to be used as they are.
-/

import SparqlText.Json.Basic
import SparqlText.Term

namespace SparqlText

/-- The key of a record's entry. -/
inductive Key
  /-- A name that is resolved like the key of a property. -/
  | name (text : Text)
  /-- A term that is used as it is. -/
  | term (term : Term)
  deriving DecidableEq, Repr

/-- A value that may be spliced into a query. -/
inductive Value
  | null
  | string (text : Text)
  | integer (value : Int64)
  | number (value : Binary64)
  | boolean (value : Bool)
  | timestamp (value : Timestamp)
  | array (items : List Value)
  | record (entries : List (Key × Value))
  | term (term : Term)

namespace Value

/-- Whether a value is neither an array nor a record. -/
def isScalar : Value → Bool
  | .array _ => false
  | .record _ => false
  | _ => true

/-- An optional value, with null for none. -/
def ofOption : Option Value → Value
  | none => .null
  | some value => value

/-- A JSON integer of at most 64 bits, signed where it fits and a double
otherwise. -/
def ofJsonInteger (value : Int) : Value :=
  if Int64.minValue.toInt ≤ value && value ≤ Int64.maxValue.toInt then
    .integer (Int64.ofInt value)
  else .number (Binary64.ofNat value.toNat)

mutual

/-- The value of a JSON value. The members of an object are entries under their
names. -/
def ofJson : Json → Value
  | .null => .null
  | .bool value => .boolean value
  | .integer value => ofJsonInteger value
  | .float value => .number value
  | .string text => .string text
  | .array items => .array (ofJsonItems items)
  | .object members => .record (ofJsonMembers members)

/-- The values of an array's items. -/
def ofJsonItems : List Json → List Value
  | [] => []
  | item :: rest => ofJson item :: ofJsonItems rest

/-- The entries of an object's members. -/
def ofJsonMembers : List (Text × Json) → List (Key × Value)
  | [] => []
  | (name, value) :: rest => (.name name, ofJson value) :: ofJsonMembers rest

end

/-- The elements that an object of several triples stands for: those of an array
that has any, and otherwise the value alone. -/
def elements : Value → List Value
  | .array (first :: rest) => first :: rest
  | value => [value]

end Value

end SparqlText
