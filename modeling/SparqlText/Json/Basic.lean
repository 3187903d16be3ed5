/-
# JSON values

The value that a JSON tree denotes, if it denotes one: every string denotes a
text, every numeral a number, and arrays and objects are nested at most 127
deep. The members of an object are in the order of their names, the last of each
name alone.
-/

import SparqlText.Json.Tree
import SparqlText.Text.Order

namespace SparqlText

/-- A JSON value. Integers have at most 64 bits, signed or unsigned. -/
inductive Json
  | null
  | bool (value : Bool)
  | integer (value : Int)
  | float (value : Binary64)
  | string (text : Text)
  | array (items : List Json)
  | object (members : List (Text × Json))

namespace Json

/-- A number as a value. -/
def ofNumber : Number → Json
  | .integer value => .integer value
  | .float value => .float value

mutual

/-- The value of a tree of any depth. -/
def ofTree? : Tree → Option Json
  | .null => some .null
  | .bool value => some (.bool value)
  | .number numeral => numeral.value?.map ofNumber
  | .string content => content.map .string
  | .array items => (ofItems? items).map .array
  | .object members => (ofMembers? members).map fun values => .object (sortedByKey values)

/-- The values of an array's items. -/
def ofItems? : List Tree → Option (List Json)
  | [] => some []
  | item :: rest =>
      match ofTree? item, ofItems? rest with
      | some value, some values => some (value :: values)
      | _, _ => none

/-- The values of an object's members with their names. -/
def ofMembers? : List (Option Text × Tree) → Option (List (Text × Json))
  | [] => some []
  | (name, value) :: rest =>
      match name, ofTree? value, ofMembers? rest with
      | some name, some value, some values => some ((name, value) :: values)
      | _, _, _ => none

end

/-- The greatest depth of nesting that a value may have. -/
def depthLimit : Nat := 127

/-- The value of a text. -/
def read? (text : Text) : Option Json :=
  (Tree.read? text).bind fun tree =>
    if tree.depth ≤ depthLimit then ofTree? tree else none

end Json

end SparqlText
