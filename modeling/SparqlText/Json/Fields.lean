/-
# Structures in JSON

A structure with named fields is written as an object, where members of other
names are passed over and a field may be given once, or as an array of the
fields in their order, where the last ones may be left out. A field that is left
out may have a value to stand in for it.
-/

import SparqlText.Json.Tree
import SparqlText.Text.Order

namespace SparqlText.Json

namespace Tree

/-- The text that a tree is. -/
def text? : Tree → Option Text
  | .string content => content
  | _ => none

/-- The truth value that a tree is. -/
def bool? : Tree → Option Bool
  | .bool value => some value
  | _ => none

/-- The natural number of at most 64 bits that a tree is. -/
def natural? : Tree → Option Nat
  | .number numeral =>
      match numeral.integer? with
      | some (.ofNat value) => some value
      | _ => none
  | _ => none

/-- The list that a tree is, each item read by `item?`. -/
def list? {Item : Type} (item? : Tree → Option Item) : Tree → Option (List Item)
  | .array items => items.mapM item?
  | _ => none

/-- The entries that members are, each value read by `value?`. -/
def entries? {Value : Type} (value? : Tree → Option Value) :
    List (Option Text × Tree) → Option (List (Text × Value))
  | [] => some []
  | (name, tree) :: rest =>
      match name, value? tree, entries? value? rest with
      | some name, some value, some entries => some ((name, value) :: entries)
      | _, _, _ => none

/-- The mapping from names that a tree is, each value read by `value?`. -/
def mapping? {Value : Type} (value? : Tree → Option Value) :
    Tree → Option (Mapping Value)
  | .object members => (entries? value? members).map Mapping.ofEntries
  | _ => none

/-- What is read from `null` as nothing and from any other tree by `value?`. -/
def nullable? {Value : Type} (value? : Tree → Option Value) : Tree → Option (Option Value)
  | .null => some none
  | tree => (value? tree).map some

end Tree

/-- The trees given for the fields of a structure, by position. -/
abbrev Given := List (Option Tree)

/-- The trees of members by field. `names` has the accepted names of each field.
A repeated field and a name that is no text are refused. -/
def givenByName? (names : List (List Text)) :
    Given → List (Option Text × Tree) → Option Given
  | given, [] => some given
  | given, (name, tree) :: rest =>
      match name with
      | none => none
      | some name =>
          match names.findIdx? (·.contains name) with
          | none => givenByName? names given rest
          | some index =>
              if (given.getD index none).isSome then none
              else givenByName? names (given.set index (some tree)) rest

/-- The trees given for the fields of a structure, whichever way it is written. -/
def given? (names : List (List Text)) : Tree → Option Given
  | .object members => givenByName? names (names.map fun _ => none) members
  | .array items => if items.length ≤ names.length then some (items.map some) else none
  | _ => none

namespace Given

/-- A field that must be given. -/
def required? {Value : Type} (given : Given) (index : Nat)
    (value? : Tree → Option Value) : Option Value :=
  (given.getD index none).bind value?

/-- A field with a value that stands in when it is left out. -/
def orElse? {Value : Type} (given : Given) (index : Nat) (standIn : Value)
    (value? : Tree → Option Value) : Option Value :=
  match given.getD index none with
  | none => some standIn
  | some tree => value? tree

/-- A field that may be left out or null. -/
def optional? {Value : Type} (given : Given) (index : Nat)
    (value? : Tree → Option Value) : Option (Option Value) :=
  given.orElse? index none (Tree.nullable? value?)

end Given

end SparqlText.Json
