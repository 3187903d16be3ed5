/-
# Results documents

The answer to a query in the SPARQL JSON format: the variables, and either rows
of bindings or a truth value. The variables that a row binds are in the order of
their names.
-/

import SparqlText.Results.Native

namespace SparqlText

/-- The bindings of one solution by variable. -/
abbrev Row := Mapping Binding

/-- The answer to a query. -/
structure ResultSet where
  «variables» : List Text := []
  solutions : Option (List Row) := none
  verdict : Option Bool := none
  deriving DecidableEq

namespace ResultSet

/-- The rows of bindings, of which there are none in an answer of yes or no. -/
def rows (results : ResultSet) : List Row := results.solutions.getD []

/-- The rows with every binding as the value that it is worth. -/
def nativeRows (results : ResultSet) : List (Mapping Native) :=
  results.rows.map fun row => row.map Binding.toNative

/-! ## Reading -/

/-- The variables that the head of a document names. -/
def variablesOfTree? (tree : Json.Tree) : Option (List Text) := do
  let given ← Json.given? [["vars".toList]] tree
  given.orElse? 0 [] (Json.Tree.list? Json.Tree.text?)

/-- The rows that the results of a document hold. -/
def solutionsOfTree? (tree : Json.Tree) : Option (List Row) := do
  let given ← Json.given? [["bindings".toList]] tree
  given.orElse? 0 [] (Json.Tree.list? (Json.Tree.mapping? Binding.ofTree?))

/-- The names of a document's fields, in their order. -/
def fieldNames : List (List Text) :=
  [["head".toList], ["results".toList], ["boolean".toList]]

/-- The answer that a JSON tree is. -/
def ofTree? (tree : Json.Tree) : Option ResultSet := do
  let given ← Json.given? fieldNames tree
  let names ← given.orElse? 0 [] variablesOfTree?
  let solutions ← given.optional? 1 solutionsOfTree?
  let verdict ← given.optional? 2 Json.Tree.bool?
  return { «variables» := names, solutions, verdict }

/-- The answer that a JSON text is. -/
def read? (text : Text) : Option ResultSet := (Json.Tree.read? text).bind ofTree?

/-! ## Writing -/

/-- A row as a JSON tree. -/
def rowTree (row : Row) : Json.Tree :=
  .object (row.entries.map fun (name, binding) => (some name, binding.toTree))

/-- An answer as a JSON tree, without the fields that it does not have. -/
def toTree (results : ResultSet) : Json.Tree :=
  let head := Json.Tree.object
    [(some "vars".toList, .array (results.variables.map fun name => .string (some name)))]
  let solutions := results.solutions.map fun rows =>
    (some "results".toList,
      Json.Tree.object [(some "bindings".toList, .array (rows.map rowTree))])
  let verdict := results.verdict.map fun value =>
    (some "boolean".toList, Json.Tree.bool value)
  .object ((some "head".toList, head) :: (solutions.toList ++ verdict.toList))

/-- An answer as a JSON text. -/
def written (results : ResultSet) : Text := results.toTree.written

end ResultSet

end SparqlText
