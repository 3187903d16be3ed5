/-
# Rendering configuration

The choices that callers may make about the text that is built: which references
are absolute, how far the lines of a block are indented, whether a null is an
error, and how the nodes of reified statements are named. A configuration is
read from JSON, and a field that is left out keeps its standard value.
-/

import SparqlText.Json.Fields

namespace SparqlText

/-- The choices about the text that is built. -/
structure RenderConfig where
  /-- What an absolute reference may begin with. -/
  allowedSchemes : List Text :=
    ["http://", "https://", "urn:", "mailto:", "file://", "tag:"].map String.toList
  /-- How many spaces stand before each predicate of a block. -/
  indent : Nat := 2
  /-- Whether a null is refused rather than written as the empty string. -/
  strictNulls : Bool := false
  /-- What stands before the digest in the label of a reified statement. -/
  reificationLead : Text := "rel_".toList
  deriving DecidableEq, Repr

namespace RenderConfig

/-- The configuration that leaves every choice at its standard value. -/
def standard : RenderConfig := {}

/-- Whether a text begins with one of the allowed schemes. -/
def allows (config : RenderConfig) (reference : Text) : Bool :=
  config.allowedSchemes.any fun scheme => scheme.isPrefixOf reference

/-- The widest indent that one text has room for, a space being one byte. -/
def widestIndent : Nat := Text.capacity

/-- The spaces before each predicate of a block, if there can be so many. Whether there is
room for what they are written into is not asked. -/
def indentation? (config : RenderConfig) : Option Text :=
  if config.indent ≤ widestIndent then some (List.replicate config.indent ' ') else none

/-! ## Reading -/

/-- The names of the fields in JSON, in their order. -/
def fieldNames : List (List Text) :=
  [["allowed_schemes".toList], ["indent".toList], ["strict_nulls".toList],
    ["reification_prefix".toList]]

/-- The configuration that a JSON tree is. -/
def ofTree? (tree : Json.Tree) : Option RenderConfig := do
  let given ← Json.given? fieldNames tree
  let allowedSchemes ←
    given.orElse? 0 standard.allowedSchemes (Json.Tree.list? Json.Tree.text?)
  let indent ← given.orElse? 1 standard.indent Json.Tree.natural?
  let strictNulls ← given.orElse? 2 standard.strictNulls Json.Tree.bool?
  let reificationLead ← given.orElse? 3 standard.reificationLead Json.Tree.text?
  return { allowedSchemes, indent, strictNulls, reificationLead }

/-- The configuration that a JSON text is. -/
def read? (text : Text) : Option RenderConfig :=
  (Json.Tree.read? text).bind ofTree?

/-! ## Files -/

/-- Why no configuration could be had from a file. -/
inductive LoadFailure
  | unreadable (path : Text)
  | malformed (path : Text)
  deriving DecidableEq, Repr

/-- What was being done when loading failed. -/
def LoadFailure.message : LoadFailure → Text
  | .unreadable path => "reading render config ".toList ++ path
  | .malformed path => "parsing render config ".toList ++ path

/-- The configuration in a file, given the file's contents if it can be read. -/
def load (path : Text) : (contents : Option Text) → Except LoadFailure RenderConfig
  | none => .error (.unreadable path)
  | some contents =>
      match read? contents with
      | none => .error (.malformed path)
      | some config => .ok config

end RenderConfig

end SparqlText
