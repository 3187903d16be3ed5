/-
# Triples and subject blocks

A triple is three texts and a full stop. A subject block is a subject and its
pairs of predicate and object, each pair on a line of its own; without pairs
there is no block. Subjects and predicates are taken as they are, and objects are
converted under the configuration.

A block with pairs has no text where the configuration asks for an indent that no
text has room for. No other size is looked at: a text that is put together from its
parts is taken to find room, however long it is.
-/

import SparqlText.Value.Conversion

namespace SparqlText

/-- A predicate and an object, as they are written. -/
structure Pair where
  predicate : Text
  object : Text
  deriving DecidableEq, Repr

namespace Pattern

/-- Three texts as a triple. -/
def triple (subject predicate object : Text) : Text :=
  subject ++ ' ' :: predicate ++ ' ' :: object ++ [' ', '.']

/-- One line of a block, from its line break to its mark. -/
def line (indentation : Text) (pair : Pair) (mark : Char) : Text :=
  '\n' :: indentation ++ pair.predicate ++ ' ' :: pair.object ++ [' ', mark]

/-- The lines of a block: a semicolon after each but the last, which has a full
stop. -/
def lines (indentation : Text) : List Pair → Text
  | [] => []
  | [pair] => line indentation pair '.'
  | pair :: next :: rest => line indentation pair ';' ++ lines indentation (next :: rest)

/-- The lines of a block with pairs have the indent in them. -/
theorem sublist_lines (indentation : Text) {pairs : List Pair} (filled : pairs ≠ []) :
    indentation.Sublist (lines indentation pairs) := by
  have within (pair : Pair) (mark : Char) : indentation.Sublist (line indentation pair mark) := by
    have part : indentation <:+: line indentation pair mark :=
      ⟨['\n'], pair.predicate ++ ' ' :: pair.object ++ [' ', mark], by simp [line]⟩
    exact part.sublist
  cases pairs with
  | nil => exact absurd rfl filled
  | cons pair rest =>
      cases rest with
      | nil => exact within pair '.'
      | cons next rest => exact (within pair ';').trans (List.sublist_append_left _ _)

/-- The block of a subject, which is empty where there are no pairs, if it can be
written. -/
def block? (config : RenderConfig) (subject : Text) (pairs : List Pair) : Option Text :=
  if pairs.isEmpty then some []
  else config.indentation?.map fun indentation => subject ++ lines indentation pairs

/-! ## Converted objects -/

/-- A triple with a value as its object. -/
def convertedTriple (config : RenderConfig) (subject predicate : Text)
    (object : Value) : Except Error Text :=
  match object.toConfiguredTerm config with
  | .error reason => .error reason
  | .ok object => .ok (triple subject predicate object.text)

/-- A quoted triple with a value as its object. -/
def quotedTriple (config : RenderConfig) (subject predicate : Text)
    (object : Value) : Except Error Term :=
  match object.toConfiguredTerm config with
  | .error reason => .error reason
  | .ok object =>
      .ok ⟨['<', '<', ' '] ++ subject ++ ' ' :: predicate ++ ' ' :: object.text
        ++ [' ', '>', '>']⟩

/-- Terms of several values in order; the first failure is the failure of all. -/
def convertedValues (config : RenderConfig) : List Value → Except Error (List Term)
  | [] => .ok []
  | value :: rest =>
      match value.toConfiguredTerm config with
      | .error reason => .error reason
      | .ok term =>
          match convertedValues config rest with
          | .error reason => .error reason
          | .ok terms => .ok (term :: terms)

/-- Pairs whose objects are converted whole. -/
def wholePairs (config : RenderConfig) : List (Text × Value) → Except Error (List Pair)
  | [] => .ok []
  | (predicate, object) :: rest =>
      match object.toConfiguredTerm config with
      | .error reason => .error reason
      | .ok object =>
          match wholePairs config rest with
          | .error reason => .error reason
          | .ok pairs => .ok (⟨predicate, object.text⟩ :: pairs)

/-- Pairs for each element of the objects. -/
def elementPairs (config : RenderConfig) : List (Text × Value) → Except Error (List Pair)
  | [] => .ok []
  | (predicate, object) :: rest =>
      match convertedValues config object.elements with
      | .error reason => .error reason
      | .ok terms =>
          match elementPairs config rest with
          | .error reason => .error reason
          | .ok pairs => .ok (terms.map (fun term => ⟨predicate, term.text⟩) ++ pairs)

/-- A block in which an array is one object. All objects are converted before it is
asked whether the block can be written. -/
def triples (config : RenderConfig) (subject : Text)
    (pairs : List (Text × Value)) : Except Error (Option Text) :=
  match wholePairs config pairs with
  | .error reason => .error reason
  | .ok pairs => .ok (block? config subject pairs)

/-- A block in which an array stands for an object per element. -/
def triplesMap (config : RenderConfig) (subject : Text)
    (pairs : List (Text × Value)) : Except Error (Option Text) :=
  match elementPairs config pairs with
  | .error reason => .error reason
  | .ok pairs => .ok (block? config subject pairs)

end Pattern

end SparqlText
