/-
# JSON trees

The tree that the tokens of a JSON text form. A tree keeps what the text says:
numerals as written, members in written order and repeated members, strings that
denote no text. What a tree means is a question to ask of it later, so a part
that nobody asks about may be of any size and depth.

Tokens are read by a machine with a stack of unfinished arrays and objects, one
token at a time.
-/

import SparqlText.Json.Token

namespace SparqlText.Json

/-- What a JSON text says. -/
inductive Tree
  | null
  | bool (value : Bool)
  | number (numeral : Numeral)
  | string (content : Option Text)
  | array (items : List Tree)
  | object (members : List (Option Text × Tree))

namespace Tree

/-! ## Reading -/

/-- An array or object that surrounds the value being read. Members and items
before that value are kept last first. -/
inductive Frame
  | array (before : List Tree)
  | object (before : List (Option Text × Tree)) (name : Option Text)

/-- What may come next. -/
inductive Expectation
  /-- A value, or a closing bracket where an array has just been opened. -/
  | value (closable : Bool)
  /-- A member's name, or a closing brace where an object has just been opened. -/
  | name (closable : Bool) (before : List (Option Text × Tree))
  /-- The colon after a member's name. -/
  | colon (before : List (Option Text × Tree)) (name : Option Text)
  /-- What may follow a finished value. -/
  | after (value : Tree)

/-- One token: the new expectation and stack, if the token may stand there. -/
def step : Expectation → List Frame → Token → Option (Expectation × List Frame)
  | .value _, frames, .null => some (.after .null, frames)
  | .value _, frames, .bool value => some (.after (.bool value), frames)
  | .value _, frames, .number numeral => some (.after (.number numeral), frames)
  | .value _, frames, .string content => some (.after (.string content), frames)
  | .value _, frames, .leftBracket => some (.value true, .array [] :: frames)
  | .value _, frames, .leftBrace => some (.name true [], frames)
  | .value true, .array _ :: frames, .rightBracket => some (.after (.array []), frames)
  | .name _ before, frames, .string name => some (.colon before name, frames)
  | .name true _, frames, .rightBrace => some (.after (.object []), frames)
  | .colon before name, frames, .colon =>
      some (.value false, .object before name :: frames)
  | .after value, .array before :: frames, .comma =>
      some (.value false, .array (value :: before) :: frames)
  | .after value, .array before :: frames, .rightBracket =>
      some (.after (.array (value :: before).reverse), frames)
  | .after value, .object before name :: frames, .comma =>
      some (.name false ((name, value) :: before), frames)
  | .after value, .object before name :: frames, .rightBrace =>
      some (.after (.object ((name, value) :: before).reverse), frames)
  | _, _, _ => none

/-- Read tokens to the end: the value, if it is finished there and nothing
surrounds it. -/
def run : Expectation → List Frame → List Token → Option Tree
  | .after value, [], [] => some value
  | _, _, [] => none
  | expectation, frames, token :: rest =>
      match step expectation frames token with
      | none => none
      | some (expectation, frames) => run expectation frames rest

/-- The tree of a list of tokens. -/
def ofTokens? (tokens : List Token) : Option Tree := run (.value false) [] tokens

/-- The tree of a text. -/
def read? (text : Text) : Option Tree := (Token.all? text).bind ofTokens?

/-! ## Writing -/

mutual

/-- The tokens of a tree. -/
def tokens : Tree → List Token
  | .null => [.null]
  | .bool value => [.bool value]
  | .number numeral => [.number numeral]
  | .string content => [.string content]
  | .array items => .leftBracket :: tokensOfItems items ++ [.rightBracket]
  | .object members => .leftBrace :: tokensOfMembers members ++ [.rightBrace]

/-- The tokens between the brackets of an array. -/
def tokensOfItems : List Tree → List Token
  | [] => []
  | [item] => tokens item
  | item :: next :: rest => tokens item ++ .comma :: tokensOfItems (next :: rest)

/-- The tokens between the braces of an object. -/
def tokensOfMembers : List (Option Text × Tree) → List Token
  | [] => []
  | [(name, value)] => .string name :: .colon :: tokens value
  | (name, value) :: next :: rest =>
      .string name :: .colon :: tokens value ++ .comma :: tokensOfMembers (next :: rest)

end

/-- A tree as text, without white space. -/
def written (tree : Tree) : Text := tree.tokens.flatMap Token.written

/-! ## Depth -/

mutual

/-- How many arrays and objects are nested in each other at most. -/
def depth : Tree → Nat
  | .array items => depthOfItems items + 1
  | .object members => depthOfMembers members + 1
  | _ => 0

/-- The greatest depth of an array's items. -/
def depthOfItems : List Tree → Nat
  | [] => 0
  | item :: rest => max (depth item) (depthOfItems rest)

/-- The greatest depth of an object's values. -/
def depthOfMembers : List (Option Text × Tree) → Nat
  | [] => 0
  | (_, value) :: rest => max (depth value) (depthOfMembers rest)

end

end Tree

end SparqlText.Json
