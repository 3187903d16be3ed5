/-
# Terms

Text that may be inserted into a query as it stands. The constructors check what
they are given and build the one written form of it: a reference between angle
brackets, a variable, a blank node, a prefixed name, a literal, or the keyword
`a`. A term is never escaped again.
-/

import SparqlText.Literal
import SparqlText.Name
import SparqlText.Refusal
import SparqlText.RenderConfig
import SparqlText.Text.Blank
import SparqlText.Vocabulary

namespace SparqlText

/-- Text that stands for itself wherever it is inserted. `raw` takes the caller's
word for it. -/
structure Term where
  raw ::
  text : Text
  deriving DecidableEq, Repr

namespace Term

/-! ## Rules -/

/-- The printable characters that may not stand between angle brackets. -/
def forbiddenInReference : List Char :=
  ['<', '>', '\x22', '\x7b', '\x7d', '|', '^', '\x60', '\\', ' ']

/-- Whether a character may not stand between angle brackets. -/
def isForbidden (char : Char) : Bool :=
  forbiddenInReference.contains char || Text.isControl char

/-- Check that a text is an identifier. -/
def checkIdentifier (name : Text) : Except Refusal Unit :=
  if Name.isIdentifier name then .ok () else .error (.malformedIdentifier name)

/-- Check that a text is an absolute reference, its scheme first. -/
def checkReference (config : RenderConfig) (reference : Text) : Except Refusal Unit :=
  if config.allows reference then
    match reference.find? isForbidden with
    | some char => .error (.forbiddenCharacter reference char)
    | none => .ok ()
  else .error (.unknownScheme reference config.allowedSchemes)

/-! ## References and names -/

/-- The keyword `a`, which stands for `rdf:type` in predicate position. -/
def keyword : Term := ⟨['a']⟩

/-- A text without the angle brackets around it, if it has both. -/
def withoutBrackets (text : Text) : Text :=
  match text with
  | '<' :: inner => (Text.withoutLast? '>' inner).getD text
  | _ => text

/-- An absolute reference, with or without its angle brackets. -/
def iri (config : RenderConfig) (reference : Text) : Except Refusal Term :=
  let inner := withoutBrackets reference
  match checkReference config inner with
  | .error reason => .error reason
  | .ok () => .ok ⟨'<' :: inner ++ ['>']⟩

/-- A variable's name without the mark that it may begin with. -/
def withoutVariableMark : Text → Text
  | '?' :: name => name
  | '$' :: name => name
  | name => name

/-- A variable by its name, with or without one of its two marks. -/
def var (name : Text) : Except Refusal Term :=
  let bare := withoutVariableMark name
  match checkIdentifier bare with
  | .error reason => .error reason
  | .ok () => .ok ⟨'?' :: bare⟩

/-- What a blank node begins with. -/
def blankMark : Text := ['_', ':']

/-- A blank node by its label, with or without its mark. -/
def blank (label : Text) : Except Refusal Term :=
  let bare := (Text.after? blankMark label).getD label
  if Name.isBlankLabel bare then .ok ⟨blankMark ++ bare⟩
  else .error (.malformedBlankLabel label)

/-- A name in a namespace, or in the default one where the namespace is empty. -/
def prefixed (space name : Text) : Except Refusal Term :=
  if space.isEmpty || Name.isIdentifier space then
    if Name.isLocal name then .ok ⟨space ++ ':' :: name⟩
    else .error (.malformedLocalName name)
  else .error (.malformedIdentifier space)

/-- A prefixed name as it is written, split at its first colon. -/
def curie (text : Text) : Except Refusal Term :=
  match text.dropWhile (· != ':') with
  | [] => .error (.missingColon text)
  | _ :: name => prefixed (text.takeWhile (· != ':')) name

/-- Whether a text begins with the mark of a variable. -/
def hasVariableMark (text : Text) : Bool :=
  text.head? == some '?' || text.head? == some '$'

/-- A trimmed text as any kind of reference. -/
def resolved (config : RenderConfig) (text : Text) : Except Refusal Term :=
  if text = keyword.text then .ok keyword
  else if text.head? == some '<' || config.allows text then iri config text
  else if hasVariableMark text then var text
  else if blankMark.isPrefixOf text then blank text
  else if text.contains ':' then curie text
  else .error (.notReference text)

/-- Any kind of reference: the keyword `a`, an absolute reference with or without
brackets, a variable, a blank node or a prefixed name. -/
def reference (config : RenderConfig) (text : Text) : Except Refusal Term :=
  resolved config (Text.trim text)

/-- The key of a property: any kind of reference, or an identifier, which is a
name in the default namespace. -/
def predicate (config : RenderConfig) (key : Text) : Except Refusal Term :=
  let key := Text.trim key
  if key = keyword.text || key.head? == some '<' || hasVariableMark key
      || key.contains ':' then
    reference config key
  else
    match checkIdentifier key with
    | .error reason => .error reason
    | .ok () => .ok ⟨':' :: key⟩

/-- Whether a term is a variable. -/
def isVariable (term : Term) : Bool := term.text.head? == some '?'

/-- Whether a term is a blank node. -/
def isBlankNode (term : Term) : Bool := blankMark.isPrefixOf term.text

/-! ## Literals -/

/-- A literal with a datatype, which is any reference to an IRI under the
standard configuration. -/
def typedLiteral (text datatype : Text) : Except Refusal Term :=
  match reference .standard datatype with
  | .error reason => .error reason
  | .ok term =>
      if term.isVariable || term.isBlankNode || term == keyword then
        .error (.datatypeNotIri datatype)
      else .ok ⟨Literal.long text ++ ['^', '^'] ++ term.text⟩

/-- A literal with a language tag. -/
def languageLiteral (text tag : Text) : Except Refusal Term :=
  if Name.isLanguageTag tag then .ok ⟨Literal.long text ++ '@' :: tag⟩
  else .error (.malformedLanguageTag tag)

/-- The datatype part of a literal. -/
def datatypeSuffix (datatype : Text) : Text := ['^', '^', '<'] ++ datatype ++ ['>']

/-- A literal of datatype `xsd:string`. -/
def string (text : Text) : Term :=
  ⟨Literal.long text ++ datatypeSuffix Vocabulary.xsdString⟩

/-- A literal whose lexical form needs no escapes. -/
def lexical (form datatype : Text) : Term :=
  ⟨'\x22' :: form ++ '\x22' :: datatypeSuffix datatype⟩

/-- A literal of datatype `xsd:integer`. -/
def integer (value : Int) : Term :=
  lexical (Decimal.integer value) Vocabulary.xsdInteger

/-- A literal of datatype `xsd:integer` from a double that is an integer within
the range of exact ones. -/
def exactInteger (value : Binary64) : Except Refusal Term :=
  if !value.isFinite then .error (.integerNotFinite value)
  else
    match value.exactInteger? with
    | none => .error (.integerNotExact value)
    | some integer => .ok (Term.integer integer)

/-- A truth value. -/
def boolean (value : Bool) : Term :=
  ⟨if value then "true".toList else "false".toList⟩

end Term

end SparqlText
