/-
# Refusals and errors

Why text cannot be built. A refusal names one value and the rule that it breaks.
The other errors are an empty collection, a null where nulls are refused, a
description or pattern that does not parse, and a node of another graph. Each
cause is a constructor, and its wording is a function of the cause.
-/

import SparqlText.Binary64.Plain
import SparqlText.Text.Shown
import SparqlText.Timestamp.Basic

namespace SparqlText

/-- A node of a graph, by the number that the graph issued it under. Numbers have 32 bits, so
a graph is taken to have fewer than 2^32 nodes: beyond these they would be issued again. -/
abbrev NodeId := Nat

/-- A node as messages name it. -/
def NodeId.shown (id : NodeId) : Text :=
  "NodeId(".toList ++ Decimal.digits id ++ [')']

/-- A value that breaks a rule. -/
inductive Refusal
  /-- An absolute reference that begins with none of the allowed schemes. -/
  | unknownScheme (reference : Text) (schemes : List Text)
  /-- An absolute reference with a character that may not stand between angle
  brackets. -/
  | forbiddenCharacter (reference : Text) (char : Char)
  | malformedIdentifier (name : Text)
  | malformedBlankLabel (label : Text)
  | malformedLocalName (name : Text)
  | malformedLanguageTag (tag : Text)
  /-- A prefixed name without a colon. -/
  | missingColon (text : Text)
  /-- Text that is no kind of reference. -/
  | notReference (text : Text)
  /-- A datatype that is a variable, a blank node or the keyword `a`. -/
  | datatypeNotIri (text : Text)
  /-- A node's type that is a blank node or the keyword `a`. -/
  | typeNotIri (text : Text)
  | integerNotFinite (value : Binary64)
  | integerNotExact (value : Binary64)
  | decimalNotFinite (value : Binary64)
  | yearOutOfRange (value : Timestamp)
  /-- A template whose numbers of text fragments and values do not match. -/
  | fragmentCount (fragments values : Nat)
  /-- A link to a node of another graph. -/
  | foreignTarget (id : NodeId)
  /-- A pattern's text with the character that marks its nodes. -/
  | markInPattern (text : Text)
  deriving DecidableEq, Repr

namespace Refusal

/-- The value that breaks the rule. -/
def value : Refusal → Text
  | .unknownScheme reference _ => reference
  | .forbiddenCharacter reference _ => reference
  | .malformedIdentifier name => name
  | .malformedBlankLabel label => label
  | .malformedLocalName name => name
  | .malformedLanguageTag tag => tag
  | .missingColon text => text
  | .notReference text => text
  | .datatypeNotIri text => text
  | .typeNotIri text => text
  | .integerNotFinite value => value.plain
  | .integerNotExact value => value.plain
  | .decimalNotFinite value => value.plain
  | .yearOutOfRange value => value.fullText
  | .fragmentCount fragments values =>
      Decimal.digits fragments ++ " strings / ".toList ++ Decimal.digits values
        ++ " values".toList
  | .foreignTarget id => id.shown
  | .markInPattern text => Text.ascii text

/-- The rule that the value breaks. -/
def rule : Refusal → Text
  | .unknownScheme _ schemes =>
      "absolute reference must start with one of: ".toList
        ++ Text.join ", ".toList schemes
  | .forbiddenCharacter _ char =>
      "absolute reference must not contain ".toList ++ Text.shownCharacter char
  | .malformedIdentifier _ => "identifier must match [A-Za-z_][A-Za-z0-9_]*".toList
  | .malformedBlankLabel _ =>
      "blank node label must match [A-Za-z0-9_][A-Za-z0-9_-]*".toList
  | .malformedLocalName _ =>
      "local name must be alphanumerics, '_', '-' or inner '.'".toList
  | .malformedLanguageTag _ =>
      "language tag must match [A-Za-z]+(-[A-Za-z0-9]+)*".toList
  | .missingColon _ => "prefixed name needs a ':' separator".toList
  | .notReference _ =>
      "expected <iri>, prefix:local, ?variable, _:blank or 'a'".toList
  | .datatypeNotIri _ => "datatype must be an IRI".toList
  | .typeNotIri _ => "type must be an IRI or variable".toList
  | .integerNotFinite _ => "integer must be finite".toList
  | .integerNotExact _ => "expected an exactly representable integer".toList
  | .decimalNotFinite _ =>
      "decimal must be finite (NaN and Infinity have no literal form)".toList
  | .yearOutOfRange _ => "timestamp year must be within 0000-9999".toList
  | .fragmentCount _ _ =>
      "template needs exactly one more text fragment than values".toList
  | .foreignTarget _ => "linked node is not in this graph".toList
  | .markInPattern _ => "arrow pattern text cannot contain NUL".toList

/-- The value and the rule in one sentence. -/
def message (refusal : Refusal) : Text :=
  "invalid value \x60".toList ++ refusal.value ++ "\x60: ".toList ++ refusal.rule

end Refusal

/-- A collection that can hold values. -/
inductive Collection
  | array
  | record
  deriving DecidableEq, Repr

/-- Why a description or a pattern does not parse. -/
inductive Fault
  /-- A description that is not a subject with an optional list of types. -/
  | notDescription
  /-- A description whose subject is the keyword `a`. -/
  | subjectIsKeyword
  /-- A part that was refused for a reason of its own. -/
  | refused (reason : Refusal)
  | malformedMark
  | arrowWithoutNode
  | unexpectedText
  | missingBracket
  | openPredicate
  | missingTail
  | twoHeads
  | missingTarget
  | incompleteArrow
  | blankPredicate
  deriving DecidableEq, Repr

/-- What is wrong, in words. -/
def Fault.message : Fault → Text
  | .notDescription => "expected \x60subject [a type, ...]\x60".toList
  | .subjectIsKeyword => "subject cannot be \x60a\x60".toList
  | .refused reason => reason.message
  | .malformedMark => "malformed node placeholder".toList
  | .arrowWithoutNode => "arrow must start at a node".toList
  | .unexpectedText => "expected a node or an arrow".toList
  | .missingBracket => "expected \x60[\x60 after arrow head".toList
  | .openPredicate => "unterminated predicate".toList
  | .missingTail => "missing arrow tail \x60-\x60".toList
  | .twoHeads => "arrow cannot point both ways".toList
  | .missingTarget => "arrow must end at a node".toList
  | .incompleteArrow => "incomplete arrow".toList
  | .blankPredicate => "predicate cannot be a blank node".toList

/-- Why a text could not be built or read. -/
inductive Error
  | refused (reason : Refusal)
  /-- A collection without elements, which no term stands for. -/
  | emptyCollection (kind : Collection)
  /-- A null where nulls are refused. -/
  | nullValue
  /-- Input that does not parse, and the byte offset of what is wrong. -/
  | unparsed (input : Text) (offset : Nat) (fault : Fault)
  /-- A node that an operation was asked to change, of another graph. -/
  | foreignNode (id : NodeId)
  deriving DecidableEq, Repr

namespace Error

/-- What is wrong, in words. -/
def message : Error → Text
  | .refused reason => reason.message
  | .emptyCollection kind =>
      let name := match kind with
        | .array => "array".toList
        | .record => "record".toList
      "ambiguous input: empty ".toList ++ name ++ " has no canonical term form".toList
  | .nullValue =>
      ("null value in strict mode; wrap the pattern in OPTIONAL ".toList
        ++ "instead of binding null".toList)
  | .unparsed input offset fault =>
      "parse error at offset ".toList ++ Decimal.digits offset ++ " in \x60".toList
        ++ input ++ "\x60: ".toList ++ fault.message
  | .foreignNode id => "node ".toList ++ id.shown ++ " is not in this graph".toList

end Error

/-- A result of a step that can only refuse, as a result of one that can also
fail in other ways. -/
def orRefused {Result : Type} : Except Refusal Result → Except Error Result
  | .ok result => .ok result
  | .error reason => .error (.refused reason)

@[simp]
theorem orRefused_ok {Result : Type} (result : Result) :
    orRefused (.ok result) = .ok result := rfl

@[simp]
theorem orRefused_error {Result : Type} (reason : Refusal) :
    (orRefused (.error reason) : Except Error Result) = .error (.refused reason) := rfl

end SparqlText
