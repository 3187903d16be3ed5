/-
# Relationships

A statement with properties about the statement itself. Without properties it is
one triple. With properties the statement is also described by a blank node that
is named after its digest, and the properties are properties of that node.

A statement is a value. A further property is attached to a copy, which is lost
where a part of the property cannot be attached.
-/

import SparqlText.Action
import SparqlText.Digest.Statement
import SparqlText.Pattern

namespace SparqlText

/-- A property of a statement. -/
structure Property where
  predicate : Term
  object : Term
  deriving DecidableEq, Repr

/-- A property as a pair of a block. -/
def Property.pair (property : Property) : Pair :=
  ⟨property.predicate.text, property.object.text⟩

/-- A statement, its properties, and the configuration that it was built under. -/
structure Relationship where
  config : RenderConfig
  source : Term
  predicate : Term
  target : Term
  properties : List Property := []
  deriving DecidableEq, Repr

namespace Relationship

/-- A statement whose predicate is given as text. -/
def between (config : RenderConfig) (source : Term) (predicate : Text) (target : Term) :
    Except Refusal Relationship :=
  match Term.reference config predicate with
  | .error reason => .error reason
  | .ok predicate => .ok { config, source, predicate, target }

/-- Put a property behind those of a statement. -/
def push (property : Property) : Action Relationship Unit :=
  modify fun relationship =>
    { relationship with properties := relationship.properties ++ [property] }

/-- Attach values under a predicate, each of them before the next one is converted. Where
one of them cannot be converted, those before it have been attached. -/
def attach (config : RenderConfig) (predicate : Term) : List Value → Action Relationship Unit
  | [] => pure ()
  | value :: rest => do
      let object ← Action.ofExcept (value.toConfiguredTerm config)
      push ⟨predicate, object⟩
      attach config predicate rest

/-- Attach a further property, resolved and converted under `config`; an array stands for
a property per element. -/
def attachProperty (config : RenderConfig) (predicate : Text) (value : Value) :
    Action Relationship Unit := do
  let predicate ← Action.ofExcept (orRefused (Term.predicate config predicate))
  attach config predicate value.elements

/-- The statement with a further property, resolved and converted under `config`. -/
def withPropertyUnder (config : RenderConfig) (relationship : Relationship)
    (predicate : Text) (value : Value) : Except Error Relationship :=
  ((attachProperty config predicate value).outcome relationship).map Prod.fst

/-- The statement with a further property under its own configuration. -/
def withProperty (relationship : Relationship) (predicate : Text) (value : Value) :
    Except Error Relationship :=
  relationship.withPropertyUnder relationship.config predicate value

def hasProperties (relationship : Relationship) : Bool := !relationship.properties.isEmpty

/-- The blank node that names the statement under a configuration. -/
def reificationId (config : RenderConfig) (relationship : Relationship) : Term :=
  ⟨Term.blankMark ++ config.reificationLead
    ++ Digest.statement relationship.source.text relationship.predicate.text
      relationship.target.text⟩

/-- A reference between angle brackets. -/
def bracketed (reference : Text) : Text := '<' :: reference ++ ['>']

/-- The pairs that say which statement a blank node names. -/
def statementPairs (relationship : Relationship) : List Pair :=
  [⟨Term.keyword.text, bracketed Vocabulary.rdfStatement⟩,
    ⟨bracketed Vocabulary.rdfSubject, relationship.source.text⟩,
    ⟨bracketed Vocabulary.rdfPredicate, relationship.predicate.text⟩,
    ⟨bracketed Vocabulary.rdfObject, relationship.target.text⟩]

/-- The statement as one triple. -/
def base (relationship : Relationship) : Text :=
  Pattern.triple relationship.source.text relationship.predicate.text
    relationship.target.text

/-- The pairs of the blank node that names the statement. -/
def pairs (relationship : Relationship) : List Pair :=
  relationship.statementPairs ++ relationship.properties.map Property.pair

/-- The statement under a configuration, with the description of its blank node if
it has properties. Without properties it can always be written. -/
def render? (config : RenderConfig) (relationship : Relationship) : Option Text :=
  if relationship.hasProperties then
    (Pattern.block? config (relationship.reificationId config).text relationship.pairs).map
      fun block => relationship.base ++ '\n' :: block
  else some relationship.base

end Relationship

end SparqlText
