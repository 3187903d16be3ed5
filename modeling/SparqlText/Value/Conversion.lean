/-
# Conversion of values to terms

A scalar becomes one literal, or the term that it is. An array of scalars becomes
their terms one after the other, any other array a list in parentheses, and a
record a blank node with properties in brackets. An empty array and an empty
record stand for no term. Elements are converted from left to right, an entry's
key before its value, and the first failure is the failure of the whole.
-/

import SparqlText.Value.Basic

namespace SparqlText.Value

/-- A double as a literal: an integer where it is one in the range of exact ones,
and otherwise a decimal in positional notation. -/
def numberTerm (number : Binary64) : Except Refusal Term :=
  if !number.isFinite then .error (.decimalNotFinite number)
  else
    match number.exactInteger? with
    | some whole => .ok (Term.integer whole)
    | none => .ok (Term.lexical number.plain Vocabulary.xsdDecimal)

/-- An instant as a literal, to the millisecond. The year must have four digits. -/
def timestampTerm (timestamp : Timestamp) : Except Refusal Term :=
  if timestamp.isWritable then
    .ok (Term.lexical timestamp.millisecondText Vocabulary.xsdDateTime)
  else .error (.yearOutOfRange timestamp)

/-- The predicate that a record's key names. -/
def keyTerm (config : RenderConfig) : Key → Except Refusal Term
  | .name text => Term.predicate config text
  | .term held => .ok held

/-- Between the elements of an array. -/
def space : Text := [' ']

/-- Between the entries of a record. -/
def entrySeparator : Text := [' ', ';', ' ']

/-- The terms of an array's items as one term. -/
def arrayTerm (scalar : Bool) (terms : List Text) : Term :=
  let body := Text.join space terms
  ⟨if scalar then body else ['(', ' '] ++ body ++ [' ', ')']⟩

/-- The pairs of a record's entries as one term. -/
def recordTerm (pairs : List Text) : Term :=
  ⟨['[', ' '] ++ Text.join entrySeparator pairs ++ [' ', ']']⟩

mutual

/-- The term of a value. Nulls are refused where `strict` holds and are the empty
string otherwise. -/
def toTerm (config : RenderConfig) (strict : Bool) : Value → Except Error Term
  | .null => if strict then .error .nullValue else .ok (Term.string [])
  | .string text => .ok (Term.string text)
  | .boolean value => .ok (Term.boolean value)
  | .integer value => .ok (Term.integer value.toInt)
  | .number value => orRefused (numberTerm value)
  | .timestamp value => orRefused (timestampTerm value)
  | .array [] => .error (.emptyCollection .array)
  | .array items =>
      match itemTexts config strict items with
      | .error reason => .error reason
      | .ok terms => .ok (arrayTerm (items.all isScalar) terms)
  | .record [] => .error (.emptyCollection .record)
  | .record entries =>
      match entryTexts config strict entries with
      | .error reason => .error reason
      | .ok pairs => .ok (recordTerm pairs)
  | .term held => .ok held

/-- The texts of an array's items. -/
def itemTexts (config : RenderConfig) (strict : Bool) :
    List Value → Except Error (List Text)
  | [] => .ok []
  | item :: rest =>
      match toTerm config strict item with
      | .error reason => .error reason
      | .ok first =>
          match itemTexts config strict rest with
          | .error reason => .error reason
          | .ok terms => .ok (first.text :: terms)

/-- The texts of a record's entries, each a predicate and an object. -/
def entryTexts (config : RenderConfig) (strict : Bool) :
    List (Key × Value) → Except Error (List Text)
  | [] => .ok []
  | (key, value) :: rest =>
      match orRefused (keyTerm config key) with
      | .error reason => .error reason
      | .ok predicate =>
          match toTerm config strict value with
          | .error reason => .error reason
          | .ok object =>
              match entryTexts config strict rest with
              | .error reason => .error reason
              | .ok pairs => .ok ((predicate.text ++ ' ' :: object.text) :: pairs)

end

/-- The term of a value under the configuration's own treatment of nulls. -/
def toConfiguredTerm (config : RenderConfig) (value : Value) : Except Error Term :=
  value.toTerm config config.strictNulls

end SparqlText.Value
