/-
# Vocabulary

The references that this library writes or recognises.
-/

import SparqlText.Text.Basic

namespace SparqlText.Vocabulary

/-- The namespace of the XML Schema datatypes. -/
def xsdNamespace : Text := "http://www.w3.org/2001/XMLSchema#".toList

/-- The namespace of the RDF vocabulary. -/
def rdfNamespace : Text := "http://www.w3.org/1999/02/22-rdf-syntax-ns#".toList

/-- The reference of a name in the XML Schema namespace. -/
def xsd (name : String) : Text := xsdNamespace ++ name.toList

/-- The reference of a name in the RDF namespace. -/
def rdf (name : String) : Text := rdfNamespace ++ name.toList

/-! ## XML Schema datatypes -/

def xsdString : Text := xsd "string"

def xsdBoolean : Text := xsd "boolean"

def xsdInteger : Text := xsd "integer"

def xsdDecimal : Text := xsd "decimal"

def xsdFloat : Text := xsd "float"

def xsdDouble : Text := xsd "double"

def xsdDate : Text := xsd "date"

def xsdDateTime : Text := xsd "dateTime"

def xsdDateTimeStamp : Text := xsd "dateTimeStamp"

def xsdTime : Text := xsd "time"

def xsdAnyUri : Text := xsd "anyURI"

/-- The local names of the integer-valued datatypes. -/
def integerFamily : List Text :=
  ["integer", "int", "long", "short", "byte", "nonNegativeInteger",
    "positiveInteger", "nonPositiveInteger", "negativeInteger", "unsignedLong",
    "unsignedInt", "unsignedShort", "unsignedByte"].map String.toList

/-- The local name of a reference in the XML Schema namespace. -/
def xsdLocalName? (reference : Text) : Option Text :=
  Text.after? xsdNamespace reference

/-! ## RDF names -/

def rdfType : Text := rdf "type"

def rdfJson : Text := rdf "JSON"

def rdfStatement : Text := rdf "Statement"

def rdfSubject : Text := rdf "subject"

def rdfPredicate : Text := rdf "predicate"

def rdfObject : Text := rdf "object"

end SparqlText.Vocabulary
