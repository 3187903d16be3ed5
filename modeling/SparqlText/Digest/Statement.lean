/-
# Digests of statements

A statement is named by a digest of its three terms, so that building it twice
gives it the same name. The terms are hashed with a line break between them, and
the first eight bytes of the hash are kept.
-/

import SparqlText.Digest.Sha256
import SparqlText.Text.Basic

namespace SparqlText.Digest

/-- The text that stands for a statement: its terms on a line each. -/
def statementText (source predicate target : Text) : Text :=
  source ++ '\n' :: predicate ++ '\n' :: target

/-- The bytes of a statement that are hashed. -/
def statementBytes (source predicate target : Text) : List UInt8 :=
  Text.utf8 (statementText source predicate target)

/-- The number of bytes of a hash that a digest keeps. -/
def keptBytes : Nat := 8

/-- A byte in two hexadecimal digits. -/
def twoHexDigits (byte : UInt8) : Text :=
  [Nat.digitChar (byte.toNat / 16), Nat.digitChar (byte.toNat % 16)]

/-- The digest of a statement in sixteen hexadecimal digits. -/
def statement (source predicate target : Text) : Text :=
  ((Sha256.hash (statementBytes source predicate target)).take keptBytes).flatMap twoHexDigits

end SparqlText.Digest
