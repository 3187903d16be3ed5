/-
# Names

The character classes of the names that terms are made of. All of them are
ASCII: a letter or digit outside ASCII is never part of a name.
-/

import SparqlText.Text.Basic

namespace SparqlText.Name

/-- An ASCII letter or digit, or an underscore. -/
def isWord (char : Char) : Bool :=
  char.isAlphanum || char == '_'

/-- A letter or underscore, then word characters: the name of a variable, of a
namespace, or of a property in the default namespace. -/
def isIdentifier : Text → Bool
  | [] => false
  | first :: rest => (first.isAlpha || first == '_') && rest.all isWord

/-- A character that may stand inside a local name. -/
def isLocalChar (char : Char) : Bool :=
  isWord char || char == '-' || char == '.'

/-- A word character, then word characters, hyphens and full stops, the last
character not being a full stop. -/
def isLocal : Text → Bool
  | [] => false
  | first :: rest =>
      isWord first && rest.all isLocalChar && (first :: rest).getLast? != some '.'

/-- A word character, then word characters and hyphens. -/
def isBlankLabel : Text → Bool
  | [] => false
  | first :: rest =>
      isWord first && rest.all fun char => isWord char || char == '-'

/-- What may follow the first letters of a language tag: `expecting` says that a
subtag has just begun and still needs a character. -/
def isSubtags : (expecting : Bool) → Text → Bool
  | expecting, [] => !expecting
  | expecting, char :: rest =>
      if char = '-' then !expecting && isSubtags true rest
      else char.isAlphanum && isSubtags false rest

/-- Letters, then any number of subtags of letters and digits, a hyphen before
each. -/
def isLanguageTag (text : Text) : Bool :=
  !(text.takeWhile Char.isAlpha).isEmpty
    && match text.dropWhile Char.isAlpha with
      | [] => true
      | char :: rest => char == '-' && isSubtags true rest

end SparqlText.Name
