/-
# Values as tokens

What a value is as tokens of a query is said by recursion on the value: a literal for
every scalar, the token of every term that it holds, the elements of an array one
after the other and in parentheses if one of them is an array or a record, and the
entries of a record in brackets with a mark between them.

A converted value spells these tokens and no others. The invariant is `Spells`: the
text of every part is read as the tokens of that part wherever layout or nothing
follows, and the conversion puts a space behind every part that another one follows.
-/

import Mathlib.Data.List.Forall2
import SparqlText.Proofs.Term.Issued
import SparqlText.Value.Conversion

namespace SparqlText

/-! ## Tokens of values -/

/-- The token of a double: an integer where the double is one in the range of exact
ones, and otherwise a decimal. -/
def Value.numberToken (number : Binary64) : Token :=
  match number.exactInteger? with
  | some whole => .typed (Decimal.integer whole) Vocabulary.xsdInteger
  | none => .typed number.plain Vocabulary.xsdDecimal

/-- The token of a record's key, given the tokens of terms. A name that resolves to no
predicate has none. -/
def Key.tokens (config : RenderConfig) (tokenOf : Term → Token) : Key → List Token
  | .name text =>
      match Term.predicate config text with
      | .ok predicate => [.word (.ofText predicate.text)]
      | .error _ => []
  | .term held => [tokenOf held]

/-- The term that a record's key holds. -/
def Key.terms : Key → List Term
  | .name _ => []
  | .term held => [held]

namespace Value

mutual

/-- The tokens of a value, given the tokens of terms. -/
def tokens (config : RenderConfig) (tokenOf : Term → Token) : Value → List Token
  | .null => [.typed [] Vocabulary.xsdString]
  | .string text => [.typed text Vocabulary.xsdString]
  | .integer value => [.typed (Decimal.integer value.toInt) Vocabulary.xsdInteger]
  | .number value => [numberToken value]
  | .boolean value => [.typed (Term.boolean value).text Vocabulary.xsdBoolean]
  | .timestamp value => [.typed value.millisecondText Vocabulary.xsdDateTime]
  | .array items =>
      if items.all isScalar then (itemTokens config tokenOf items).flatten
      else .mark '(' :: (itemTokens config tokenOf items).flatten ++ [.mark ')']
  | .record entries =>
      .mark '[' :: [.mark ';'].intercalate (entryTokens config tokenOf entries) ++ [.mark ']']
  | .term held => [tokenOf held]

/-- The tokens of each of an array's items. -/
def itemTokens (config : RenderConfig) (tokenOf : Term → Token) : List Value → List (List Token)
  | [] => []
  | item :: rest => tokens config tokenOf item :: itemTokens config tokenOf rest

/-- The tokens of each of a record's entries, those of the key first. -/
def entryTokens (config : RenderConfig) (tokenOf : Term → Token) :
    List (Key × Value) → List (List Token)
  | [] => []
  | (key, value) :: rest =>
      (key.tokens config tokenOf ++ tokens config tokenOf value) ::
        entryTokens config tokenOf rest

end

mutual

/-- The terms that a value holds, as elements at any depth or as keys. -/
def terms : Value → List Term
  | .array items => itemTerms items
  | .record entries => entryTerms entries
  | .term held => [held]
  | _ => []

/-- The terms that an array's items hold. -/
def itemTerms : List Value → List Term
  | [] => []
  | item :: rest => terms item ++ itemTerms rest

/-- The terms that a record's entries hold. -/
def entryTerms : List (Key × Value) → List Term
  | [] => []
  | (key, value) :: rest => key.terms ++ terms value ++ entryTerms rest

end

end Value

/-! ## Joined texts -/

theorem intercalate_nil {α : Type} (parts : List (List α)) :
    [].intercalate parts = parts.flatten := by
  induction parts with
  | nil => rfl
  | cons part parts ih =>
      cases parts with
      | nil => rfl
      | cons next parts => simpa [List.intercalate] using ih

namespace Lexer

theorem spells_nil : Spells [] [] := by
  intro rest _
  simp

/-- Texts that spell tokens spell them together, if a separator spells its own between
any two of them. -/
theorem Spells.join {separator : Text} {between : List Token}
    (apart : ∀ {first second : Text} {before after : List Token}, Spells first before →
      Spells second after → Spells (first ++ separator ++ second) (before ++ between ++ after))
    {texts : List Text} {tokens : List (List Token)} (each : List.Forall₂ Spells texts tokens) :
    Spells (Text.join separator texts) (between.intercalate tokens) := by
  induction each with
  | nil => exact spells_nil
  | @cons text own texts tokens first others ih =>
      cases others with
      | nil => simpa [List.intercalate] using first
      | cons second others =>
          rw [Text.join_cons_of_ne_nil _ _ (List.cons_ne_nil _ _)]
          have whole := apart first ih
          simpa [List.intercalate] using whole

end Lexer

/-! ## Converted values -/

namespace Value

open Lexer

variable {config : RenderConfig} {strict : Bool} {tokenOf : Term → Token}

theorem spells_numberTerm {number : Binary64} {term : Term}
    (converted : numberTerm number = .ok term) : Spells term.text [numberToken number] := by
  rw [numberTerm] at converted
  split at converted
  · cases converted
  cases exact : number.exactInteger? with
  | some whole =>
      rw [exact] at converted
      cases converted
      rw [numberToken, exact]
      exact Term.spells_integer whole
  | none =>
      rw [exact] at converted
      cases converted
      rw [numberToken, exact]
      have clean := Term.isReferenceChar_of_mem_xsd "decimal" rfl
      exact Term.spells_lexical (Literal.plain_double number) clean

theorem spells_timestampTerm {timestamp : Timestamp} {term : Term}
    (converted : timestampTerm timestamp = .ok term) :
    Spells term.text [.typed timestamp.millisecondText Vocabulary.xsdDateTime] := by
  rw [timestampTerm] at converted
  split at converted
  · cases converted
    have clean := Term.isReferenceChar_of_mem_xsd "dateTime" rfl
    exact Term.spells_lexical (Literal.plain_millisecondText timestamp) clean
  · cases converted

theorem spells_keyTerm {key : Key} {term : Term}
    (issued : ∀ held ∈ key.terms, Term.Issued held (tokenOf held))
    (resolved : keyTerm config key = .ok term) :
    Spells term.text (key.tokens config tokenOf) := by
  cases key with
  | name text =>
      rw [keyTerm] at resolved
      rw [Key.tokens, resolved]
      exact (Term.Issued.predicate resolved).spells
  | term held =>
      cases resolved
      exact (issued _ List.mem_cons_self).spells

theorem orRefused_eq_ok_iff {α : Type} {result : Except Refusal α} {value : α} :
    orRefused result = .ok value ↔ result = .ok value := by
  cases result <;> simp [orRefused]

/-- The items of an array are written one after the other. -/
theorem spells_arrayTerm {items : List Value} {texts : List Text}
    (each : List.Forall₂ Spells texts (itemTokens config tokenOf items)) :
    Spells (arrayTerm (items.all isScalar) texts).text
      (tokens config tokenOf (.array items)) := by
  have body : Spells (Text.join space texts) (itemTokens config tokenOf items).flatten := by
    rw [← intercalate_nil]
    apply Spells.join _ each
    intro first second before after left right
    simpa [space] using left.spaced right
  rw [tokens, arrayTerm]
  by_cases scalar : items.all isScalar = true
  · simpa [scalar] using body
  · have opened := (spells_mark '(' (by decide)).spaced body
    have closed := opened.spaced (spells_mark ')' (by decide))
    simpa [scalar] using closed

/-- The entries of a record are written with a mark between them. -/
theorem spells_recordTerm {entries : List (Key × Value)} {texts : List Text}
    (each : List.Forall₂ Spells texts (entryTokens config tokenOf entries)) :
    Spells (recordTerm texts).text (tokens config tokenOf (.record entries)) := by
  have body : Spells (Text.join entrySeparator texts)
      ([.mark ';'].intercalate (entryTokens config tokenOf entries)) := by
    apply Spells.join _ each
    intro first second before after left right
    have marked := left.spaced ((spells_mark ';' (by decide)).spaced right)
    simpa [entrySeparator] using marked
  have opened := (spells_mark '[' (by decide)).spaced body
  have closed := opened.spaced (spells_mark ']' (by decide))
  simpa [tokens, recordTerm] using closed

mutual

/-- A converted value spells its tokens. -/
theorem spells_toTerm : ∀ (value : Value) {built : Term},
    (∀ held ∈ value.terms, Term.Issued held (tokenOf held)) →
      value.toTerm config strict = .ok built → Spells built.text (value.tokens config tokenOf)
  | .null, _, _, converted => by
      rw [toTerm] at converted
      split at converted
      · cases converted
      · cases converted
        exact Term.spells_string []
  | .string text, _, _, converted => by
      cases converted
      exact Term.spells_string text
  | .integer value, _, _, converted => by
      cases converted
      exact Term.spells_integer _
  | .number value, _, _, converted => spells_numberTerm (orRefused_eq_ok_iff.mp converted)
  | .boolean value, _, _, converted => by
      cases converted
      exact Term.spells_boolean value
  | .timestamp value, _, _, converted =>
      spells_timestampTerm (orRefused_eq_ok_iff.mp converted)
  | .array [], _, _, converted => nomatch converted
  | .array (item :: rest), _, issued, converted => by
      rw [toTerm] at converted
      split at converted
      case h_1 => cases converted
      case h_2 texts each =>
        cases converted
        exact spells_arrayTerm (spells_itemTexts (item :: rest) issued each)
      case x_1 => exact nofun
  | .record [], _, _, converted => nomatch converted
  | .record (entry :: rest), _, issued, converted => by
      rw [toTerm] at converted
      split at converted
      case h_1 => cases converted
      case h_2 texts each =>
        cases converted
        exact spells_recordTerm (spells_entryTexts (entry :: rest) issued each)
      case x_1 => exact nofun
  | .term held, _, issued, converted => by
      cases converted
      exact (issued _ List.mem_cons_self).spells

theorem spells_itemTexts : ∀ (items : List Value) {texts : List Text},
    (∀ held ∈ itemTerms items, Term.Issued held (tokenOf held)) →
      itemTexts config strict items = .ok texts →
        List.Forall₂ Spells texts (itemTokens config tokenOf items)
  | [], _, _, converted => by
      cases converted
      exact .nil
  | item :: rest, _, issued, converted => by
      rw [itemTexts] at converted
      split at converted
      case h_1 => cases converted
      case h_2 first spelled =>
        split at converted
        case h_1 => cases converted
        case h_2 texts others =>
          cases converted
          have own := fun held member => issued held (List.mem_append_left _ member)
          have later := fun held member => issued held (List.mem_append_right _ member)
          exact .cons (spells_toTerm item own spelled) (spells_itemTexts rest later others)

theorem spells_entryTexts : ∀ (entries : List (Key × Value)) {texts : List Text},
    (∀ held ∈ entryTerms entries, Term.Issued held (tokenOf held)) →
      entryTexts config strict entries = .ok texts →
        List.Forall₂ Spells texts (entryTokens config tokenOf entries)
  | [], _, _, converted => by
      cases converted
      exact .nil
  | (key, value) :: rest, _, issued, converted => by
      rw [entryTexts] at converted
      split at converted
      case h_1 => cases converted
      case h_2 predicate resolved =>
        split at converted
        case h_1 => cases converted
        case h_2 object spelled =>
          split at converted
          case h_1 => cases converted
          case h_2 texts others =>
            cases converted
            have keyed := fun held member =>
              issued held (List.mem_append_left _ (List.mem_append_left _ member))
            have own := fun held member =>
              issued held (List.mem_append_left _ (List.mem_append_right _ member))
            have later := fun held member => issued held (List.mem_append_right _ member)
            have verb := spells_keyTerm keyed (orRefused_eq_ok_iff.mp resolved)
            exact .cons (verb.spaced (spells_toTerm value own spelled))
              (spells_entryTexts rest later others)

end

/-- If the terms that a value holds were issued, and the value is converted, then the
text that it is converted to has the tokens of the value: what its strings, keys and
references hold can neither add a token nor take one away or apart. -/
theorem tokens?_of_toTerm {value : Value} {built : Term}
    (issued : ∀ held ∈ value.terms, Term.Issued held (tokenOf held))
    (converted : value.toTerm config strict = .ok built) :
    tokens? built.text = some (value.tokens config tokenOf) :=
  (spells_toTerm value issued converted).tokens?_eq

/-- A record whose string ends as a literal does and goes on as a record would, and
whose other entry has a term for its key and a list for its value. -/
def hostile : Value :=
  .record
    [(.name ['k'], .string ['\x22', '\x22', '\x22', ' ', ';', '\n', '\\', ']']),
      (.term ⟨['?', 'p']⟩,
        .array [.boolean true, .record [(.name ['a'], .term ⟨['_', ':', 'b']⟩)]])]

theorem tokens?_of_toTerm_hostile :
    ∃ built, hostile.toTerm .standard false = .ok built ∧
      tokens? built.text = some
        [.mark '[', .word (.name [':', 'k']),
          .typed ['\x22', '\x22', '\x22', ' ', ';', '\n', '\\', ']'] Vocabulary.xsdString,
          .mark ';', .word (.name ['?', 'p']), .mark '(',
          .typed ['t', 'r', 'u', 'e'] Vocabulary.xsdBoolean,
          .mark '[', .word (.name ['a']), .word (.name ['_', ':', 'b']), .mark ']',
          .mark ')', .mark ']'] := by
  have converted : ∃ built, hostile.toTerm .standard false = .ok built := ⟨_, rfl⟩
  have issued : ∀ held ∈ hostile.terms, Term.Issued held (.word (.ofText held.text)) := by
    intro held member
    have either : held = ⟨['?', 'p']⟩ ∨ held = ⟨['_', ':', 'b']⟩ := by
      simpa [hostile, terms, entryTerms, itemTerms, Key.terms] using member
    rcases either with rfl | rfl
    · have accepted : Term.var ['p'] = .ok ⟨['?', 'p']⟩ := by decide
      exact Term.Issued.var accepted
    · have accepted : Term.blank ['b'] = .ok ⟨['_', ':', 'b']⟩ := by decide
      exact Term.Issued.blank accepted
  obtain ⟨built, converted⟩ := converted
  exact ⟨built, converted, tokens?_of_toTerm issued converted⟩

end Value

end SparqlText
