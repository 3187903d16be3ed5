/-
# Terms on one line

No control code is in a term that one of the checking constructors has built, and none is in
the term of a value, however deep its arrays and records are nested, unless one is in a term
that the value holds. So whatever is built from checked parts stands on one line.
-/

import SparqlText.Proofs.Term.Shape
import SparqlText.Proofs.Value.Tokens

namespace SparqlText

open Grammar (Clean clean_append_iff clean_of_all)

/-! ## Literals and lists of texts -/

theorem Literal.Plain.clean {text : Text} (plain : Literal.Plain text) : Clean text :=
  fun char member => (plain char member).1

theorem Literal.clean_long (text : Text) : Clean (Literal.long text) := by
  have quotes : Clean Literal.longDelimiter := clean_of_all rfl
  have body := Grammar.printable_body _ (Grammar.escape_mem_body text)
  exact clean_append_iff.mpr ⟨clean_append_iff.mpr ⟨quotes, body⟩, quotes⟩

theorem Text.clean_join {separator : Text} (between : Clean separator) {texts : List Text}
    (each : ∀ text ∈ texts, Clean text) : Clean (Text.join separator texts) := by
  induction texts with
  | nil => exact nofun
  | cons text rest ih =>
      obtain ⟨first, others⟩ := List.forall_mem_cons.mp each
      cases rest with
      | nil => exact first
      | cons next rest =>
          rw [Text.join_cons_of_ne_nil _ _ (List.cons_ne_nil _ _)]
          exact clean_append_iff.mpr ⟨clean_append_iff.mpr ⟨first, between⟩, ih others⟩

namespace Term

theorem clean_datatypeSuffix {datatype : Text} (inside : Clean datatype) :
    Clean (datatypeSuffix datatype) := by
  have opened : Clean ['^', '^', '<'] := clean_of_all rfl
  have closed : Clean ['>'] := clean_of_all rfl
  exact clean_append_iff.mpr ⟨clean_append_iff.mpr ⟨opened, inside⟩, closed⟩

theorem clean_string (text : Text) : Clean (Term.string text).text := by
  have datatype : Clean Vocabulary.xsdString := clean_of_all rfl
  exact clean_append_iff.mpr ⟨Literal.clean_long text, clean_datatypeSuffix datatype⟩

theorem clean_lexical {form datatype : Text} (plain : Literal.Plain form)
    (inside : Clean datatype) : Clean (Term.lexical form datatype).text := by
  have quote : Clean ['\x22'] := clean_of_all rfl
  have behind := clean_append_iff.mpr ⟨quote, clean_datatypeSuffix inside⟩
  exact clean_append_iff.mpr ⟨clean_append_iff.mpr ⟨quote, plain.clean⟩, behind⟩

theorem clean_integer (value : Int) : Clean (Term.integer value).text := by
  have datatype : Clean Vocabulary.xsdInteger := clean_of_all rfl
  exact clean_lexical (Literal.plain_integer value) datatype

theorem clean_boolean (value : Bool) : Clean (Term.boolean value).text := by
  cases value <;> exact clean_of_all rfl

theorem clean_of_build (config : RenderConfig) (call : Construction) {term : Term}
    (built : call.build config = .ok term) : Clean term.text :=
  (shape_of_build built).clean

/-- No term that a checking constructor has built holds a control code. -/
theorem Issued.clean {term : Term} {token : Token} (issued : Issued term token) :
    Clean term.text := by
  cases issued with
  | iri accepted => exact clean_of_build _ (.iri _) accepted
  | var accepted => exact clean_of_build .standard (.var _) accepted
  | blank accepted => exact clean_of_build .standard (.blank _) accepted
  | prefixed accepted => exact clean_of_build .standard (.prefixed _ _) accepted
  | curie accepted => exact clean_of_build .standard (.curie _) accepted
  | reference accepted => exact clean_of_build _ (.reference _) accepted
  | predicate accepted => exact clean_of_build _ (.predicate _) accepted
  | typedLiteral _ accepted => exact clean_of_build .standard (.typedLiteral _ _) accepted
  | languageLiteral accepted => exact clean_of_build .standard (.languageLiteral _ _) accepted
  | string text => exact clean_string text
  | integer same accepted =>
      rw [exactInteger_eq_ok same accepted]
      exact clean_integer _
  | boolean value => exact clean_boolean value

end Term

/-! ## Converted values -/

namespace Value

variable {config : RenderConfig} {strict : Bool}

theorem clean_numberTerm {number : Binary64} {term : Term}
    (converted : numberTerm number = .ok term) : Clean term.text := by
  rw [numberTerm] at converted
  split at converted
  · cases converted
  split at converted
  · cases converted
    exact Term.clean_integer _
  · cases converted
    have datatype : Clean Vocabulary.xsdDecimal := clean_of_all rfl
    exact Term.clean_lexical (Literal.plain_double number) datatype

theorem clean_timestampTerm {timestamp : Timestamp} {term : Term}
    (converted : timestampTerm timestamp = .ok term) : Clean term.text := by
  rw [timestampTerm] at converted
  split at converted
  · cases converted
    have datatype : Clean Vocabulary.xsdDateTime := clean_of_all rfl
    exact Term.clean_lexical (Literal.plain_millisecondText timestamp) datatype
  · cases converted

theorem clean_keyTerm {key : Key} {term : Term} (held : ∀ held ∈ key.terms, Clean held.text)
    (resolved : keyTerm config key = .ok term) : Clean term.text := by
  cases key with
  | name text => exact Term.clean_of_build config (.predicate text) resolved
  | term own =>
      cases resolved
      exact held _ List.mem_cons_self

theorem clean_arrayTerm (scalar : Bool) {texts : List Text}
    (each : ∀ text ∈ texts, Clean text) : Clean (arrayTerm scalar texts).text := by
  have between : Clean space := clean_of_all rfl
  have body : Clean (Text.join space texts) := Text.clean_join between each
  have opened : Clean ['(', ' '] := clean_of_all rfl
  have closed : Clean [' ', ')'] := clean_of_all rfl
  cases scalar with
  | true => exact body
  | false => exact clean_append_iff.mpr ⟨clean_append_iff.mpr ⟨opened, body⟩, closed⟩

theorem clean_recordTerm {texts : List Text} (each : ∀ text ∈ texts, Clean text) :
    Clean (recordTerm texts).text := by
  have between : Clean entrySeparator := clean_of_all rfl
  have body : Clean (Text.join entrySeparator texts) := Text.clean_join between each
  have opened : Clean ['[', ' '] := clean_of_all rfl
  have closed : Clean [' ', ']'] := clean_of_all rfl
  exact clean_append_iff.mpr ⟨clean_append_iff.mpr ⟨opened, body⟩, closed⟩

mutual

/-- A converted value holds no control code that is not in a term that the value holds. -/
theorem clean_toTerm : ∀ (value : Value) {built : Term}, (∀ held ∈ value.terms, Clean held.text) →
    value.toTerm config strict = .ok built → Clean built.text
  | .null, _, _, converted => by
      rw [toTerm] at converted
      split at converted
      · cases converted
      · cases converted
        exact Term.clean_string []
  | .string text, _, _, converted => by
      cases converted
      exact Term.clean_string text
  | .integer value, _, _, converted => by
      cases converted
      exact Term.clean_integer _
  | .number value, _, _, converted => clean_numberTerm (orRefused_eq_ok_iff.mp converted)
  | .boolean value, _, _, converted => by
      cases converted
      exact Term.clean_boolean value
  | .timestamp value, _, _, converted => clean_timestampTerm (orRefused_eq_ok_iff.mp converted)
  | .array [], _, _, converted => nomatch converted
  | .array (item :: rest), _, held, converted => by
      rw [toTerm] at converted
      split at converted
      case h_1 => cases converted
      case h_2 texts each =>
        cases converted
        exact clean_arrayTerm _ (clean_itemTexts (item :: rest) held each)
      case x_1 => exact nofun
  | .record [], _, _, converted => nomatch converted
  | .record (entry :: rest), _, held, converted => by
      rw [toTerm] at converted
      split at converted
      case h_1 => cases converted
      case h_2 texts each =>
        cases converted
        exact clean_recordTerm (clean_entryTexts (entry :: rest) held each)
      case x_1 => exact nofun
  | .term own, _, held, converted => by
      cases converted
      exact held _ List.mem_cons_self

theorem clean_itemTexts : ∀ (items : List Value) {texts : List Text},
    (∀ held ∈ itemTerms items, Clean held.text) →
      itemTexts config strict items = .ok texts → ∀ text ∈ texts, Clean text
  | [], _, _, converted => by
      cases converted
      exact nofun
  | item :: rest, _, held, converted => by
      rw [itemTexts] at converted
      split at converted
      case h_1 => cases converted
      case h_2 first spelled =>
        split at converted
        case h_1 => cases converted
        case h_2 texts others =>
          cases converted
          obtain ⟨own, later⟩ := List.forall_mem_append.mp held
          exact List.forall_mem_cons.mpr
            ⟨clean_toTerm item own spelled, clean_itemTexts rest later others⟩

theorem clean_entryTexts : ∀ (entries : List (Key × Value)) {texts : List Text},
    (∀ held ∈ entryTerms entries, Clean held.text) →
      entryTexts config strict entries = .ok texts → ∀ text ∈ texts, Clean text
  | [], _, _, converted => by
      cases converted
      exact nofun
  | (key, value) :: rest, _, held, converted => by
      rw [entryTexts] at converted
      split at converted
      case h_1 => cases converted
      case h_2 predicate resolved =>
        split at converted
        case h_1 => cases converted
        case h_2 object spelled =>
          split at converted
          case h_1 => cases converted
          case h_2 texts others =>
            cases converted
            obtain ⟨first, later⟩ := List.forall_mem_append.mp held
            obtain ⟨keyed, own⟩ := List.forall_mem_append.mp first
            have verb := clean_keyTerm keyed (orRefused_eq_ok_iff.mp resolved)
            have space : Clean [' '] := clean_of_all rfl
            have behind := clean_append_iff.mpr ⟨space, clean_toTerm value own spelled⟩
            exact List.forall_mem_cons.mpr
              ⟨clean_append_iff.mpr ⟨verb, behind⟩, clean_entryTexts rest later others⟩

end

end Value

/-! ## Terms that are built from checked parts -/

namespace Term

/-- A term that one of the checking constructors has built, or that is the term of a value whose
own terms, among its elements at any depth and its keys, are such terms. -/
inductive Produced : Term → Prop
  | issued {term : Term} {token : Token} (issued : Issued term token) : Produced term
  | converted {config : RenderConfig} {strict : Bool} {value : Value} {term : Term}
      (parts : ∀ held ∈ value.terms, Produced held)
      (converted : value.toTerm config strict = .ok term) : Produced term

theorem Produced.clean {term : Term} (produced : Produced term) : Clean term.text := by
  induction produced with
  | issued issued => exact issued.clean
  | converted _ converted ih => exact Value.clean_toTerm _ ih converted

/-- A term that is built from checked parts holds no line break. -/
theorem Produced.not_mem_lineBreak {term : Term} (produced : Produced term) :
    '\n' ∉ term.text :=
  fun member => absurd (produced.clean '\n' member) (by decide)

end Term

end SparqlText
