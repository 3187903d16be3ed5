/-
# The shapes of terms

Whatever the constructors that check their arguments are given, a term that they build has
one of seven shapes, said in the grammar of terms alone: the keyword `a`, a reference in
angle brackets, a variable, a blank node, a prefixed name, or a literal with a datatype or
with a language tag. It is one token, and no control code is in it, so nothing that a
caller passes in can begin a second token or a new line.
-/

import SparqlText.Proofs.Term.Grammar
import SparqlText.Proofs.Term.Issued

namespace SparqlText

/-! ## Constructors -/

/-- A call of one of the constructors that check their arguments. -/
inductive Construction
  | iri (text : Text)
  | var (name : Text)
  | blank (label : Text)
  | prefixed (space name : Text)
  | curie (text : Text)
  | reference (text : Text)
  | predicate (key : Text)
  | typedLiteral (text datatype : Text)
  | languageLiteral (text tag : Text)
  deriving DecidableEq, Repr

namespace Construction

/-- What a call builds under a configuration. -/
def build (config : RenderConfig) : Construction → Except Refusal Term
  | .iri text => Term.iri config text
  | .var name => Term.var name
  | .blank label => Term.blank label
  | .prefixed space name => Term.prefixed space name
  | .curie text => Term.curie text
  | .reference text => Term.reference config text
  | .predicate key => Term.predicate config key
  | .typedLiteral text datatype => Term.typedLiteral text datatype
  | .languageLiteral text tag => Term.languageLiteral text tag

/-- Whether a call decides by its text which kind of term to build. -/
def resolves : Construction → Bool
  | .reference _ => true
  | .predicate _ => true
  | _ => false

end Construction

namespace Term

open Grammar (Clean clean_append_iff clean_of_all)

/-! ## Shapes -/

/-- The shapes of datatypes: references in angle brackets and prefixed names that are no
blank nodes. -/
inductive DatatypeShape : Text → Prop
  | iri {inner : Text} (member : inner ∈ Grammar.reference .standard) :
      DatatypeShape ('<' :: inner ++ ['>'])
  | prefixed {space name : Text} (spaced : space = [] ∨ space ∈ Grammar.identifier)
      (named : name ∈ Grammar.localName) (apart : ¬['_', ':'] <+: space ++ ':' :: name) :
      DatatypeShape (space ++ ':' :: name)

/-- The shapes of terms under a configuration. The keyword is one only where the kind of
term was decided by its text. -/
inductive Shape (config : RenderConfig) : (resolves : Bool) → Text → Prop
  | keyword : Shape config true ['a']
  | iri {resolves : Bool} {inner : Text} (member : inner ∈ Grammar.reference config) :
      Shape config resolves ('<' :: inner ++ ['>'])
  | var {resolves : Bool} {name : Text} (named : name ∈ Grammar.identifier) :
      Shape config resolves ('?' :: name)
  | blank {resolves : Bool} {label : Text} (labelled : label ∈ Grammar.blankLabel) :
      Shape config resolves (['_', ':'] ++ label)
  | prefixed {resolves : Bool} {space name : Text}
      (spaced : space = [] ∨ space ∈ Grammar.identifier) (named : name ∈ Grammar.localName) :
      Shape config resolves (space ++ ':' :: name)
  | typed {resolves : Bool} {body datatype : Text} (inside : body ∈ Grammar.body)
      (kind : DatatypeShape datatype) :
      Shape config resolves
        (['\x22', '\x22', '\x22'] ++ body ++ ['\x22', '\x22', '\x22'] ++ ['^', '^'] ++ datatype)
  | tagged {resolves : Bool} {body tag : Text} (inside : body ∈ Grammar.body)
      (tagged : tag ∈ Grammar.languageTag) :
      Shape config resolves
        (['\x22', '\x22', '\x22'] ++ body ++ ['\x22', '\x22', '\x22'] ++ '@' :: tag)

variable {config : RenderConfig} {resolves : Bool} {term : Term}

/-! ## References -/

theorem inReference_of_isForbidden {char : Char} (clean : isForbidden char = false) :
    Grammar.InReference char := by
  simp only [isForbidden, forbiddenInReference, List.contains_eq_mem, Bool.or_eq_false_iff,
    decide_eq_false_iff_not, Text.isControl, Bool.and_eq_false_iff] at clean
  obtain ⟨absent, low, control⟩ := clean
  have space : char.toNat ≠ 0x20 := by
    intro same
    have blank : char = ' ' := Char.toNat_inj.mp same
    exact absent (by simp [blank])
  exact ⟨by omega, by omega, fun member => absent (List.mem_append_left [' '] member)⟩

theorem mem_reference {inner : Text} (allowed : config.allows inner = true)
    (clean : ∀ char ∈ inner, isForbidden char = false) : inner ∈ Grammar.reference config := by
  rw [RenderConfig.allows, List.any_eq_true] at allowed
  obtain ⟨scheme, member, lead⟩ := allowed
  exact ⟨⟨scheme, member, List.isPrefixOf_iff_prefix.mp lead⟩,
    fun char among => inReference_of_isForbidden (clean char among)⟩

theorem shape_of_prefixed {space name : Text} (accepted : prefixed space name = .ok term) :
    Shape config resolves term.text := by
  obtain ⟨spaced, named, rfl⟩ := prefixed_eq_ok_iff.mp accepted
  exact .prefixed (spaced.imp_right Grammar.mem_identifier) (Grammar.mem_localName named)

/-- A form of a reference has its shape. -/
theorem Form.shape {text : Text} (form : Form config text) : Shape config true text := by
  cases form with
  | keyword => exact .keyword
  | iri allowed clean => exact .iri (mem_reference allowed clean)
  | var named => exact .var (Grammar.mem_identifier named)
  | blank labelled => exact .blank (Grammar.mem_blankLabel labelled)
  | prefixed spaced named =>
      exact .prefixed (spaced.imp_right Grammar.mem_identifier) (Grammar.mem_localName named)

/-! ## Literals -/

/-- A datatype is any reference that is no variable, no blank node and not the keyword. -/
theorem typedLiteral_eq_ok_iff {text datatype : Text} :
    typedLiteral text datatype = .ok term ↔
      ∃ kind, reference .standard datatype = .ok kind ∧
        (kind.isVariable = false ∧ kind.isBlankNode = false ∧ kind ≠ keyword) ∧
        term = ⟨Literal.long text ++ ['^', '^'] ++ kind.text⟩ := by
  rw [typedLiteral]
  cases reference .standard datatype with
  | error reason => simp
  | ok kind =>
      dsimp only
      by_cases excluded : (kind.isVariable || kind.isBlankNode || kind == keyword) = true
      · have fails : ¬(kind.isVariable = false ∧ kind.isBlankNode = false ∧ kind ≠ keyword) := by
          rintro ⟨notVariable, notBlank, other⟩
          simp [notVariable, notBlank, other] at excluded
        rw [if_pos excluded]
        simp [fails]
      · have passes : kind.isVariable = false ∧ kind.isBlankNode = false ∧ kind ≠ keyword := by
          simpa [and_assoc] using excluded
        rw [if_neg excluded]
        constructor
        · intro same
          cases same
          exact ⟨kind, rfl, passes, rfl⟩
        · rintro ⟨_, same, _, rfl⟩
          cases same
          rfl

theorem Form.datatypeShape {kind : Term} (form : Form .standard kind.text)
    (known : kind.isVariable = false ∧ kind.isBlankNode = false ∧
      kind ≠ Term.keyword) : DatatypeShape kind.text := by
  obtain ⟨text⟩ := kind
  obtain ⟨notVariable, notBlank, notKeyword⟩ := known
  cases form with
  | keyword => exact absurd rfl notKeyword
  | iri allowed clean => exact .iri (mem_reference allowed clean)
  | var named => cases notVariable
  | blank labelled => cases notBlank
  | prefixed spaced named =>
      refine .prefixed (spaced.imp_right Grammar.mem_identifier) (Grammar.mem_localName named) ?_
      intro lead
      have marked : isBlankNode ⟨_⟩ = true := List.isPrefixOf_iff_prefix.mpr lead
      exact absurd (marked.symm.trans notBlank) nofun

/-- Whatever is built has one of the shapes. -/
theorem shape_of_build {call : Construction} (built : call.build config = .ok term) :
    Shape config call.resolves term.text := by
  cases call with
  | iri text =>
      obtain ⟨allowed, clean, rfl⟩ := iri_eq_ok_iff.mp built
      exact .iri (mem_reference allowed clean)
  | var name =>
      obtain ⟨named, rfl⟩ := var_eq_ok_iff.mp built
      exact .var (Grammar.mem_identifier named)
  | blank label =>
      obtain ⟨labelled, rfl⟩ := blank_eq_ok_iff.mp built
      exact .blank (Grammar.mem_blankLabel labelled)
  | prefixed space name => exact shape_of_prefixed built
  | curie text =>
      obtain ⟨space, name, _, _, accepted⟩ := curie_eq_ok_iff.mp built
      exact shape_of_prefixed accepted
  | reference text => exact (form_of_reference built).shape
  | predicate key => exact (form_of_predicate built).shape
  | typedLiteral text datatype =>
      obtain ⟨kind, resolved, known, rfl⟩ := typedLiteral_eq_ok_iff.mp built
      exact .typed (Grammar.escape_mem_body text)
        ((form_of_reference resolved).datatypeShape known)
  | languageLiteral text tag =>
      obtain ⟨tagged, rfl⟩ := languageLiteral_eq_ok_iff.mp built
      exact .tagged (Grammar.escape_mem_body text) (Grammar.mem_languageTag tagged)

/-! ## Tokens and lines -/

/-- Whatever is built stands for one token. -/
theorem issued_of_build {call : Construction} (built : call.build config = .ok term) :
    ∃ token, Issued term token := by
  cases call with
  | iri text => exact ⟨_, .iri built⟩
  | var name => exact ⟨_, .var built⟩
  | blank label => exact ⟨_, .blank built⟩
  | prefixed space name => exact ⟨_, .prefixed built⟩
  | curie text => exact ⟨_, .curie built⟩
  | reference text => exact ⟨_, .reference built⟩
  | predicate key => exact ⟨_, .predicate built⟩
  | typedLiteral text datatype =>
      obtain ⟨kind, resolved, _, _⟩ := typedLiteral_eq_ok_iff.mp built
      exact ⟨_, .typedLiteral resolved built⟩
  | languageLiteral text tag => exact ⟨_, .languageLiteral built⟩

theorem clean_prefixed {space name : Text} (spaced : space = [] ∨ space ∈ Grammar.identifier)
    (named : name ∈ Grammar.localName) : Clean (space ++ ':' :: name) := by
  have lead : Clean space := by
    cases spaced with
    | inl empty =>
        subst empty
        exact clean_of_all rfl
    | inr spaced => exact Grammar.printable_identifier space spaced
  have colon : Clean [':'] := clean_of_all rfl
  have behind : Clean name := Grammar.printable_localName name named
  exact clean_append_iff.mpr ⟨lead, clean_append_iff.mpr ⟨colon, behind⟩⟩

theorem clean_reference {config : RenderConfig} {inner : Text}
    (member : inner ∈ Grammar.reference config) : Clean ('<' :: inner ++ ['>']) := by
  have opened : Clean ['<'] := clean_of_all rfl
  have closed : Clean ['>'] := clean_of_all rfl
  have inside : Clean inner := Grammar.printable_reference config inner member
  exact clean_append_iff.mpr ⟨clean_append_iff.mpr ⟨opened, inside⟩, closed⟩

theorem DatatypeShape.clean {datatype : Text} (shape : DatatypeShape datatype) :
    Clean datatype := by
  cases shape with
  | iri member => exact clean_reference member
  | prefixed spaced named _ => exact clean_prefixed spaced named

theorem Shape.clean {text : Text} (shape : Shape config resolves text) : Clean text := by
  have quotes : Clean ['\x22', '\x22', '\x22'] := clean_of_all rfl
  have quoted {body : Text} (inside : body ∈ Grammar.body) :
      Clean (['\x22', '\x22', '\x22'] ++ body ++ ['\x22', '\x22', '\x22']) :=
    clean_append_iff.mpr
      ⟨clean_append_iff.mpr ⟨quotes, Grammar.printable_body body inside⟩, quotes⟩
  cases shape with
  | keyword => exact clean_of_all rfl
  | iri member => exact clean_reference member
  | var named =>
      have mark : Clean ['?'] := clean_of_all rfl
      exact clean_append_iff.mpr ⟨mark, Grammar.printable_identifier _ named⟩
  | blank labelled =>
      have mark : Clean ['_', ':'] := clean_of_all rfl
      exact clean_append_iff.mpr ⟨mark, Grammar.printable_blankLabel _ labelled⟩
  | prefixed spaced named => exact clean_prefixed spaced named
  | typed inside kind =>
      have mark : Clean ['^', '^'] := clean_of_all rfl
      exact clean_append_iff.mpr ⟨clean_append_iff.mpr ⟨quoted inside, mark⟩, kind.clean⟩
  | tagged inside tagged =>
      have mark : Clean ['@'] := clean_of_all rfl
      have tag := Grammar.printable_languageTag _ tagged
      exact clean_append_iff.mpr ⟨quoted inside, clean_append_iff.mpr ⟨mark, tag⟩⟩

end Term

/-- Whatever a constructor that checks its arguments builds has one of the shapes, is one
token, and holds no control code and so no line break. -/
theorem Construction.build_sound {config : RenderConfig} {call : Construction} {term : Term}
    (built : call.build config = .ok term) :
    Term.Shape config call.resolves term.text ∧
      (∃ token, Lexer.tokens? term.text = some [token]) ∧ Grammar.Clean term.text := by
  obtain ⟨token, issued⟩ := Term.issued_of_build built
  have shape := Term.shape_of_build built
  exact ⟨shape, ⟨token, issued.spells.tokens?_eq⟩, shape.clean⟩

/-- A literal of a quote, a line break and a backslash, its datatype a prefixed name. -/
theorem Construction.build_sound_hostile :
    let call : Construction := .typedLiteral ['\x22', '\n', '\\'] "ex:t".toList
    let term : Term := ⟨"\"\"\"\\\"\\n\\\\\"\"\"^^ex:t".toList⟩
    call.build .standard = .ok term ∧
      Term.Shape .standard false term.text ∧
      (∃ token, Lexer.tokens? term.text = some [token]) ∧ Grammar.Clean term.text := by
  intro call term
  have built : call.build .standard = .ok term := by decide
  exact ⟨built, Construction.build_sound built⟩

end SparqlText
