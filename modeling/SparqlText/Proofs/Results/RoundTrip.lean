/-
# Primitive values there and back

A text, an integer, a truth value or a finite double is converted to a term that is one
literal with a datatype. The text that the literal stands for and its datatype are a
binding, and what that binding is worth in a program is the value again. A double that is
an integer in the range of exact ones comes back as that integer, any other as itself.

The literal is taken apart by the lexer of queries, which knows nothing of how it was put
together. An integer is not the only text of its worth: what a form is worth under a datatype
of whole numbers is said for every form, and the one that is written is a case of that.
-/

import SparqlText.Proofs.Binary64.ReadBack
import SparqlText.Proofs.Text.Trimming
import SparqlText.Proofs.Value.Tokens
import SparqlText.Results.Native

namespace SparqlText

/-! ## White space -/

namespace Text

theorem isBlank_of_isDigit {char : Char} (digit : char.isDigit = true) :
    isBlank char = false := by
  have bounds := Decimal.toNat_of_isDigit digit
  rw [← Bool.not_eq_true]
  simp only [isBlank, Bool.or_eq_true, Bool.and_eq_true, decide_eq_true_eq, beq_iff_eq]
  omega

end Text

/-- No white space stands in a numeral. -/
theorem Decimal.Signed.not_isBlank {text : Text} {whole : ℤ} (signed : Signed text whole) :
    ∀ char ∈ text, Text.isBlank char = false := by
  cases signed with
  | unsigned _ inside => exact fun char member => Text.isBlank_of_isDigit (inside char member)
  | positive _ inside =>
      exact List.forall_mem_cons.mpr
        ⟨rfl, fun char member => Text.isBlank_of_isDigit (inside char member)⟩
  | negative _ inside =>
      exact List.forall_mem_cons.mpr
        ⟨rfl, fun char member => Text.isBlank_of_isDigit (inside char member)⟩

/-! ## Lexical forms -/

/-- The class of a datatype of XML Schema is that of its local name. -/
theorem DatatypeClass.ofDatatype_xsd (name : String) :
    ofDatatype (Vocabulary.xsd name) = ofLocalName name.toList := by
  have known : Vocabulary.xsdLocalName? (Vocabulary.xsd name) = some name.toList :=
    (Text.after?_eq_some_iff _ _ _).mpr rfl
  have outside : Vocabulary.xsdLocalName? Vocabulary.rdfJson = none := by decide
  have apart : Vocabulary.xsd name ≠ Vocabulary.rdfJson := by
    intro same
    rw [← same, known] at outside
    cases outside
  rw [ofDatatype, if_neg apart, known]

namespace Native

theorem trim_plain {number : Binary64} (finite : number.isFinite = true) :
    Text.trim number.plain = number.plain := by
  apply Text.trim_eq_self
  intro char member
  rcases number.digit_or_mark_of_mem_plain finite char member with digit | rfl | rfl
  · exact Text.isBlank_of_isDigit digit
  · rfl
  · rfl

/-- The integers of 64 bits are those from the least one to the greatest. -/
theorem exists_toInt_eq_iff {whole : ℤ} :
    (∃ word : Int64, word.toInt = whole) ↔ -2 ^ 63 ≤ whole ∧ whole ≤ 2 ^ 63 - 1 := by
  constructor
  · rintro ⟨word, rfl⟩
    exact ⟨word.le_toInt, Int.le_sub_one_of_lt word.toInt_lt⟩
  · rintro ⟨above, below⟩
    exact ⟨.ofInt whole, Int64.toInt_ofInt_of_le above (Int.lt_of_le_sub_one below)⟩

theorem integer64?_eq_some_iff {text : Text} {word : Int64} :
    integer64? text = some word ↔ Decimal.Signed text word.toInt := by
  rw [integer64?, Option.bind_eq_some_iff]
  constructor
  · rintro ⟨whole, read, within⟩
    split at within
    case isTrue bounds =>
      rw [Bool.and_eq_true, decide_eq_true_eq, decide_eq_true_eq] at bounds
      obtain ⟨other, rfl⟩ := exists_toInt_eq_iff.mpr bounds
      rw [Option.some.injEq, Int64.ofInt_toInt] at within
      subst within
      exact Decimal.integer?_eq_some_iff.mp read
    case isFalse => cases within
  · intro signed
    have bounds : (Int64.minValue.toInt ≤ word.toInt && word.toInt ≤ Int64.maxValue.toInt) =
        true := by
      rw [Bool.and_eq_true, decide_eq_true_eq, decide_eq_true_eq]
      exact ⟨word.minValue_le_toInt, word.toInt_le⟩
    refine ⟨word.toInt, signed.integer?_eq, ?_⟩
    rw [if_pos bounds, Int64.ofInt_toInt]

/-- Under a datatype of whole numbers a form is worth the integer that it is when trimmed. -/
theorem ofLexical?_integerFamily {name : String} (known : name.toList ∈ Vocabulary.integerFamily)
    (lexical : Text) :
    ofLexical? (Vocabulary.xsd name) lexical =
      (integer64? (Text.trim lexical)).map .integer := by
  have family : ∀ name ∈ Vocabulary.integerFamily, DatatypeClass.ofLocalName name = .integer := by
    decide
  rw [ofLexical?, DatatypeClass.ofDatatype_xsd, family name.toList known]

/-- The decimal form of an integer of 64 bits is one. -/
theorem ofLexical?_integer (value : Int64) :
    ofLexical? Vocabulary.xsdInteger (Decimal.integer value.toInt) = some (.integer value) := by
  have signed := Decimal.signed_integer value.toInt
  rw [Vocabulary.xsdInteger, ofLexical?_integerFamily (by decide),
    Text.trim_eq_self signed.not_isBlank, integer64?_eq_some_iff.mpr signed]
  rfl

/-- The plain text of a finite double is that double. -/
theorem ofLexical?_decimal {number : Binary64} (finite : number.isFinite = true) :
    ofLexical? Vocabulary.xsdDecimal number.plain = some (.float number) := by
  have known : DatatypeClass.ofDatatype Vocabulary.xsdDecimal = .float :=
    (DatatypeClass.ofDatatype_xsd "decimal").trans (by decide)
  have other : (!number.isNaN) = true := by rw [Binary64.isNaN_of_isFinite finite]; rfl
  rw [ofLexical?, known]
  dsimp only
  rw [trim_plain finite, float?, Binary64.read?_plain finite, Option.filter_some, if_pos other]
  rfl

theorem ofLexical?_boolean (value : Bool) :
    ofLexical? Vocabulary.xsdBoolean (Term.boolean value).text = some (.boolean value) := by
  have known : DatatypeClass.ofDatatype Vocabulary.xsdBoolean = .boolean :=
    (DatatypeClass.ofDatatype_xsd "boolean").trans (by decide)
  rw [ofLexical?, known]
  cases value with
  | false => rfl
  | true => rfl

theorem ofLexical?_string (text : Text) : ofLexical? Vocabulary.xsdString text = none := by
  have known : DatatypeClass.ofDatatype Vocabulary.xsdString = .other :=
    (DatatypeClass.ofDatatype_xsd "string").trans (by decide)
  rw [ofLexical?, known]

end Native

/-! ## Literals as bindings -/

/-- The binding of a literal with a datatype. -/
def Token.binding? : Token → Option Binding
  | .literal text (.datatype (.reference datatype)) => some (.ofLiteral text (some datatype))
  | _ => none

/-- The binding of a term that is one literal with a datatype. -/
def Term.binding? (term : Term) : Option Binding :=
  match Lexer.tokens? term.text with
  | some [token] => token.binding?
  | _ => none

/-- What comes back from a value that is converted, if the term that it is converted to is
one literal with a datatype. -/
def Value.returned (config : RenderConfig) (strict : Bool) (value : Value) :
    Except Error (Option Native) :=
  (value.toTerm config strict).map fun term => term.binding?.map Binding.toNative

namespace Value

variable {config : RenderConfig} {strict : Bool} {value : Value}

theorem returned_eq {term : Term} {text datatype : Text}
    (converted : value.toTerm config strict = .ok term)
    (spelled : Lexer.Spells term.text [.typed text datatype]) :
    value.returned config strict =
      .ok (some ((Native.ofLexical? datatype text).getD (.text text))) := by
  rw [returned, converted]
  simp only [Except.map, Term.binding?, spelled.tokens?_eq]
  rfl

/-- A double that is an integer in the range of exact ones comes back as that integer. -/
theorem returned_exact {number : Binary64} {whole : Int64} (finite : number.isFinite = true)
    (exact : number.exactInteger? = some whole.toInt) :
    (Value.number number).returned config strict = .ok (some (.integer whole)) := by
  have converted : (Value.number number).toTerm config strict =
      .ok (Term.integer whole.toInt) := by
    rw [toTerm, numberTerm, finite, exact]
    rfl
  rw [returned_eq converted (Term.spells_integer whole.toInt), Native.ofLexical?_integer]
  rfl

/-- Any other finite double comes back as itself. -/
theorem returned_inexact {number : Binary64} (finite : number.isFinite = true)
    (inexact : number.exactInteger? = none) :
    (Value.number number).returned config strict = .ok (some (.float number)) := by
  have built : numberTerm number = .ok (Term.lexical number.plain Vocabulary.xsdDecimal) := by
    rw [numberTerm, finite, inexact]
    rfl
  have converted : (Value.number number).toTerm config strict =
      .ok (Term.lexical number.plain Vocabulary.xsdDecimal) := by
    rw [toTerm, built]
    rfl
  have token : numberToken number = .typed number.plain Vocabulary.xsdDecimal := by
    rw [numberToken, inexact]
  have spelled := spells_numberTerm built
  rw [token] at spelled
  rw [returned_eq converted spelled, Native.ofLexical?_decimal finite]
  rfl

/-- Every text, every integer and every truth value comes back as it was. A finite double
comes back as the integer that it is, if that is in the range of exact ones, and otherwise
as the same double; zeros of either sign come back as the integer zero. A double that is not
finite is refused. -/
theorem returned_primitive (config : RenderConfig) (strict : Bool) :
    (∀ text, (Value.string text).returned config strict = .ok (some (.text text))) ∧
    (∀ whole, (Value.integer whole).returned config strict = .ok (some (.integer whole))) ∧
    (∀ truth, (Value.boolean truth).returned config strict = .ok (some (.boolean truth))) ∧
    (∀ number : Binary64, number.isFinite = true →
      (∀ whole : Int64, number.toRat = whole.toInt → whole.toInt.natAbs ≤ 2 ^ 53 - 1 →
        (Value.number number).returned config strict = .ok (some (.integer whole))) ∧
      ((¬∃ whole : ℤ, number.toRat = whole ∧ whole.natAbs ≤ 2 ^ 53 - 1) →
        (Value.number number).returned config strict = .ok (some (.float number)))) ∧
    (∀ negative, (Value.number (.zero negative)).returned config strict =
      .ok (some (.integer 0))) ∧
    (∀ number : Binary64, number.isFinite = false →
      (Value.number number).toTerm config strict =
        .error (.refused (.decimalNotFinite number))) := by
  refine ⟨fun text => ?_, fun whole => ?_, fun truth => ?_, fun number finite => ⟨?_, ?_⟩,
    fun negative => ?_, fun number infinite => ?_⟩
  · have converted : (Value.string text).toTerm config strict = .ok (Term.string text) := rfl
    rw [returned_eq converted (Term.spells_string text), Native.ofLexical?_string]
    rfl
  · have converted : (Value.integer whole).toTerm config strict =
        .ok (Term.integer whole.toInt) := rfl
    rw [returned_eq converted (Term.spells_integer whole.toInt), Native.ofLexical?_integer]
    rfl
  · have converted : (Value.boolean truth).toTerm config strict = .ok (Term.boolean truth) := rfl
    rw [returned_eq converted (Term.spells_boolean truth), Native.ofLexical?_boolean]
    rfl
  · intro whole same small
    exact returned_exact finite ((Binary64.exactInteger?_eq_some_iff finite).mpr ⟨same, small⟩)
  · intro other
    apply returned_inexact finite
    apply Option.eq_none_iff_forall_ne_some.mpr
    intro whole exact
    exact other ⟨whole, (Binary64.exactInteger?_eq_some_iff finite).mp exact⟩
  · exact returned_exact rfl (Binary64.exactInteger?_zero negative)
  · have refused : numberTerm number = .error (.decimalNotFinite number) := by
      rw [numberTerm, infinite]
      rfl
    rw [toTerm, refused]
    rfl

end Value

end SparqlText
