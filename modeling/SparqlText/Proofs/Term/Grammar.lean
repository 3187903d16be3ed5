/-
# The grammar of terms

The parts of terms as languages: names as regular expressions over classes of ASCII
characters, references by what they begin with and what they leave out, and the bodies
of literals as runs of raw characters and escapes. Nothing here looks at how a text is
checked or built. What the checks of names accept, and what a body is escaped to, is
then shown to be in these languages.

No language has a control code in it, so none has a line break.
-/

import Mathlib.Computability.Language
import SparqlText.Literal
import SparqlText.Name
import SparqlText.Proofs.Text.Runs
import SparqlText.RenderConfig

open scoped Computability

namespace SparqlText.Grammar

/-! ## Classes of characters -/

/-- `[A-Za-z]` -/
def Letter (char : Char) : Prop := ('A' ≤ char ∧ char ≤ 'Z') ∨ ('a' ≤ char ∧ char ≤ 'z')

/-- `[A-Za-z0-9]` -/
def Alphanumeric (char : Char) : Prop := Letter char ∨ ('0' ≤ char ∧ char ≤ '9')

/-- `[A-Za-z0-9_]` -/
def Word (char : Char) : Prop := Alphanumeric char ∨ char = '_'

/-- The texts of one character from a class. -/
def one (p : Char → Prop) : Language Char := { text | ∃ char, p char ∧ text = [char] }

/-- The language of one text. -/
def exactly (text : Text) : Language Char := { other | other = text }

/-! ## Names -/

/-- `[A-Za-z_][A-Za-z0-9_]*` -/
def identifier : Language Char := one (fun char => Letter char ∨ char = '_') * (one Word)∗

/-- `[A-Za-z0-9_][A-Za-z0-9_-]*` -/
def blankLabel : Language Char := one Word * (one fun char => Word char ∨ char = '-')∗

/-- `[A-Za-z0-9_]([A-Za-z0-9_.-]*[A-Za-z0-9_-])?` -/
def localName : Language Char :=
  one Word *
    (1 + (one fun char => Word char ∨ char = '-' ∨ char = '.')∗ *
      one fun char => Word char ∨ char = '-')

/-- `-[A-Za-z0-9]+` -/
def subtag : Language Char := exactly ['-'] * (one Alphanumeric * (one Alphanumeric)∗)

/-- `[A-Za-z]+(-[A-Za-z0-9]+)*` -/
def languageTag : Language Char := one Letter * (one Letter)∗ * subtag∗

/-! ## References -/

/-- A character that is no control code, no space and none of the marks that may not
stand between angle brackets. -/
def InReference (char : Char) : Prop :=
  0x20 < char.toNat ∧ ¬(0x7f ≤ char.toNat ∧ char.toNat ≤ 0x9f) ∧
    char ∉ ['<', '>', '\x22', '\x7b', '\x7d', '|', '^', '\x60', '\\']

/-- What begins with an allowed scheme and may stand between angle brackets. -/
def reference (config : RenderConfig) : Language Char :=
  { text | (∃ scheme ∈ config.allowedSchemes, scheme <+: text) ∧
    ∀ char ∈ text, InReference char }

/-! ## Literals -/

/-- A character that stands for itself between double quotes. -/
def Raw (char : Char) : Prop := 0x20 ≤ char.toNat ∧ char ≠ '\x22' ∧ char ≠ '\\'

/-- `[0-9A-Fa-f]` -/
def Hexadecimal (char : Char) : Prop :=
  ('0' ≤ char ∧ char ≤ '9') ∨ ('A' ≤ char ∧ char ≤ 'F') ∨ ('a' ≤ char ∧ char ≤ 'f')

/-- A backslash and what may follow it: a quote, a backslash or the letter of a control
code, or `u` and four hexadecimal digits. -/
def escape : Language Char :=
  exactly ['\\'] *
    (one (· ∈ ['\x22', '\'', '\\', 't', 'b', 'n', 'r', 'f']) +
      exactly ['u'] *
        (one Hexadecimal * (one Hexadecimal * (one Hexadecimal * one Hexadecimal))))

/-- The body of a literal: raw characters and escapes. -/
def body : Language Char := (one Raw + escape)∗

/-! ## Membership -/

theorem singleton_mem_one {p : Char → Prop} {char : Char} (held : p char) : [char] ∈ one p :=
  ⟨char, held, rfl⟩

theorem self_mem_exactly (text : Text) : text ∈ exactly text := rfl

theorem append_mem_kstar {language : Language Char} {first rest : Text}
    (one : first ∈ language) (others : rest ∈ language∗) : first ++ rest ∈ language∗ := by
  rw [← Language.one_add_self_mul_kstar_eq_kstar, Language.mem_add]
  exact .inr (Language.append_mem_mul one others)

/-- A text of characters from a class is a repetition of the class. -/
theorem mem_kstar_one {p : Char → Prop} {text : Text} (each : ∀ char ∈ text, p char) :
    text ∈ (one p)∗ := by
  induction text with
  | nil => exact Language.nil_mem_kstar _
  | cons char text ih =>
      have later := ih fun other member => each other (List.mem_cons_of_mem _ member)
      exact append_mem_kstar (singleton_mem_one (each char List.mem_cons_self)) later

theorem letter_of_isAlpha {char : Char} (alpha : char.isAlpha = true) : Letter char := by
  cases Bool.or_eq_true_iff.mp alpha with
  | inl upper => exact .inl (of_decide_eq_true upper)
  | inr lower =>
      exact .inr ((Bool.and_eq_true_iff.mp lower).imp of_decide_eq_true of_decide_eq_true)

theorem alphanumeric_of_isAlphanum {char : Char} (accepted : char.isAlphanum = true) :
    Alphanumeric char := by
  rw [Char.isAlphanum, Bool.or_eq_true] at accepted
  cases accepted with
  | inl alpha => exact .inl (letter_of_isAlpha alpha)
  | inr digit =>
      simp only [Char.isDigit, Bool.and_eq_true, decide_eq_true_eq] at digit
      exact .inr digit

theorem word_of_isWord {char : Char} (accepted : Name.isWord char = true) : Word char := by
  simp only [Name.isWord, Bool.or_eq_true, beq_iff_eq] at accepted
  exact accepted.imp_left alphanumeric_of_isAlphanum

/-! ## What is checked -/

theorem mem_identifier {name : Text} (named : Name.isIdentifier name = true) :
    name ∈ identifier := by
  cases name with
  | nil => cases named
  | cons first rest =>
      simp only [Name.isIdentifier, Bool.and_eq_true, Bool.or_eq_true, beq_iff_eq,
        List.all_eq_true] at named
      exact Language.append_mem_mul (singleton_mem_one (named.1.imp_left letter_of_isAlpha))
        (mem_kstar_one fun char member => word_of_isWord (named.2 char member))

theorem mem_blankLabel {label : Text} (labelled : Name.isBlankLabel label = true) :
    label ∈ blankLabel := by
  cases label with
  | nil => cases labelled
  | cons first rest =>
      simp only [Name.isBlankLabel, Bool.and_eq_true, Bool.or_eq_true, beq_iff_eq,
        List.all_eq_true] at labelled
      exact Language.append_mem_mul (singleton_mem_one (word_of_isWord labelled.1))
        (mem_kstar_one fun char member => (labelled.2 char member).imp_left word_of_isWord)

/-- A local name is one character, or it ends in one that is no full stop. -/
theorem mem_localName {name : Text} (named : Name.isLocal name = true) : name ∈ localName := by
  cases name with
  | nil => cases named
  | cons first rest =>
      simp only [Name.isLocal, Name.isLocalChar, Bool.and_eq_true, Bool.or_eq_true, beq_iff_eq,
        List.all_eq_true, bne_iff_ne] at named
      obtain ⟨⟨lead, inside⟩, ends⟩ := named
      have inner : ∀ char ∈ rest, Word char ∨ char = '-' ∨ char = '.' := by
        intro char member
        rw [← or_assoc]
        exact (inside char member).imp_left (Or.imp_left word_of_isWord)
      refine Language.append_mem_mul (singleton_mem_one (word_of_isWord lead)) ?_
      rw [Language.mem_add]
      cases rest.eq_nil_or_concat' with
      | inl empty => exact .inl empty
      | inr split =>
          obtain ⟨middle, last, rfl⟩ := split
          have other : last ≠ '.' := by
            rintro rfl
            rw [← List.cons_append, List.getLast?_concat] at ends
            exact ends rfl
          have closing : Word last ∨ last = '-' := by
            have known := inner last (by simp)
            rw [← or_assoc] at known
            exact known.resolve_right other
          exact .inr <| Language.append_mem_mul
            (mem_kstar_one fun char member => inner char (by simp [member]))
            (singleton_mem_one closing)

/-- What may follow the first letters of a tag. Where a subtag has begun, its first
character is still to come. -/
theorem mem_subtags {text : Text} :
    (Name.isSubtags false text = true → text ∈ (one Alphanumeric)∗ * subtag∗) ∧
      (Name.isSubtags true text = true →
        text ∈ one Alphanumeric * (one Alphanumeric)∗ * subtag∗) := by
  induction text with
  | nil =>
      refine ⟨fun _ => ?_, nofun⟩
      exact Language.append_mem_mul (Language.nil_mem_kstar _) (Language.nil_mem_kstar _)
  | cons char text ih =>
      constructor
      · intro accepted
        rw [Name.isSubtags] at accepted
        split at accepted
        case isTrue hyphen =>
          subst hyphen
          obtain ⟨begun, within, others, tags, rfl⟩ := ih.2 accepted
          have tag : '-' :: begun ∈ subtag :=
            Language.append_mem_mul (self_mem_exactly ['-']) within
          exact Language.append_mem_mul (Language.nil_mem_kstar _) (append_mem_kstar tag tags)
        case isFalse =>
          obtain ⟨letter, accepted⟩ := Bool.and_eq_true_iff.mp accepted
          obtain ⟨run, within, others, tags, rfl⟩ := ih.1 accepted
          have lead := singleton_mem_one (alphanumeric_of_isAlphanum letter)
          exact Language.append_mem_mul (append_mem_kstar lead within) tags
      · intro accepted
        rw [Name.isSubtags] at accepted
        split at accepted
        case isTrue => cases accepted
        case isFalse =>
          obtain ⟨letter, accepted⟩ := Bool.and_eq_true_iff.mp accepted
          obtain ⟨run, within, others, tags, rfl⟩ := ih.1 accepted
          have lead := singleton_mem_one (alphanumeric_of_isAlphanum letter)
          exact Language.append_mem_mul (Language.append_mem_mul lead within) tags

theorem mem_languageTag {tag : Text} (tagged : Name.isLanguageTag tag = true) :
    tag ∈ languageTag := by
  rw [Name.isLanguageTag, Bool.and_eq_true, Bool.not_eq_true', List.isEmpty_eq_false_iff] at tagged
  obtain ⟨nonempty, rest⟩ := tagged
  have letters : tag.takeWhile Char.isAlpha ∈ one Letter * (one Letter)∗ := by
    have each : ∀ char ∈ tag.takeWhile Char.isAlpha, Letter char :=
      fun char member => letter_of_isAlpha (Text.takeWhile_inside tag char member)
    cases run : tag.takeWhile Char.isAlpha with
    | nil => exact absurd run nonempty
    | cons first more =>
        rw [run] at each
        exact Language.append_mem_mul (singleton_mem_one (each first List.mem_cons_self))
          (mem_kstar_one fun char member => each char (List.mem_cons_of_mem _ member))
  have tags : tag.dropWhile Char.isAlpha ∈ subtag∗ := by
    split at rest
    case h_1 ends =>
      rw [ends]
      exact Language.nil_mem_kstar _
    case h_2 mark text ends =>
      rw [Bool.and_eq_true, beq_iff_eq] at rest
      obtain ⟨rfl, accepted⟩ := rest
      obtain ⟨begun, within, others, tags, rfl⟩ := mem_subtags.2 accepted
      rw [ends]
      have tag : '-' :: begun ∈ subtag :=
        Language.append_mem_mul (self_mem_exactly ['-']) within
      exact append_mem_kstar tag tags
  rw [← List.takeWhile_append_dropWhile (p := Char.isAlpha) (l := tag)]
  exact Language.append_mem_mul letters tags

/-! ## What is escaped -/

instance (char : Char) : Decidable (Hexadecimal char) :=
  inferInstanceAs (Decidable (_ ∨ _ ∨ _))

theorem hexadecimal_hexDigit (value : Nat) : Hexadecimal (Literal.hexDigit (value % 16)) := by
  have all : ∀ digit : Fin 16, Hexadecimal (Literal.hexDigit digit) := by decide
  exact all ⟨value % 16, Nat.mod_lt _ (by decide)⟩

theorem named_mem_escape {char : Char}
    (named : char ∈ ['\x22', '\'', '\\', 't', 'b', 'n', 'r', 'f']) : ['\\', char] ∈ escape :=
  Language.append_mem_mul (self_mem_exactly ['\\']) (.inl (singleton_mem_one named))

theorem numeric_mem_escape (code : Nat) :
    ['\\'] ++ (['u'] ++ Literal.fourHexDigits code) ∈ escape := by
  have digit (value : Nat) := singleton_mem_one (hexadecimal_hexDigit value)
  have digits := Language.append_mem_mul (digit (code / 4096))
    (Language.append_mem_mul (digit (code / 256))
      (Language.append_mem_mul (digit (code / 16)) (digit code)))
  exact Language.append_mem_mul (self_mem_exactly ['\\'])
    (.inr (Language.append_mem_mul (self_mem_exactly ['u']) digits))

/-- A character is escaped to one raw character or to one escape. -/
theorem escapeChar_mem (char : Char) : Literal.escapeChar .double char ∈ one Raw + escape := by
  rw [Language.mem_add, Literal.escapeChar]
  split
  · exact .inr (named_mem_escape (by simp))
  split
  · exact .inr (named_mem_escape (by simp))
  split
  · exact .inr (named_mem_escape (by simp))
  split
  · exact .inr (named_mem_escape (by simp))
  split
  · exact .inr (named_mem_escape (by simp))
  split
  · exact .inr (named_mem_escape (by simp))
  split
  · exact .inr (numeric_mem_escape char.toNat)
  split
  case isTrue delimiter => exact .inr (named_mem_escape (by simp [delimiter, Quote.delimiter]))
  case isFalse backslash _ _ _ _ _ printable delimiter =>
    exact .inl (singleton_mem_one ⟨Nat.le_of_not_lt printable, delimiter, backslash⟩)

theorem escape_mem_body (text : Text) : Literal.escape .double text ∈ body := by
  induction text with
  | nil => exact Language.nil_mem_kstar _
  | cons char text ih => exact append_mem_kstar (escapeChar_mem char) ih

/-! ## Control codes -/

/-- No character is a control code below the first printable one. -/
def Clean (text : Text) : Prop := ∀ char ∈ text, 0x20 ≤ char.toNat

theorem clean_of_all {text : Text} (all : text.all (fun char => 0x20 ≤ char.toNat) = true) :
    Clean text :=
  fun char member => of_decide_eq_true (List.all_eq_true.mp all char member)

theorem clean_append_iff {first second : Text} :
    Clean (first ++ second) ↔ Clean first ∧ Clean second :=
  List.forall_mem_append

/-- Every text of the language is clean. -/
def Printable (language : Language Char) : Prop :=
  ∀ text ∈ language, Clean text

theorem printable_one {p : Char → Prop} (each : ∀ char, p char → 0x20 ≤ char.toNat) :
    Printable (one p) := by
  rintro text ⟨own, held, rfl⟩ char member
  rw [List.mem_singleton.mp member]
  exact each own held

theorem printable_exactly {text : Text} (clean : Clean text) : Printable (exactly text) := by
  rintro other rfl
  exact clean

theorem printable_empty : Printable 1 := by
  intro text member char among
  rw [(Language.mem_one text).mp member] at among
  cases among

theorem Printable.add {first second : Language Char} (left : Printable first)
    (right : Printable second) : Printable (first + second) := by
  intro text member
  cases (Language.mem_add first second text).mp member with
  | inl member => exact left text member
  | inr member => exact right text member

theorem Printable.mul {first second : Language Char} (left : Printable first)
    (right : Printable second) : Printable (first * second) := by
  intro text member
  obtain ⟨before, own, after, other, rfl⟩ := Language.mem_mul.mp member
  exact clean_append_iff.mpr ⟨left before own, right after other⟩

theorem Printable.kstar {language : Language Char} (each : Printable language) :
    Printable language∗ := by
  intro text member char among
  obtain ⟨parts, rfl, own⟩ := Language.mem_kstar.mp member
  obtain ⟨part, taken, inside⟩ := List.mem_flatten.mp among
  exact each part (own part taken) char inside

theorem toNat_of_letter {char : Char} (letter : Letter char) : 0x20 ≤ char.toNat := by
  have bounds : (65 ≤ char.toNat ∧ char.toNat ≤ 90) ∨ (97 ≤ char.toNat ∧ char.toNat ≤ 122) :=
    letter
  omega

theorem toNat_of_alphanumeric {char : Char} (held : Alphanumeric char) :
    0x20 ≤ char.toNat := by
  cases held with
  | inl letter => exact toNat_of_letter letter
  | inr digit =>
      have bounds : 48 ≤ char.toNat ∧ char.toNat ≤ 57 := digit
      omega

theorem toNat_of_word {char : Char} (word : Word char) : 0x20 ≤ char.toNat := by
  cases word with
  | inl held => exact toNat_of_alphanumeric held
  | inr low =>
      subst low
      decide

theorem toNat_of_label {char : Char} (held : Word char ∨ char = '-') : 0x20 ≤ char.toNat := by
  cases held with
  | inl word => exact toNat_of_word word
  | inr hyphen =>
      subst hyphen
      decide

theorem printable_identifier : Printable identifier := by
  have lead : ∀ char, Letter char ∨ char = '_' → 0x20 ≤ char.toNat :=
    fun _ held => toNat_of_word (held.imp_left .inl)
  exact (printable_one lead).mul (printable_one fun _ => toNat_of_word).kstar

theorem printable_blankLabel : Printable blankLabel :=
  (printable_one fun _ => toNat_of_word).mul (printable_one fun _ => toNat_of_label).kstar

theorem printable_localName : Printable localName := by
  have inner : ∀ char, Word char ∨ char = '-' ∨ char = '.' → 0x20 ≤ char.toNat := by
    rintro char (word | hyphen | rfl)
    · exact toNat_of_word word
    · exact toNat_of_label (.inr hyphen)
    · decide
  have more := (printable_one inner).kstar.mul (printable_one fun _ => toNat_of_label)
  exact (printable_one fun _ => toNat_of_word).mul (printable_empty.add more)

theorem printable_languageTag : Printable languageTag := by
  have letters : Printable (one Letter) := printable_one fun _ => toNat_of_letter
  have inside : Printable (one Alphanumeric) := printable_one fun _ => toNat_of_alphanumeric
  have tag : Printable subtag := (printable_exactly (clean_of_all rfl)).mul (inside.mul inside.kstar)
  exact (letters.mul letters.kstar).mul tag.kstar

theorem printable_reference (config : RenderConfig) : Printable (reference config) :=
  fun _ member char among => Nat.le_of_lt (member.2 char among).1

theorem printable_escape : Printable escape := by
  have named : Clean ['\x22', '\'', '\\', 't', 'b', 'n', 'r', 'f'] := clean_of_all rfl
  have digit : Printable (one Hexadecimal) := by
    refine printable_one fun char held => ?_
    have bounds : (48 ≤ char.toNat ∧ char.toNat ≤ 57) ∨ (65 ≤ char.toNat ∧ char.toNat ≤ 70) ∨
        (97 ≤ char.toNat ∧ char.toNat ≤ 102) := held
    omega
  have digits := digit.mul (digit.mul (digit.mul digit))
  have numeric := (printable_exactly (clean_of_all rfl : Clean ['u'])).mul digits
  exact (printable_exactly (clean_of_all rfl)).mul ((printable_one named).add numeric)

theorem printable_body : Printable body :=
  ((printable_one fun _ raw => raw.1).add printable_escape).kstar

end SparqlText.Grammar
