/-
# Reading literal bodies

A body is read from behind its opening delimiter up to the first closing one that is
not escaped. Raw control codes and escapes that do not exist are refused in both
forms of a literal, although the long form has room for raw line breaks: what this
reader accepts stands on one line.

A body that was escaped is read back as the text that it stands for, whatever
follows its closing delimiter (`body?_escape`).
-/

import SparqlText.Json.Quoted
import SparqlText.Literal

namespace SparqlText.Literal

/-! ## The reader -/

/-- The character that a backslash and one character behind it stand for. -/
def namedEscape? (char : Char) : Option Char :=
  if char = '\\' || char = '\x22' || char = '\'' then some char
  else if char = 'n' then some '\n'
  else if char = 'r' then some '\r'
  else if char = 't' then some '\t'
  else if char = 'b' then some '\x08'
  else if char = 'f' then some '\x0c'
  else none

/-- The character that four hexadecimal digits stand for. -/
def numericEscape? (first second third fourth : Char) : Option Char :=
  (Json.fourHexValue? first second third fourth).bind fun code =>
    if code.isValidChar then some (Char.ofNat code) else none

/-- The character that a text begins with, raw or as an escape, and what follows
it. -/
def unit? : Text → Option (Char × Text)
  | [] => none
  | '\\' :: 'u' :: first :: second :: third :: fourth :: rest =>
      (numericEscape? first second third fourth).map (·, rest)
  | '\\' :: named :: rest => (namedEscape? named).map (·, rest)
  | char :: rest => if char = '\\' || char.toNat < 0x20 then none else some (char, rest)

theorem length_lt_of_unit? {text after : Text} {char : Char}
    (taken : unit? text = some (char, after)) : after.length < text.length := by
  unfold unit? at taken
  split at taken
  · cases taken
  · obtain ⟨_, _, same⟩ := Option.map_eq_some_iff.mp taken
    cases same
    simp only [List.length_cons]
    omega
  · obtain ⟨_, _, same⟩ := Option.map_eq_some_iff.mp taken
    cases same
    simp only [List.length_cons]
    omega
  · split at taken
    · cases taken
    · cases taken
      exact Nat.lt_succ_self _

/-- Read a body up to its closing delimiter: the text that it stands for, and what
follows the delimiter. -/
def body? (closing text : Text) : Option (Text × Text) :=
  match Text.after? closing text with
  | some after => some ([], after)
  | none =>
      match _unit : unit? text with
      | none => none
      | some (char, rest) => (body? closing rest).map fun (body, after) => (char :: body, after)
termination_by text.length
decreasing_by exact length_lt_of_unit? _unit

theorem body?_of_closed {closing text after : Text}
    (closed : Text.after? closing text = some after) :
    body? closing text = some ([], after) := by
  rw [body?.eq_def, closed]

theorem body?_of_unit {closing text rest : Text} {char : Char}
    (unclosed : Text.after? closing text = none) (taken : unit? text = some (char, rest)) :
    body? closing text = (body? closing rest).map fun (body, after) => (char :: body, after) := by
  rw [body?.eq_def, unclosed]
  dsimp only
  split
  case h_1 missing =>
    rw [taken] at missing
    cases missing
  case h_2 same =>
    rw [taken] at same
    cases same
    rfl

/-- Reading a body takes no less than its closing delimiter. -/
theorem length_le_of_body? {closing text body after : Text}
    (taken : body? closing text = some (body, after)) :
    closing.length + after.length ≤ text.length := by
  fun_induction body? closing text generalizing body after with
  | case1 text rest closed =>
      rw [Text.after?_eq_some_iff] at closed
      have whole := congrArg List.length closed
      cases taken
      rw [List.length_append] at whole
      omega
  | case2 => cases taken
  | case3 text _ char rest unit ih =>
      obtain ⟨⟨inner, behind⟩, read, same⟩ := Option.map_eq_some_iff.mp taken
      cases same
      have shorter := length_lt_of_unit? unit
      have bound := ih read
      omega

/-! ## Escaped bodies -/

theorem hexValue?_hexDigit (value : Nat) (small : value < 16) :
    Json.hexValue? (hexDigit value) = some value := by
  have all : ∀ digit : Fin 16, Json.hexValue? (hexDigit digit) = some digit.val := by decide
  exact all ⟨value, small⟩

/-- Sixteen bits are read back from their digits. -/
theorem fourHexValue?_fourHexDigits (code : Nat) (small : code < 65536) :
    Json.fourHexValue? (hexDigit (code / 4096 % 16)) (hexDigit (code / 256 % 16))
      (hexDigit (code / 16 % 16)) (hexDigit (code % 16)) = some code := by
  have digit (value : Nat) : Json.hexValue? (hexDigit (value % 16)) = some (value % 16) :=
    hexValue?_hexDigit _ (Nat.mod_lt _ (by decide))
  simp only [Json.fourHexValue?, digit, Option.bind_eq_bind, Option.bind_some, Option.pure_def,
    Option.some.injEq]
  omega

/-- A character is read back from its escaped form, whatever follows. -/
theorem unit?_escapeChar (quote : Quote) (char : Char) (rest : Text) :
    unit? (escapeChar quote char ++ rest) = some (char, rest) := by
  by_cases backslash : char = '\\'
  · subst backslash; rfl
  by_cases lineFeed : char = '\n'
  · subst lineFeed; rfl
  by_cases carriageReturn : char = '\r'
  · subst carriageReturn; rfl
  by_cases tab : char = '\t'
  · subst tab; rfl
  by_cases backspace : char = '\x08'
  · subst backspace; rfl
  by_cases formFeed : char = '\x0c'
  · subst formFeed; rfl
  by_cases control : char.toNat < 0x20
  · have small : char.toNat < 65536 := by omega
    have valid : char.toNat.isValidChar := Or.inl (by omega)
    simp [escapeChar, backslash, lineFeed, carriageReturn, tab, backspace, formFeed, control,
      unit?, fourHexDigits, numericEscape?, fourHexValue?_fourHexDigits _ small, valid]
  by_cases delimiter : char = quote.delimiter
  · cases quote <;> (subst delimiter; rfl)
  · simp [escapeChar, backslash, lineFeed, carriageReturn, tab, backspace, formFeed, control,
      delimiter, unit?]

/-- No escaped form begins with the delimiter. -/
theorem after?_escapeChar (quote : Quote) (more : Text) (char : Char) (rest : Text) :
    Text.after? (quote.delimiter :: more) (escapeChar quote char ++ rest) = none := by
  have escaped (behind : Text) : Text.after? (quote.delimiter :: more) ('\\' :: behind) = none := by
    cases quote <;> rfl
  unfold escapeChar
  split
  · exact escaped _
  split
  · exact escaped _
  split
  · exact escaped _
  split
  · exact escaped _
  split
  · exact escaped _
  split
  · exact escaped _
  split
  · exact escaped _
  split
  · exact escaped _
  case isFalse delimiter =>
    exact if_neg (Ne.symm delimiter)

/-- An escaped body is read back, and reading it stops at its closing delimiter. -/
theorem body?_escape (quote : Quote) (more text rest : Text) :
    body? (quote.delimiter :: more) (escape quote text ++ (quote.delimiter :: more ++ rest)) =
      some (text, rest) := by
  induction text with
  | nil => exact body?_of_closed ((Text.after?_eq_some_iff _ _ _).mpr rfl)
  | cons char text ih =>
      have split : escape quote (char :: text) = escapeChar quote char ++ escape quote text := rfl
      rw [split, List.append_assoc,
        body?_of_unit (after?_escapeChar quote more char _) (unit?_escapeChar quote char _), ih]
      rfl

/-! ## Plain bodies -/

/-- A character that needs no escape between double quotes. -/
def IsPlain (char : Char) : Prop :=
  0x20 ≤ char.toNat ∧ char ≠ '\x22' ∧ char ≠ '\\'

instance (char : Char) : Decidable (IsPlain char) :=
  inferInstanceAs (Decidable (_ ∧ _ ∧ _))

theorem escapeChar_of_isPlain {char : Char} (plain : IsPlain char) :
    escapeChar .double char = [char] := by
  obtain ⟨printable, quote, backslash⟩ := plain
  have visible (control : Char) (low : control.toNat < 0x20) : char ≠ control := by
    intro same
    subst same
    omega
  simp [escapeChar, backslash, visible '\n' (by decide), visible '\r' (by decide),
    visible '\t' (by decide), visible '\x08' (by decide), visible '\x0c' (by decide),
    Nat.not_lt.mpr printable, Quote.delimiter, quote]

/-- A text of plain characters is a body that stands for itself. -/
theorem escape_of_isPlain {text : Text} (plain : ∀ char ∈ text, IsPlain char) :
    escape .double text = text := by
  induction text with
  | nil => rfl
  | cons char text ih =>
      have split : escape .double (char :: text) =
          escapeChar .double char ++ escape .double text := rfl
      rw [split, escapeChar_of_isPlain (plain char List.mem_cons_self),
        ih fun other member => plain other (List.mem_cons_of_mem _ member)]
      rfl

end SparqlText.Literal
