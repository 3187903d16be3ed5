/-
# Texts that spell tokens

A text spells tokens if it is read as them wherever layout or nothing follows it.
This is what makes texts compose: two texts with a space between them spell the
tokens of the one and then those of the other, and what stands inside the one
cannot reach into the other.

The words and literals that are built as terms spell one token each, under conditions
on the characters of their parts.
-/

import SparqlText.Proofs.Text.Runs
import SparqlText.Proofs.Token.Lexer

namespace SparqlText.Lexer

/-! ## Boundaries -/

/-- A text before which a token may end: nothing, or one that begins with layout. -/
def Boundary (rest : Text) : Prop :=
  ∀ char, rest.head? = some char → Text.isLayout char = true

theorem boundary_nil : Boundary [] := nofun

theorem boundary_space (rest : Text) : Boundary (' ' :: rest) := by
  intro char first
  cases first
  rfl

/-- A class of characters that layout does not belong to. -/
def ExcludesLayout (p : Char → Bool) : Prop :=
  ∀ char, Text.isLayout char = true → p char = false

theorem excludesLayout_of {p : Char → Bool} (space : p ' ' = false) (tab : p '\t' = false)
    (carriageReturn : p '\r' = false) (lineFeed : p '\n' = false) : ExcludesLayout p := by
  intro char layout
  simp only [Text.isLayout, Bool.or_eq_true, beq_iff_eq] at layout
  rcases layout with ((rfl | rfl) | rfl) | rfl
  · exact space
  · exact tab
  · exact carriageReturn
  · exact lineFeed

/-- A run of characters of a class ends at a boundary. -/
theorem takeWhile_of_boundary {p : Char → Bool} {run rest : Text} (outside : ExcludesLayout p)
    (inside : ∀ char ∈ run, p char = true) (boundary : Boundary rest) :
    (run ++ rest).takeWhile p = run ∧ (run ++ rest).dropWhile p = rest := by
  cases rest with
  | nil =>
      rw [List.takeWhile_append_of_pos inside, List.dropWhile_append_of_pos inside]
      exact ⟨List.append_nil run, rfl⟩
  | cons char rest =>
      have stop := outside char (boundary char rfl)
      exact ⟨Text.takeWhile_run inside stop, Text.dropWhile_run inside stop⟩

/-! ## Reading one thing -/

/-- A reader reads a text as a value and takes all of it, wherever a token may end
behind it. -/
def Reads {α : Type} (reader : Text → Option (α × Text)) (text : Text) (value : α) : Prop :=
  ∀ rest, Boundary rest → reader (text ++ rest) = some (value, rest)

theorem reads_reference {iri : Text} (clean : ∀ char ∈ iri, isReferenceChar char = true) :
    Reads word? ('<' :: iri ++ ['>']) (.reference iri) := by
  intro rest _
  have stop : isReferenceChar '>' = false := by decide
  simp only [word?, List.cons_append, List.append_assoc, List.nil_append,
    Text.takeWhile_run clean stop, Text.dropWhile_run clean stop]

theorem excludesLayout_isNameChar : ExcludesLayout isNameChar :=
  excludesLayout_of (by decide) (by decide) (by decide) (by decide)

theorem reads_name {text : Text} (nonempty : text ≠ [])
    (clean : ∀ char ∈ text, isNameChar char = true) : Reads word? text (.name text) := by
  intro rest boundary
  obtain ⟨first, more, rfl⟩ := List.exists_cons_of_ne_nil nonempty
  obtain ⟨run, after⟩ := takeWhile_of_boundary excludesLayout_isNameChar clean boundary
  have other : first ≠ '<' := by
    intro same
    subst same
    have named := clean '<' List.mem_cons_self
    exact absurd named (by decide)
  unfold word?
  split
  case h_1 same =>
    rw [List.cons_append, List.cons.injEq] at same
    exact absurd same.1 other
  case h_2 =>
    simp only [run, after]

theorem isTagChar_of_isSubtags {text : Text} :
    ∀ {expecting : Bool}, Name.isSubtags expecting text = true →
      ∀ char ∈ text, isTagChar char = true := by
  induction text with
  | nil => exact fun _ => nofun
  | cons first text ih =>
      intro expecting accepted char member
      rw [Name.isSubtags] at accepted
      split at accepted
      case isTrue hyphen =>
        cases member with
        | head => simp [isTagChar, hyphen]
        | tail _ member => exact ih (Bool.and_eq_true_iff.mp accepted).2 char member
      case isFalse =>
        obtain ⟨letter, accepted⟩ := Bool.and_eq_true_iff.mp accepted
        cases member with
        | head => simp [isTagChar, letter]
        | tail _ member => exact ih accepted char member

theorem isTagChar_of_isLanguageTag {tag : Text} (accepted : Name.isLanguageTag tag = true) :
    ∀ char ∈ tag, isTagChar char = true := by
  have lead : ∀ char ∈ tag.takeWhile Char.isAlpha, isTagChar char = true := by
    intro char member
    have letter : char.isAlpha = true := Text.takeWhile_inside tag char member
    simp [isTagChar, Char.isAlphanum, letter]
  have others : ∀ char ∈ tag.dropWhile Char.isAlpha, isTagChar char = true := by
    intro char member
    rw [Name.isLanguageTag, Bool.and_eq_true_iff] at accepted
    have subtags := accepted.2
    split at subtags
    case h_1 ends =>
      rw [ends] at member
      cases member
    case h_2 first rest ends =>
      rw [Bool.and_eq_true_iff, beq_iff_eq] at subtags
      rw [ends] at member
      cases member with
      | head => simp [isTagChar, subtags.1]
      | tail _ member => exact isTagChar_of_isSubtags subtags.2 char member
  intro char member
  rw [← List.takeWhile_append_dropWhile (p := Char.isAlpha) (l := tag)] at member
  cases List.mem_append.mp member with
  | inl member => exact lead char member
  | inr member => exact others char member

theorem reads_datatype {text : Text} {word : Word} (spelled : Reads word? text word) :
    Reads kind? ('^' :: '^' :: text) (.datatype word) := by
  intro rest boundary
  have read := spelled rest boundary
  simp only [List.cons_append, kind?, read, Option.map_some]

theorem reads_language {tag : Text} (accepted : Name.isLanguageTag tag = true) :
    Reads kind? ('@' :: tag) (.language tag) := by
  intro rest boundary
  have outside : ExcludesLayout isTagChar :=
    excludesLayout_of (by decide) (by decide) (by decide) (by decide)
  obtain ⟨run, after⟩ :=
    takeWhile_of_boundary outside (isTagChar_of_isLanguageTag accepted) boundary
  simp only [List.cons_append, kind?, run, after, accepted, if_true]

/-! ## Literals -/

theorem word?_quote (rest : Text) : word? ('\x22' :: rest) = none := rfl

/-- A literal is read as the text that its body stands for, if it is known what
follows its opening delimiter. -/
theorem token?_of_opening {text inside behind after body delimiter : Text}
    {kind : LiteralKind} (opened : opening? ('\x22' :: text) = some (delimiter, inside))
    (read : Literal.body? delimiter inside = some (body, behind))
    (said : kind? behind = some (kind, after)) :
    token? ('\x22' :: text) = some (.literal body kind, after) := by
  have whole : literal? ('\x22' :: text) = some (.literal body kind, after) := by
    simp only [literal?, opened, read, said, Option.bind_eq_bind, Option.bind_some, Option.pure_def]
  rw [token?, word?_quote]
  exact congrArg (Option.or · _) whole

/-- The long form of a literal. -/
theorem reads_long {text suffix : Text} {kind : LiteralKind}
    (spelled : Reads kind? suffix kind) :
    Reads token? (Literal.long text ++ suffix) (.literal text kind) := by
  intro rest boundary
  have read := Literal.body?_escape .double ['\x22', '\x22'] text (suffix ++ rest)
  have whole : Literal.long text ++ suffix ++ rest =
      '\x22' :: '\x22' :: '\x22' :: (Literal.escape .double text ++
        ('\x22' :: ['\x22', '\x22'] ++ (suffix ++ rest))) := by
    simp [Literal.long, Literal.longDelimiter]
  rw [whole]
  exact token?_of_opening rfl read (spelled rest boundary)

/-- The short form of a literal whose text needs no escapes. The datatype behind it
keeps it from being taken for the long form. -/
theorem reads_short {text suffix : Text} {kind : LiteralKind}
    (plain : ∀ char ∈ text, Literal.IsPlain char)
    (spelled : Reads kind? ('^' :: suffix) kind) :
    Reads token? ('\x22' :: text ++ '\x22' :: '^' :: suffix) (.literal text kind) := by
  intro rest boundary
  have read := Literal.body?_escape .double [] text ('^' :: suffix ++ rest)
  rw [Literal.escape_of_isPlain plain] at read
  have whole : '\x22' :: text ++ '\x22' :: '^' :: suffix ++ rest =
      '\x22' :: (text ++ ('\x22' :: [] ++ ('^' :: suffix ++ rest))) := by simp
  rw [whole]
  refine token?_of_opening ?_ read (spelled rest boundary)
  cases text with
  | nil => rfl
  | cons first more =>
      have other : '\x22' ≠ first := Ne.symm (plain first List.mem_cons_self).2.1
      simp [opening?, delimiters, Text.after?, Quote.delimiter, other]

/-! ## Spelling tokens -/

/-- A text is read as the given tokens, wherever a token may end behind it. -/
def Spells (text : Text) (tokens : List Token) : Prop :=
  ∀ rest, Boundary rest → tokens? (text ++ rest) = (tokens? rest).map (tokens ++ ·)

/-- A text that spells tokens has them as a whole. -/
theorem Spells.tokens?_eq {text : Text} {tokens : List Token} (spelled : Spells text tokens) :
    tokens? text = some tokens := by
  have whole := spelled [] boundary_nil
  rw [List.append_nil, tokens?_nil] at whole
  simpa using whole

/-- With a space between them, two texts spell the tokens of both. -/
theorem Spells.spaced {first second : Text} {before after : List Token}
    (left : Spells first before) (right : Spells second after) :
    Spells (first ++ ' ' :: second) (before ++ after) := by
  intro rest boundary
  rw [List.append_assoc, List.cons_append, left _ (boundary_space _), tokens?_layout (by decide),
    right rest boundary, Option.map_map]
  exact congrArg (Option.map · _) (funext fun later => (List.append_assoc _ _ later).symm)

theorem not_token?_of_layout {char : Char} (layout : Text.isLayout char = true) (rest : Text) :
    token? (char :: rest) = none := by
  simp only [Text.isLayout, Bool.or_eq_true, beq_iff_eq] at layout
  rcases layout with ((rfl | rfl) | rfl) | rfl <;> rfl

/-- A text that is read as one token spells it. -/
theorem Reads.spells {text : Text} {token : Token} (read : Reads token? text token) :
    Spells text [token] := by
  intro rest boundary
  have taken := read rest boundary
  cases whole : text ++ rest with
  | nil =>
      rw [whole] at taken
      cases taken
  | cons char more =>
      rw [whole] at taken
      have visible : Text.isLayout char = false := by
        rw [← Bool.not_eq_true]
        intro layout
        rw [not_token?_of_layout layout] at taken
        cases taken
      exact tokens?_token visible taken

theorem Reads.token {text : Text} {word : Word} (read : Reads word? text word) :
    Reads token? text (.ofWord word) := by
  intro rest boundary
  rw [token?, read rest boundary]

theorem spells_mark (char : Char) (mark : char ∈ marks) : Spells [char] [.mark char] := by
  apply Reads.spells
  intro rest _
  simp only [marks, List.mem_cons, List.not_mem_nil, or_false] at mark
  rcases mark with rfl | rfl | rfl | rfl | rfl <;> rfl

end SparqlText.Lexer
