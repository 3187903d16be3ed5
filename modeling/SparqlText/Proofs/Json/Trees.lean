/-
# Written trees

A tree is read back from its written form in two steps. Its tokens are read back from the text:
a mark or a string ends where it ends, and a word, which would run on into letters, is followed
by a mark or by nothing. The tree is read back from its tokens by the machine, which finishes a
value with the stack that it began the value with.

The first step is shown for trees without numerals, in which every string denotes a text; the
second holds of every tree.
-/

import SparqlText.Json.Tree
import SparqlText.Proofs.Json.Quoted
import SparqlText.Proofs.Text.Runs

namespace SparqlText.Json

/-! ## Tokens from a text -/

namespace Token

/-- A text that a word does not run on into. -/
def EndsWord (text : Text) : Prop := ∀ char ∈ text.head?, char.isAlpha = false

/-- The texts of tokens, one behind the other. -/
def spelled (tokens : List Token) : Text := tokens.flatMap written

theorem spelled_append (first second : List Token) :
    spelled (first ++ second) = spelled first ++ spelled second :=
  List.flatMap_append

/-- A token that is read is the first one of its text. -/
theorem all?_of_next? {first : Char} {rest after : Text} {token : Token}
    (solid : Text.isLayout first = false) (taken : next? (first :: rest) = some (token, after)) :
    all? (first :: rest) = (all? after).map (token :: ·) := by
  rw [all?, if_neg (by simp [solid])]
  split
  case h_1 missing =>
    rw [taken] at missing
    cases missing
  case h_2 same =>
    rw [taken] at same
    cases same
    rfl

/-- A mark is neither white space nor a letter. -/
theorem apart_of_mark {char : Char} {mark : Token} (known : ofMark? char = some mark) :
    Text.isLayout char = false ∧ char.isAlpha = false := by
  have each : ∀ char ∈ ['[', ']', '\x7b', '\x7d', ':', ','],
      (!Text.isLayout char && !char.isAlpha) = true := List.all_eq_true.mp rfl
  have among : char ∈ ['[', ']', '\x7b', '\x7d', ':', ','] := by
    by_contra other
    simp only [List.mem_cons, List.not_mem_nil, or_false, not_or] at other
    simp [ofMark?, other] at known
  simpa using each char among

theorem all?_mark {char : Char} {mark : Token} (known : ofMark? char = some mark) (rest : Text) :
    all? (char :: rest) = (all? rest).map (mark :: ·) := by
  apply all?_of_next? (apart_of_mark known).1
  rw [next?, known]

theorem next?_string (text rest : Text) :
    next? ('\x22' :: (text.flatMap writtenChar ++ '\x22' :: rest)) =
      some (.string (some text), rest) := by
  have other : ofMark? '\x22' = none := by decide
  rw [next?, other, if_pos rfl, readBody?_flatMap_writtenChar, Option.map_some]
  dsimp only
  rw [textOfUnits?_scalars]

theorem all?_string (text rest : Text) :
    all? (writtenString (some text) ++ rest) =
      (all? rest).map (.string (some text) :: ·) := by
  have solid : Text.isLayout '\x22' = false := by decide
  have quoted : writtenString (some text) = '\x22' :: (text.flatMap writtenChar ++ ['\x22']) := rfl
  rw [quoted, List.cons_append, List.append_assoc]
  exact all?_of_next? solid (next?_string text rest)

/-- A word of letters is read whole where none follows. -/
theorem all?_word {first : Char} {letters rest : Text} {token : Token}
    (known : ofWord? (first :: letters) = some token)
    (inside : ∀ char ∈ first :: letters, char.isAlpha = true) (ends : EndsWord rest) :
    all? (first :: letters ++ rest) = (all? rest).map (token :: ·) := by
  obtain ⟨letter, others⟩ := List.forall_mem_cons.mp inside
  have bare : ofMark? first = none := by
    cases marked : ofMark? first with
    | none => rfl
    | some mark =>
        rw [(apart_of_mark marked).2] at letter
        cases letter
  have unquoted : first ≠ '\x22' := by
    rintro rfl
    exact absurd letter (by decide)
  have solid : Text.isLayout first = false := by
    rw [← Bool.not_eq_true]
    intro layout
    simp only [Text.isLayout, Bool.or_eq_true, beq_iff_eq] at layout
    rcases layout with ((rfl | rfl) | rfl) | rfl <;> exact absurd letter (by decide)
  have parts : (letters ++ rest).takeWhile Char.isAlpha = letters ∧
      (letters ++ rest).dropWhile Char.isAlpha = rest := by
    cases rest with
    | nil =>
        rw [List.append_nil]
        exact ⟨List.takeWhile_eq_self_iff.mpr others, List.dropWhile_eq_nil_iff.mpr others⟩
    | cons stop more =>
        exact ⟨Text.takeWhile_run others (ends stop rfl),
          Text.dropWhile_run others (ends stop rfl)⟩
  rw [List.cons_append]
  apply all?_of_next? solid
  rw [next?, bare]
  dsimp only
  rw [if_neg unquoted, if_pos letter, parts.1, parts.2, known]
  rfl

/-- Tokens that are read back from their texts, in front of whatever ends a word. -/
def Legible (tokens : List Token) : Prop :=
  ∀ rest, EndsWord rest → all? (spelled tokens ++ rest) = (all? rest).map (tokens ++ ·)

/-- A token that is written as a mark. -/
def IsMark (token : Token) : Prop :=
  ∃ char, token.written = [char] ∧ ofMark? char = some token

namespace Legible

variable {token : Token} {tokens behind : List Token}

theorem nil : Legible [] := fun rest _ => (Option.map_id' (x := all? rest)).symm

/-- What has been read of a text stands in front of the tokens of the rest. -/
theorem cons {text : Text} (written : token.written = text)
    (taken : ∀ rest, all? (text ++ rest) = (all? rest).map (token :: ·))
    (legible : Legible tokens) : Legible (token :: tokens) := by
  intro rest ends
  rw [spelled, List.flatMap_cons, written, List.append_assoc, taken]
  have later := legible rest ends
  rw [spelled] at later
  rw [later, Option.map_map]
  rfl

theorem cons_mark (mark : IsMark token) (legible : Legible tokens) : Legible (token :: tokens) := by
  obtain ⟨char, written, known⟩ := mark
  exact legible.cons written fun rest => all?_mark known rest

theorem cons_string (text : Text) (legible : Legible tokens) :
    Legible (.string (some text) :: tokens) :=
  legible.cons rfl fun rest => all?_string text rest

theorem word {first : Char} {letters : Text} (written : token.written = first :: letters)
    (known : ofWord? (first :: letters) = some token)
    (inside : ∀ char ∈ first :: letters, char.isAlpha = true) : Legible [token] := by
  intro rest ends
  rw [spelled, List.flatMap_singleton, written, all?_word known inside ends]
  rfl

/-- A mark ends whatever stands in front of it. -/
theorem append_mark (front : Legible tokens) (mark : IsMark token) (legible : Legible behind) :
    Legible (tokens ++ token :: behind) := by
  intro rest ends
  obtain ⟨char, written, known⟩ := id mark
  have stops : EndsWord (spelled (token :: behind) ++ rest) := by
    rw [spelled, List.flatMap_cons, written]
    intro first same
    cases same
    exact (apart_of_mark known).2
  rw [spelled_append, List.append_assoc, front _ stops, legible.cons_mark mark rest ends,
    Option.map_map]
  congr 1
  funext later
  exact (List.append_assoc tokens (token :: behind) later).symm

end Legible

end Token

/-! ## Trees without numerals -/

namespace Tree

/-- No numeral stands in the tree, and every string in it denotes a text. -/
inductive Textual : Tree → Prop
  | null : Textual .null
  | bool (value : Bool) : Textual (.bool value)
  | string (text : Text) : Textual (.string (some text))
  | array {items : List Tree} (each : ∀ item ∈ items, Textual item) : Textual (.array items)
  | object {members : List (Option Text × Tree)} (named : ∀ member ∈ members, member.1.isSome)
      (each : ∀ member ∈ members, Textual member.2) : Textual (.object members)

@[simp]
theorem textual_array_iff {items : List Tree} :
    (array items).Textual ↔ ∀ item ∈ items, item.Textual := by
  refine ⟨fun textual => ?_, .array⟩
  cases textual with
  | array each => exact each

@[simp]
theorem textual_object_iff {members : List (Option Text × Tree)} :
    (object members).Textual ↔ ∀ member ∈ members, member.1.isSome ∧ member.2.Textual := by
  refine ⟨fun textual => ?_, fun each => .object (fun member among => (each member among).1)
    fun member among => (each member among).2⟩
  cases textual with
  | object named each => exact fun member among => ⟨named member among, each member among⟩

theorem legible_tokensOfItems {items : List Tree}
    (each : ∀ item ∈ items, Token.Legible item.tokens) : Token.Legible (tokensOfItems items) := by
  induction items with
  | nil => exact .nil
  | cons item rest ih =>
      obtain ⟨first, others⟩ := List.forall_mem_cons.mp each
      cases rest with
      | nil => exact first
      | cons next rest => exact first.append_mark ⟨',', rfl, rfl⟩ (ih others)

theorem legible_tokensOfMembers {members : List (Option Text × Tree)}
    (named : ∀ member ∈ members, member.1.isSome)
    (each : ∀ member ∈ members, Token.Legible member.2.tokens) :
    Token.Legible (tokensOfMembers members) := by
  induction members with
  | nil => exact .nil
  | cons member rest ih =>
      obtain ⟨name, value⟩ := member
      obtain ⟨known, namesOfRest⟩ := List.forall_mem_cons.mp named
      obtain ⟨first, others⟩ := List.forall_mem_cons.mp each
      obtain ⟨text, rfl⟩ := Option.isSome_iff_exists.mp known
      cases rest with
      | nil => exact (first.cons_mark ⟨':', rfl, rfl⟩).cons_string text
      | cons next rest =>
          exact ((first.append_mark ⟨',', rfl, rfl⟩ (ih namesOfRest others)).cons_mark
            ⟨':', rfl, rfl⟩).cons_string text

theorem Textual.legible {tree : Tree} (textual : tree.Textual) : Token.Legible tree.tokens := by
  induction textual with
  | null => exact .word rfl rfl (List.all_eq_true.mp rfl)
  | bool value =>
      cases value with
      | false => exact .word rfl rfl (List.all_eq_true.mp rfl)
      | true => exact .word rfl rfl (List.all_eq_true.mp rfl)
  | string text => exact .cons_string text .nil
  | array each ih =>
      exact .cons_mark ⟨'[', rfl, rfl⟩
        ((legible_tokensOfItems ih).append_mark ⟨']', rfl, rfl⟩ .nil)
  | object named each ih =>
      exact .cons_mark ⟨'\x7b', rfl, rfl⟩
        ((legible_tokensOfMembers named ih).append_mark ⟨'\x7d', rfl, rfl⟩ .nil)

/-! ## Trees from tokens -/

mutual

/-- The machine reads the tokens of a tree as that tree, on top of the stack that it has. -/
theorem run_tokens : ∀ (tree : Tree) (closable : Bool) (frames : List Frame) (rest : List Token),
    run (.value closable) frames (tree.tokens ++ rest) = run (.after tree) frames rest
  | .null, _, _, _ => rfl
  | .bool _, _, _, _ => rfl
  | .number _, _, _, _ => rfl
  | .string _, _, _, _ => rfl
  | .array [], _, _, _ => rfl
  | .array (item :: items), _, frames, rest => by
      have read := run_tokensOfItems (item :: items) (List.cons_ne_nil _ _) true [] frames rest
      rw [tokens, List.cons_append, List.cons_append, List.append_assoc]
      exact read
  | .object [], _, _, _ => rfl
  | .object (member :: members), _, frames, rest => by
      have read :=
        run_tokensOfMembers (member :: members) (List.cons_ne_nil _ _) true [] frames rest
      rw [tokens, List.cons_append, List.cons_append, List.append_assoc]
      exact read

/-- The machine reads items behind those that an array has already. -/
theorem run_tokensOfItems : ∀ (items : List Tree), items ≠ [] → ∀ (closable : Bool)
    (before : List Tree) (frames : List Frame) (rest : List Token),
    run (.value closable) (.array before :: frames)
        (tokensOfItems items ++ .rightBracket :: rest) =
      run (.after (.array (before.reverse ++ items))) frames rest
  | [], occupied, _, _, _, _ => absurd rfl occupied
  | [item], _, closable, before, frames, rest => by
      rw [tokensOfItems, run_tokens item closable (.array before :: frames), run, step,
        List.reverse_cons]
  | item :: next :: items, _, closable, before, frames, rest => by
      have later := run_tokensOfItems (next :: items) (List.cons_ne_nil _ _) false
        (item :: before) frames rest
      rw [List.reverse_cons, List.append_assoc] at later
      rw [tokensOfItems, List.append_assoc, run_tokens item closable (.array before :: frames)]
      exact later

/-- The machine reads members behind those that an object has already. -/
theorem run_tokensOfMembers : ∀ (members : List (Option Text × Tree)), members ≠ [] →
    ∀ (closable : Bool) (before : List (Option Text × Tree)) (frames : List Frame)
      (rest : List Token),
    run (.name closable before) frames (tokensOfMembers members ++ .rightBrace :: rest) =
      run (.after (.object (before.reverse ++ members))) frames rest
  | [], occupied, _, _, _, _ => absurd rfl occupied
  | [(name, value)], _, closable, before, frames, rest => by
      have read := run_tokens value false (.object before name :: frames) (.rightBrace :: rest)
      rw [run, step, List.reverse_cons] at read
      rw [tokensOfMembers]
      exact read
  | (name, value) :: next :: members, _, closable, before, frames, rest => by
      have later := run_tokensOfMembers (next :: members) (List.cons_ne_nil _ _) false
        ((name, value) :: before) frames rest
      rw [List.reverse_cons, List.append_assoc] at later
      have read := run_tokens value false (.object before name :: frames)
        (.comma :: tokensOfMembers (next :: members) ++ .rightBrace :: rest)
      rw [tokensOfMembers, List.append_assoc]
      exact read.trans later

end

/-- A tree is read back from its tokens. -/
theorem ofTokens?_tokens (tree : Tree) : ofTokens? tree.tokens = some tree := by
  have read := run_tokens tree false [] []
  rw [List.append_nil] at read
  exact read

/-- A tree without numerals is read back from its written form. -/
theorem Textual.read?_eq {tree : Tree} (textual : tree.Textual) :
    read? tree.written = some tree := by
  have none : Token.EndsWord [] := nofun
  have all := textual.legible [] none
  rw [List.append_nil, Token.all?, Option.map_some, List.append_nil] at all
  have same : tree.written = Token.spelled tree.tokens := rfl
  rw [read?, same, all, Option.bind_some, ofTokens?_tokens]

end Tree

end SparqlText.Json
