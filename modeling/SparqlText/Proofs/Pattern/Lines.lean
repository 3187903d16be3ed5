/-
# Blocks and what they are written from

The text of a block is a line for its subject and a line for each pair. Where no part of it
breaks a line and no predicate holds a space, the subject and the pairs can be read back from
the text and the width of the indent: a line is divided at its first space behind the indent,
and the mark at its end is known by its place alone. So an object may hold spaces, and it may
end in what looks like a mark.
-/

import Mathlib.Data.List.DropRight
import SparqlText.Pattern
import SparqlText.Proofs.Text.Runs

namespace SparqlText.Pattern

/-! ## Lines -/

/-- A line of a block without the line break in front of it. -/
def lineText (indentation : Text) (pair : Pair) (mark : Char) : Text :=
  indentation ++ pair.predicate ++ ' ' :: pair.object ++ [' ', mark]

/-- The lines of a block behind the one of its subject. -/
def lineTexts (indentation : Text) : List Pair → List Text
  | [] => []
  | [pair] => [lineText indentation pair '.']
  | pair :: next :: rest => lineText indentation pair ';' :: lineTexts indentation (next :: rest)

/-- All lines but the last are written with a semicolon, and that one with a full stop. -/
theorem lineTexts_concat (indentation : Text) (front : List Pair) (last : Pair) :
    lineTexts indentation (front ++ [last]) =
      front.map (lineText indentation · ';') ++ [lineText indentation last '.'] := by
  induction front with
  | nil => rfl
  | cons pair front ih =>
      rw [List.map_cons, List.cons_append, List.cons_append, ← ih]
      cases front with
      | nil => rfl
      | cons next rest => rfl

/-- A block is its lines with line breaks between them. -/
theorem append_lines (indentation subject : Text) (pairs : List Pair) :
    subject ++ lines indentation pairs =
      ['\n'].intercalate (subject :: lineTexts indentation pairs) := by
  fun_induction lineTexts indentation pairs generalizing subject with
  | case1 => simp [lines]
  | case2 pair => simp [lines, line, lineText]
  | case3 pair next rest ih =>
      rw [List.intercalate_cons_cons, ← ih]
      simp [lines, line, lineText]

/-- A subject and pairs that keep to their places in a block: there is a pair, no part breaks a
line, and no predicate holds a space. -/
structure Separable (subject : Text) (pairs : List Pair) : Prop where
  occupied : pairs ≠ []
  subject : '\n' ∉ subject
  predicates : ∀ pair ∈ pairs, '\n' ∉ pair.predicate ∧ ' ' ∉ pair.predicate
  objects : ∀ pair ∈ pairs, '\n' ∉ pair.object

variable {subject text : Text} {pairs : List Pair} {config : RenderConfig}

theorem Separable.exists_concat (separable : Separable subject pairs) :
    ∃ front last, pairs = front ++ [last] :=
  (List.eq_nil_or_concat' pairs).resolve_left separable.occupied

theorem not_mem_lineText {width : Nat} {pair : Pair} {mark : Char} (other : mark ≠ '\n')
    (predicate : '\n' ∉ pair.predicate) (object : '\n' ∉ pair.object) :
    '\n' ∉ lineText (List.replicate width ' ') pair mark := by
  simp [lineText, predicate, object, other.symm]

/-- No line of a block is broken. -/
theorem Separable.not_mem_lineTexts (separable : Separable subject pairs) (width : Nat) :
    ∀ line ∈ lineTexts (List.replicate width ' ') pairs, '\n' ∉ line := by
  obtain ⟨front, last, rfl⟩ := separable.exists_concat
  have unbroken {mark : Char} (other : mark ≠ '\n') :
      ∀ pair ∈ front ++ [last], '\n' ∉ lineText (List.replicate width ' ') pair mark :=
    fun pair member => not_mem_lineText other (separable.predicates pair member).1
      (separable.objects pair member)
  rw [lineTexts_concat]
  intro line member
  rcases List.mem_append.mp member with before | ending
  · obtain ⟨pair, among, rfl⟩ := List.mem_map.mp before
    exact unbroken (by decide) pair (List.mem_append_left _ among)
  · rw [List.mem_singleton.mp ending]
    exact unbroken (by decide) last (List.mem_append_right _ List.mem_cons_self)

/-- A block is written wherever the indent is. -/
theorem block?_eq_some_iff (occupied : pairs ≠ []) :
    block? config subject pairs = some text ↔
      config.indent ≤ RenderConfig.widestIndent ∧
        text = subject ++ lines (List.replicate config.indent ' ') pairs := by
  rw [block?, if_neg (by simpa using occupied), RenderConfig.indentation?]
  split
  case isTrue narrow => simp [narrow, eq_comm]
  case isFalse wide => simp [wide]

/-- The lines of a block are the one of its subject and those of its pairs. -/
theorem Separable.splitOn_block (separable : Separable subject pairs)
    (written : block? config subject pairs = some text) :
    text.splitOn '\n' = subject :: lineTexts (List.replicate config.indent ' ') pairs := by
  obtain ⟨_, rfl⟩ := (block?_eq_some_iff separable.occupied).mp written
  rw [append_lines]
  exact List.splitOn_intercalate '\n'
    (List.forall_mem_cons.mpr ⟨separable.subject, separable.not_mem_lineTexts config.indent⟩)
    (List.cons_ne_nil _ _)

/-! ## Reading back -/

/-- The pair on a line that is indented by `width`. The two characters at the end of the line
are a space and a mark, whatever they are. -/
def pairOfLine (width : Nat) (line : Text) : Pair where
  predicate := (line.drop width).takeWhile (· != ' ')
  object := ((line.drop width).dropWhile (· != ' ')).tail.rdrop 2

theorem pairOfLine_lineText (width : Nat) {pair : Pair} (solid : ' ' ∉ pair.predicate)
    (mark : Char) : pairOfLine width (lineText (List.replicate width ' ') pair mark) = pair := by
  have stop : (' ' != ' ') = false := by decide
  have inside : ∀ char ∈ pair.predicate, (char != ' ') = true := by
    intro char member
    rw [bne_iff_ne]
    rintro rfl
    exact solid member
  have behind : (lineText (List.replicate width ' ') pair mark).drop width =
      pair.predicate ++ ' ' :: (pair.object ++ [' ', mark]) := by
    simp [lineText]
  rw [pairOfLine, behind, Text.takeWhile_run inside stop, Text.dropWhile_run inside stop,
    List.tail_cons]
  exact congrArg (Pair.mk pair.predicate) List.rdrop_append_length

/-- The subject and the pairs that a block says. -/
def unblock (width : Nat) (text : Text) : Text × List Pair :=
  ((text.splitOn '\n').headD [], (text.splitOn '\n').tail.map (pairOfLine width))

/-- What a block is read as is what it was written from. -/
theorem Separable.unblock_block (separable : Separable subject pairs)
    (written : block? config subject pairs = some text) :
    unblock config.indent text = (subject, pairs) := by
  have each (mark : Char) : ∀ pair ∈ pairs,
      pairOfLine config.indent (lineText (List.replicate config.indent ' ') pair mark) = pair :=
    fun pair member => pairOfLine_lineText _ (separable.predicates pair member).2 mark
  have all : (lineTexts (List.replicate config.indent ' ') pairs).map
      (pairOfLine config.indent) = pairs := by
    obtain ⟨front, last, rfl⟩ := separable.exists_concat
    have ended := each '.' last (List.mem_append_right _ List.mem_cons_self)
    have others : front.map (pairOfLine config.indent ∘
        (lineText (List.replicate config.indent ' ') · ';')) = front :=
      (List.map_congr_left fun pair member =>
        each ';' pair (List.mem_append_left _ member)).trans (List.map_id front)
    rw [lineTexts_concat, List.map_append, List.map_map, others, List.map_singleton, ended]
  rw [unblock, separable.splitOn_block written, List.tail_cons, all]
  rfl

/-- A block with pairs has a text wherever the indent can be written, and two blocks of one
indent have the same text only where they have the same subject and the same pairs. Behind the
line of the subject there is one line for each pair; all but the last end in a semicolon, and
the last one in a full stop. -/
theorem block?_lossless (separable : Separable subject pairs) :
    ((∃ text, block? config subject pairs = some text) ↔
      config.indent ≤ RenderConfig.widestIndent) ∧
    ∀ text, block? config subject pairs = some text →
      (∀ (config' : RenderConfig) (subject' : Text) (pairs' : List Pair),
        config'.indent = config.indent → Separable subject' pairs' →
          block? config' subject' pairs' = some text → subject' = subject ∧ pairs' = pairs) ∧
      ∃ front last, text.splitOn '\n' = subject :: (front ++ [last]) ∧
        (front ++ [last]).length = pairs.length ∧
        (∀ line ∈ front, [' ', ';'] <:+ line) ∧ [' ', '.'] <:+ last := by
  constructor
  · simp [block?_eq_some_iff separable.occupied]
  intro text written
  constructor
  · intro config' subject' pairs' same separable' written'
    have read := separable.unblock_block written
    rw [← same, separable'.unblock_block written', Prod.mk.injEq] at read
    exact read
  · have divided := separable.splitOn_block written
    obtain ⟨front, last, rfl⟩ := separable.exists_concat
    rw [lineTexts_concat] at divided
    refine ⟨_, _, divided, by simp, ?_, List.suffix_append _ _⟩
    intro line member
    obtain ⟨pair, -, rfl⟩ := List.mem_map.mp member
    exact List.suffix_append _ _

/-- Without an indent, with an empty predicate, and with objects that end in either mark. -/
theorem block?_lossless_marks :
    let config : RenderConfig := { indent := 0 }
    let pairs : List Pair :=
      [⟨['p'], "x ;".toList⟩, ⟨[], "a . ;".toList⟩, ⟨['p'], " .".toList⟩]
    let text := "?s\np x ; ;\n a . ; ;\np  . .".toList
    Separable ['?', 's'] pairs ∧ block? config ['?', 's'] pairs = some text ∧
      (∀ (config' : RenderConfig) (subject' : Text) (pairs' : List Pair),
        config'.indent = config.indent → Separable subject' pairs' →
          block? config' subject' pairs' = some text →
            subject' = ['?', 's'] ∧ pairs' = pairs) ∧
      ∃ front last, text.splitOn '\n' = ['?', 's'] :: (front ++ [last]) ∧
        (front ++ [last]).length = pairs.length ∧
        (∀ line ∈ front, [' ', ';'] <:+ line) ∧ [' ', '.'] <:+ last := by
  intro config pairs text
  have separable : Separable ['?', 's'] pairs :=
    ⟨by decide, by decide, by decide, by decide⟩
  have written : block? config ['?', 's'] pairs = some text := by decide
  exact ⟨separable, written, (block?_lossless separable).2 text written⟩

/-- A space in a predicate could as well be the one behind it. -/
example : block? .standard ['?', 's'] [⟨"p q".toList, ['o']⟩] =
    block? .standard ['?', 's'] [⟨['p'], "q o".toList⟩] := by decide

end SparqlText.Pattern
