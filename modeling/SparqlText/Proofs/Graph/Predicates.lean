/-
# What is written in predicate position

Predicates are given as text in six places: for a property or a link of a node, for a
statement and for a property of one, as the key of a record, and in the brackets of an arrow.
An arrow refuses blank nodes, and what it writes is always a verb. The others go by the text
alone: what they accept and is no blank node is written as a verb, and a blank node is
written as it was given, in predicate position too.
-/

import Mathlib.Data.List.Forall2
import SparqlText.Graph.Walk
import SparqlText.Proofs.Arrow.Reading
import SparqlText.Proofs.Graph.WellFormed
import SparqlText.Proofs.Term.Verb
import SparqlText.Proofs.Value.Nulls
import SparqlText.Proofs.Value.Tokens

namespace SparqlText

/-- The pairs of a block after a call are those before it and at least one more, all of them
under one predicate. -/
def AddsUnder (predicate : Text) (before after : List Pair) : Prop :=
  ∃ objects : List Text, objects ≠ [] ∧ after.Perm (before ++ objects.map (Pair.mk predicate))

/-! ## Nodes -/

/-- The text that an edit is given as a predicate. -/
def Edit.predicate? : Edit → Option Text
  | .type _ => none
  | .property predicate _ => some predicate
  | .link predicate _ => some predicate

namespace Graph

variable {graph next : Graph} {given : Text}

/-- An edit with a predicate resolves it and adds something under it. -/
theorem update_of_predicate {edit : Edit} {update : Node → Node}
    (named : edit.predicate? = some given) (updated : graph.update edit = .ok update) :
    ∃ predicate held, Term.predicate graph.config given = .ok predicate ∧ held ≠ [] ∧
      update = Node.withHeld predicate held := by
  cases makes_of_update updated with
  | type _ => cases named
  | property resolved converted =>
      cases named
      exact ⟨_, _, resolved,
        mt List.map_eq_nil_iff.mp (ne_nil_of_convertedValues converted), rfl⟩
  | link _ resolved =>
      cases named
      exact ⟨_, _, resolved, List.cons_ne_nil _ _, rfl⟩

/-- Accumulation adds the pairs of what is held, wherever the group stands. -/
theorem perm_pairs_accumulate (graph : Graph) (predicate : Term) (held : List Held)
    (groups : List Group) :
    ((Node.accumulate predicate held groups).flatMap graph.groupPairs).Perm
      (groups.flatMap graph.groupPairs ++
        held.map fun held => ⟨predicate.text, graph.objectText held⟩) := by
  induction groups with
  | nil => simp [Node.accumulate, groupPairs]
  | cons group rest ih =>
      rw [Node.accumulate]
      split
      case isTrue same =>
        subst same
        simp only [List.flatMap_cons, groupPairs, List.map_append, List.append_assoc]
        exact List.perm_append_comm.append_left _
      case isFalse =>
        simp only [List.flatMap_cons, List.append_assoc]
        exact ih.append_left _

theorem addsUnder_withHeld (graph : Graph) (predicate : Term) {held : List Held}
    (some : held ≠ []) (node : Node) :
    AddsUnder predicate.text (graph.pairs node) (graph.pairs (node.withHeld predicate held)) := by
  refine ⟨held.map graph.objectText, by simpa using some, ?_⟩
  rw [List.map_map, pairs, pairs, List.append_assoc]
  exact (perm_pairs_accumulate graph predicate held node.groups).append_left _

/-- An edit leaves the pairs of a node as they are, apart from what it adds to the node. -/
theorem pairs_edit {id : NodeId} {edit : Edit} (edited : graph.edit id edit = .ok next) :
    next.pairs = graph.pairs := by
  have subjects : next.subject? = graph.subject? := funext (subject?_edit edited)
  have objects : next.objectText = graph.objectText := by
    funext held
    cases held with
    | term term => rfl
    | node id => rw [objectText, objectText, subjects]
  have groups : next.groupPairs = graph.groupPairs := by
    funext group
    rw [groupPairs, groupPairs, objects]
  funext node
  rw [pairs, pairs, groups]

theorem predicates_of_edit {id : NodeId} {edit : Edit} (named : edit.predicate? = some given)
    (edited : graph.edit id edit = .ok next) :
    ∃ node changed written, graph.nodes[id]? = some node ∧ next.nodes[id]? = some changed ∧
      AddsUnder written (graph.pairs node) (next.pairs changed) ∧
      (Term.Verb graph.config written ↔ ¬Term.NamesBlankNode graph.config given) := by
  rw [pairs_edit edited]
  obtain ⟨within, update, updated, rfl⟩ := edit_eq_ok edited
  obtain ⟨predicate, held, resolved, some, rfl⟩ := update_of_predicate named updated
  obtain ⟨node, -, found⟩ := exists_node_of_lt within
  refine ⟨node, node.withHeld predicate held, predicate.text, found, ?_,
    addsUnder_withHeld graph predicate some node,
    (Term.predicateText_of_predicate resolved).verb_iff⟩
  rw [change, List.getElem?_modify_eq, found]
  rfl

end Graph

/-! ## Statements -/

namespace Relationship

variable {config : RenderConfig} {given : Text}

theorem predicates_of_between {source target : Term} {relationship : Relationship}
    (built : between config source given target = .ok relationship) :
    ∃ written, relationship.base = Pattern.triple source.text written target.text ∧
      (Term.Verb config written ↔ ¬Term.NamesBlankNode config given) := by
  rw [between] at built
  split at built
  case h_1 => cases built
  case h_2 predicate resolved =>
    cases built
    exact ⟨predicate.text, rfl, (Term.predicateText_of_reference resolved).verb_iff⟩

theorem predicates_of_withPropertyUnder {relationship next : Relationship} {value : Value}
    (qualified : relationship.withPropertyUnder config given value = .ok next) :
    ∃ written, AddsUnder written relationship.pairs next.pairs ∧
      (Term.Verb config written ↔ ¬Term.NamesBlankNode config given) := by
  rw [withPropertyUnder_eq] at qualified
  split at qualified
  case h_1 => cases qualified
  case h_2 predicate resolved =>
    split at qualified
    case h_1 => cases qualified
    case h_2 objects converted =>
      cases qualified
      refine ⟨predicate.text, ⟨objects.map Term.text, ?_, ?_⟩,
        (Term.predicateText_of_predicate resolved).verb_iff⟩
      · exact mt List.map_eq_nil_iff.mp (Graph.ne_nil_of_convertedValues converted)
      · rw [pairs, pairs, List.map_append, List.map_map, List.map_map, ← List.append_assoc]
        exact List.Perm.refl _

end Relationship

/-! ## Records -/

/-- An entry under a name is written with a predicate and an object, and the predicate is a verb
unless the name is a blank node. -/
def Value.Entered (config : RenderConfig) (given : Text) (entry : Key × Value) (text : Text) :
    Prop :=
  entry.1 = .name given →
    ∃ written object, text = written ++ ' ' :: object ∧
      (Term.Verb config written ↔ ¬Term.NamesBlankNode config given)

theorem Value.entered_entryTexts {config : RenderConfig} {strict : Bool}
    {entries : List (Key × Value)} {texts : List Text}
    (converted : Value.entryTexts config strict entries = .ok texts) (given : Text) :
    List.Forall₂ (Value.Entered config given) entries texts := by
  induction entries generalizing texts with
  | nil =>
      cases converted
      exact .nil
  | cons entry rest ih =>
      obtain ⟨key, value⟩ := entry
      rw [Value.entryTexts] at converted
      split at converted
      case h_1 => cases converted
      case h_2 predicate resolved =>
        split at converted
        case h_1 => cases converted
        case h_2 object _ =>
          split at converted
          case h_1 => cases converted
          case h_2 later others =>
            cases converted
            refine .cons ?_ (ih others)
            rintro rfl
            have accepted := Value.orRefused_eq_ok_iff.mp resolved
            exact ⟨predicate.text, object.text, rfl,
              (Term.predicateText_of_predicate accepted).verb_iff⟩

theorem Value.predicates_of_record {config : RenderConfig} {strict : Bool}
    {entries : List (Key × Value)} {term : Term}
    (converted : Value.toTerm config strict (.record entries) = .ok term) (given : Text) :
    ∃ texts, term = Value.recordTerm texts ∧
      List.Forall₂ (Value.Entered config given) entries texts := by
  cases entries with
  | nil => cases converted
  | cons first rest =>
      rw [Value.toTerm_record (List.cons_ne_nil first rest)] at converted
      split at converted
      case h_1 => cases converted
      case h_2 texts taken =>
        cases converted
        exact ⟨texts, rfl, Value.entered_entryTexts taken given⟩

/-! ## Arrows -/

namespace ArrowPattern

variable {config : RenderConfig}

/-- What stands between the brackets of an arrow is written as a verb. -/
theorem Predicate.verb {inner : Text} {predicate : Term}
    (within : Predicate config inner predicate) : Term.Verb config predicate.text := by
  have apart : ¬Term.blankMark <+: predicate.text := by
    intro lead
    have marked : predicate.isBlankNode = true := List.isPrefixOf_iff_prefix.mpr lead
    rw [within.named] at marked
    cases marked
  exact (Term.form_of_predicate within.resolved).verb apart

theorem Arrows.verb {left : Nat} {arrows : List Symbol} {edges : List Edge}
    (linked : Arrows config left arrows edges) :
    ∀ edge ∈ edges, Term.Verb config edge.predicate.text := by
  induction linked with
  | none => exact nofun
  | @arrow left before inner after direction predicate rest edges _ within _ _ ih =>
      have first : Term.Verb config (direction.edge left predicate).predicate.text := by
        cases direction <;> exact within.verb
      exact List.forall_mem_cons.mpr ⟨first, ih⟩

theorem Written.verb {position : Nat} {input : List Symbol} {edges : List Edge}
    (written : Written config position input edges) :
    ∀ edge ∈ edges, Term.Verb config edge.predicate.text := by
  induction written with
  | empty => exact nofun
  | layout _ _ ih => exact ih
  | chain linked _ ih => exact List.forall_mem_append.mpr ⟨linked.verb, ih⟩

theorem verb_of_read {segments : List Segment} {pattern : ArrowPattern}
    (accepted : read config segments = .ok pattern) :
    ∀ edge ∈ pattern.edges, Term.Verb config edge.predicate.text :=
  (read_eq_ok_iff.mp accepted).2.1.verb

end ArrowPattern

/-! ## Every place -/

/-- A text that is accepted as a predicate is written as a verb exactly when it names no blank
node: for properties and links of nodes, for statements and their properties, and for the keys
of records. In the brackets of an arrow no blank node is accepted, and a verb is written. -/
theorem predicates_as_written (config : RenderConfig) (given : Text) :
    (∀ (graph next : Graph) (id : NodeId) (edit : Edit), graph.config = config →
      edit.predicate? = some given → graph.edit id edit = .ok next →
        ∃ node changed written, graph.nodes[id]? = some node ∧ next.nodes[id]? = some changed ∧
          AddsUnder written (graph.pairs node) (next.pairs changed) ∧
          (Term.Verb config written ↔ ¬Term.NamesBlankNode config given)) ∧
    (∀ (source target : Term) (relationship : Relationship),
      Relationship.between config source given target = .ok relationship →
        ∃ written, relationship.base = Pattern.triple source.text written target.text ∧
          (Term.Verb config written ↔ ¬Term.NamesBlankNode config given)) ∧
    (∀ (relationship next : Relationship) (value : Value),
      relationship.withPropertyUnder config given value = .ok next →
        ∃ written, AddsUnder written relationship.pairs next.pairs ∧
          (Term.Verb config written ↔ ¬Term.NamesBlankNode config given)) ∧
    (∀ (strict : Bool) (entries : List (Key × Value)) (term : Term),
      Value.toTerm config strict (.record entries) = .ok term →
        ∃ texts, term = Value.recordTerm texts ∧
          List.Forall₂ (Value.Entered config given) entries texts) ∧
    (∀ (segments : List Segment) (pattern : ArrowPattern),
      ArrowPattern.read config segments = .ok pattern →
        ∀ edge ∈ pattern.edges, Term.Verb config edge.predicate.text) := by
  refine ⟨?_, fun _ _ _ built => Relationship.predicates_of_between built,
    fun _ _ _ qualified => Relationship.predicates_of_withPropertyUnder qualified,
    fun _ _ _ converted => Value.predicates_of_record converted given,
    fun _ _ accepted => ArrowPattern.verb_of_read accepted⟩
  rintro graph next id edit rfl named edited
  exact Graph.predicates_of_edit named edited

/-- A graph of one node that has a subject alone. -/
def Graph.lone : Graph := { nodes := [{ subject := ⟨['?', 's']⟩ }] }

/-- A blank node is accepted as the predicate of a property, and then stands where only a verb
may in the block of the node. -/
theorem blank_node_in_predicate_position :
    ∃ next, Graph.lone.edit 0 (.property ['_', ':', 'b'] (.boolean true)) = .ok next ∧
      next.blockAt? 0 = some "?s\n  _:b true .".toList ∧
      ¬Term.Verb Graph.lone.config ['_', ':', 'b'] := by
  have accepted : (Graph.lone.edit 0 (.property ['_', ':', 'b'] (.boolean true))) =
      .ok (Graph.lone.change 0 (Node.withHeld ⟨['_', ':', 'b']⟩ [.term (Term.boolean true)])) := rfl
  exact ⟨_, accepted, rfl, fun verb => verb.apart (by decide)⟩

end SparqlText
