/-
# Arrays that stand for their elements

An array under a predicate stands for an object per element, wherever entries are given: in a
block, for a node, and for a statement. All of them come to the same properties, `converted`,
or to the same error, which is that of the first value that cannot be converted. What is
written is then the same block, unless a node brings entries together that stand apart.
-/

import SparqlText.Proofs.Graph.Flatten
import SparqlText.Proofs.Graph.Grouping

namespace SparqlText

/-! ## Entries of a block -/

namespace Pattern

variable (config : RenderConfig)

/-- An entry for each element of the value of an entry. -/
def expanded (entry : Text × Value) : List (Text × Value) :=
  entry.2.elements.map fun element => (entry.1, element)

/-- An entry whose key is the predicate. -/
def Resolves (entry : Text × Value) (named : Term × Value) : Prop :=
  Term.predicate config entry.1 = .ok named.1 ∧ entry.2 = named.2

/-- A resolved entry as it stands in a block. -/
def written (named : Term × Value) : Text × Value := (named.1.text, named.2)

/-- The properties that resolved entries stand for. -/
def converted : List (Term × Value) → Except Error (List Property)
  | [] => .ok []
  | (predicate, value) :: rest => do
      let objects ← convertedValues config value.elements
      let later ← converted rest
      return objects.map (Property.mk predicate) ++ later

theorem wholePairs_append (first second : List (Text × Value)) :
    wholePairs config (first ++ second) = (do
      let before ← wholePairs config first
      let after ← wholePairs config second
      return before ++ after) := by
  induction first with
  | nil =>
      rw [List.nil_append]
      cases wholePairs config second <;> rfl
  | cons entry rest ih =>
      rw [List.cons_append, wholePairs, wholePairs, ih]
      cases entry.2.toConfiguredTerm config with
      | error reason => rfl
      | ok object =>
          cases wholePairs config rest with
          | error reason => rfl
          | ok before => cases wholePairs config second <;> rfl

/-- Values under one predicate are converted as values are. -/
theorem wholePairs_map (predicate : Text) (values : List Value) :
    wholePairs config (values.map fun value => (predicate, value)) =
      (convertedValues config values).map fun terms =>
        terms.map fun term => ⟨predicate, term.text⟩ := by
  induction values with
  | nil => rfl
  | cons value rest ih =>
      rw [List.map_cons, wholePairs, convertedValues, ih]
      cases value.toConfiguredTerm config with
      | error reason => rfl
      | ok term => cases convertedValues config rest <;> rfl

theorem elementPairs_eq (entries : List (Text × Value)) :
    elementPairs config entries = wholePairs config (entries.flatMap expanded) := by
  induction entries with
  | nil => rfl
  | cons entry rest ih =>
      rw [List.flatMap_cons, wholePairs_append, expanded, wholePairs_map, elementPairs, ih]
      cases convertedValues config entry.2.elements with
      | error reason => rfl
      | ok terms => cases wholePairs config (rest.flatMap expanded) <;> rfl

/-- Resolved entries are written as their properties. -/
theorem elementPairs_written (named : List (Term × Value)) :
    elementPairs config (named.map written) =
      (converted config named).map (List.map Property.pair) := by
  induction named with
  | nil => rfl
  | cons first rest ih =>
      rw [List.map_cons, written, elementPairs, ih, converted]
      cases convertedValues config first.2.elements with
      | error reason => rfl
      | ok terms =>
          cases converted config rest with
          | error reason => rfl
          | ok later =>
              show Except.ok _ = Except.ok _
              rw [List.map_append, List.map_map]
              rfl

end Pattern

/-! ## Nodes -/

/-- A property as something that a node holds. -/
def Property.holding (property : Property) : Holding :=
  ⟨property.predicate, .term property.object⟩

theorem Property.map_holding_map_mk (predicate : Term) (objects : List Term) :
    (objects.map (Property.mk predicate)).map Property.holding =
      (objects.map Held.term).map (Holding.mk predicate) := by
  rw [List.map_map, List.map_map]
  rfl

namespace Holding

/-- Holdings under one predicate that is not used again stay in front. -/
theorem grouped_append_of_fresh (predicate : Term) (held : List Held) {later : List Holding}
    (fresh : ∀ holding ∈ later, holding.predicate ≠ predicate) :
    grouped (held.map (Holding.mk predicate) ++ later) =
      held.map (Holding.mk predicate) ++ grouped later := by
  cases held with
  | nil => rfl
  | cons first rest =>
      have nothing : under predicate later = [] := by
        simpa [under] using fresh
      have all : apart predicate later = later := by
        simpa [apart] using fresh
      rw [List.map_cons, List.cons_append, grouped_cons, under_append, apart_append,
        under_map_mk, apart_map_mk, nothing, all, List.append_nil, List.nil_append]

end Holding

namespace Pattern

variable {config : RenderConfig}

theorem converted_cons_eq_ok {predicate : Term} {value : Value} {rest : List (Term × Value)}
    {properties : List Property}
    (accepted : converted config ((predicate, value) :: rest) = .ok properties) :
    ∃ (objects : List Term) (later : List Property), objects ≠ [] ∧
      converted config rest = .ok later ∧
        properties = objects.map (Property.mk predicate) ++ later := by
  rw [converted] at accepted
  cases objects : convertedValues config value.elements with
  | error reason =>
      rw [objects] at accepted
      cases accepted
  | ok terms =>
      cases others : converted config rest with
      | error reason =>
          rw [objects, others] at accepted
          cases accepted
      | ok later =>
          rw [objects, others] at accepted
          cases accepted
          exact ⟨terms, later, Graph.ne_nil_of_convertedValues objects, rfl, rfl⟩

theorem predicate_mem_of_converted {named : List (Term × Value)} {properties : List Property}
    (accepted : converted config named = .ok properties) :
    ∀ property ∈ properties, property.predicate ∈ named.map Prod.fst := by
  induction named generalizing properties with
  | nil =>
      cases accepted
      exact fun _ among => absurd among List.not_mem_nil
  | cons first rest ih =>
      obtain ⟨objects, later, _, others, rfl⟩ := converted_cons_eq_ok accepted
      intro property among
      rcases List.mem_append.mp among with own | among
      · obtain ⟨object, _, rfl⟩ := List.mem_map.mp own
        exact List.mem_cons_self
      · exact List.mem_cons_of_mem _ (ih others property among)

/-- Where every entry has a predicate of its own, the properties stand in their groups
already. -/
theorem grouped_of_converted {named : List (Term × Value)} {properties : List Property}
    (accepted : converted config named = .ok properties)
    (distinct : (named.map Prod.fst).Nodup) :
    Holding.grouped (properties.map Property.holding) = properties.map Property.holding := by
  induction named generalizing properties with
  | nil =>
      cases accepted
      rfl
  | cons first rest ih =>
      obtain ⟨predicate, value⟩ := first
      obtain ⟨objects, later, _, others, rfl⟩ := converted_cons_eq_ok accepted
      obtain ⟨unused, distinct⟩ := List.nodup_cons.mp distinct
      have fresh : ∀ holding ∈ later.map Property.holding, holding.predicate ≠ predicate := by
        intro holding among
        obtain ⟨property, member, rfl⟩ := List.mem_map.mp among
        rintro rfl
        exact unused (predicate_mem_of_converted others property member)
      rw [List.map_append, Property.map_holding_map_mk,
        Holding.grouped_append_of_fresh predicate _ fresh, ih others distinct]

end Pattern

namespace Graph

/-- Entries given to a node one by one, until one of them fails. -/
def withProperties (graph : Graph) (id : NodeId) (entries : List (Text × Value)) :
    Except Error Graph :=
  entries.foldlM (fun graph entry => graph.edit id (.property entry.1 entry.2)) graph

/-- What is written from a node without links is its block. -/
theorem flatten?_of_no_links {graph : Graph} {id : NodeId} {node : Node}
    (found : graph.nodes[id]? = some node) (unlinked : node.links = []) :
    graph.flatten? id = graph.block? node := by
  have walk : graph.walk? [] [id] = some [id] := by
    rw [walk?_cons_of_not_mem List.not_mem_nil found, unlinked, List.nil_append, walk?_nil]
    rfl
  have own : graph.blockAt? id = graph.block? node := by
    rw [blockAt?, found, Option.bind_some]
  rw [flatten?, blocksFrom?, walk, Option.bind_some, blocks?, List.mapM_cons, List.mapM_nil, own]
  cases graph.block? node with
  | none => rfl
  | some block =>
      cases block with
      | nil => rfl
      | cons char rest => rfl

/-- The graph with another node under a number. -/
def put (graph : Graph) (id : NodeId) (node : Node) : Graph := graph.change id fun _ => node

theorem nodes_put {graph : Graph} {id : NodeId} {node : Node}
    (found : graph.nodes[id]? = some node) (other : Node) :
    (graph.put id other).nodes[id]? = some other := by
  rw [put, change, List.getElem?_modify_eq, found]
  rfl

theorem put_put (graph : Graph) (id : NodeId) (first second : Node) :
    (graph.put id first).put id second = graph.put id second := by
  rw [put, put, put, change, change, change, List.modify_modify_eq]
  rfl

theorem change_eq_put {graph : Graph} {id : NodeId} {node : Node}
    (found : graph.nodes[id]? = some node) (update : Node → Node) :
    graph.change id update = graph.put id (update node) := by
  have nodes : graph.nodes.modify id update = graph.nodes.modify id fun _ => update node := by
    apply List.ext_getElem?
    intro other
    by_cases same : id = other
    · subst same
      rw [List.getElem?_modify_eq, List.getElem?_modify_eq, found]
      rfl
    · rw [List.getElem?_modify_ne _ _ same, List.getElem?_modify_ne _ _ same]
  rw [put, change, change, nodes]

theorem put_found {graph : Graph} {id : NodeId} {node : Node}
    (found : graph.nodes[id]? = some node) : graph.put id node = graph := by
  have same : graph.nodes.modify id (fun node => node) = graph.nodes :=
    List.modify_id id graph.nodes
  rw [← change_eq_put found fun node => node, change, same]

variable {graph : Graph} {id : NodeId} {subject : Term} {types : List Term}
  {holdings : List Holding}

/-- A property whose predicate is resolved is added to the node, or it fails as its values
do. -/
theorem edit_property_eq
    (found : graph.nodes[id]? = some (Holding.node subject types holdings))
    {entry : Text × Value} {named : Term × Value}
    (resolved : Pattern.Resolves graph.config entry named) :
    graph.edit id (.property entry.1 entry.2) =
      (Pattern.convertedValues graph.config named.2.elements).map fun objects =>
        graph.put id (Holding.node subject types
          (holdings ++ (objects.map (Property.mk named.1)).map Property.holding)) := by
  have present : graph.contains id = true :=
    decide_eq_true (List.getElem?_eq_some_iff.mp found).1
  rw [edit_eq, if_pos present, update, resolved.1, resolved.2]
  dsimp only
  rw [heldTerms]
  cases values : Pattern.convertedValues graph.config named.2.elements with
  | error reason => rfl
  | ok objects =>
      have some : objects.map Held.term ≠ [] :=
        mt List.map_eq_nil_iff.mp (ne_nil_of_convertedValues values)
      show Except.ok (graph.change id _) = Except.ok _
      rw [change_eq_put found, Holding.withHeld_node named.1 some,
        ← Property.map_holding_map_mk]

/-- Entries that are given one by one come to their properties, or to the error of the first
that cannot be converted. -/
theorem withProperties_eq
    (found : graph.nodes[id]? = some (Holding.node subject types holdings))
    {entries : List (Text × Value)} {named : List (Term × Value)}
    (resolved : List.Forall₂ (Pattern.Resolves graph.config) entries named) :
    graph.withProperties id entries =
      (Pattern.converted graph.config named).map fun properties =>
        graph.put id
          (Holding.node subject types (holdings ++ properties.map Property.holding)) := by
  induction entries generalizing graph holdings named with
  | nil =>
      cases resolved
      show Except.ok graph = Except.ok (graph.put id _)
      rw [List.map_nil, List.append_nil, put_found found]
  | cons entry rest ih =>
      cases resolved with
      | @cons _ first _ others own later =>
          rw [withProperties, List.foldlM_cons, edit_property_eq found own, Pattern.converted]
          cases Pattern.convertedValues graph.config first.2.elements with
          | error reason => rfl
          | ok objects =>
              -- The rest is given to a node that holds the first entry already, which is why
              -- the induction is over any graph and any holdings.
              have next := ih (nodes_put found (Holding.node subject types (holdings ++
                (objects.map (Property.mk first.1)).map Property.holding))) later
              show withProperties (graph.put id _) id rest = _
              rw [next]
              show (Pattern.converted graph.config others).map _ = _
              cases Pattern.converted graph.config others with
              | error reason => rfl
              | ok properties =>
                  show Except.ok (put (graph.put id _) id _) = Except.ok (graph.put id _)
                  rw [put_put, List.map_append, List.append_assoc]

/-- Properties link to no node. -/
theorem links_node_of_properties (subject : Term) (types : List Term)
    (properties : List Property) :
    (Holding.node subject types (properties.map Property.holding)).links = [] := by
  rw [Node.links, List.flatMap_eq_nil_iff]
  intro group among
  obtain ⟨predicate, _, rfl⟩ := List.mem_map.mp among
  rw [List.filterMap_eq_nil_iff]
  intro held member
  obtain ⟨holding, grouped, rfl⟩ := List.mem_map.mp member
  obtain ⟨property, _, rfl⟩ := List.mem_map.mp (List.mem_filter.mp grouped).1
  rfl

/-- A node that was given entries with a predicate each is written as the block of the
entries. -/
theorem flatten?_withProperties {entries : List (Text × Value)} {named : List (Term × Value)}
    (found : graph.nodes[id]? = some { subject })
    (resolved : List.Forall₂ (Pattern.Resolves graph.config) entries named)
    (distinct : (named.map Prod.fst).Nodup) :
    (graph.withProperties id entries).map (fun next => next.flatten? id) =
      Pattern.triplesMap graph.config subject.text (named.map Pattern.written) := by
  have bare : graph.nodes[id]? = some (Holding.node subject [] []) := found
  rw [withProperties_eq bare resolved, Pattern.triplesMap, Pattern.elementPairs_written]
  cases accepted : Pattern.converted graph.config named with
  | error reason => rfl
  | ok properties =>
      have reached := nodes_put found (Holding.node subject [] (properties.map Property.holding))
      have unlinked := links_node_of_properties subject [] properties
      have pairs (next : Graph) :
          next.pairs (Holding.node subject [] (properties.map Property.holding)) =
            properties.map Property.pair := by
        rw [Graph.pairs, Holding.node, flatMap_groupPairs_groups,
          Pattern.grouped_of_converted accepted distinct, List.map_map]
        rfl
      show Except.ok (flatten? (graph.put id (Holding.node subject [] (properties.map _))) id) =
        Except.ok _
      rw [flatten?_of_no_links reached unlinked, block?, pairs]
      rfl

end Graph

/-! ## Statements -/

namespace Relationship

/-- Entries given to a statement one by one, until one of them fails. -/
def withProperties (relationship : Relationship) (entries : List (Text × Value)) :
    Except Error Relationship :=
  entries.foldlM (fun relationship entry => relationship.withProperty entry.1 entry.2)
    relationship

theorem withProperties_eq (relationship : Relationship) {entries : List (Text × Value)}
    {named : List (Term × Value)}
    (resolved : List.Forall₂ (Pattern.Resolves relationship.config) entries named) :
    relationship.withProperties entries =
      (Pattern.converted relationship.config named).map fun properties =>
        { relationship with properties := relationship.properties ++ properties } := by
  induction entries generalizing relationship named with
  | nil =>
      cases resolved
      show Except.ok relationship = Except.ok { relationship with properties := _ }
      rw [List.append_nil]
  | cons entry rest ih =>
      cases resolved with
      | @cons _ first _ others own later =>
          rw [withProperties, List.foldlM_cons, withProperty, withPropertyUnder_eq, own.1, own.2,
            Pattern.converted]
          dsimp only
          cases Pattern.convertedValues relationship.config first.2.elements with
          | error reason => rfl
          | ok objects =>
              have next := ih { relationship with properties :=
                relationship.properties ++ objects.map (Property.mk first.1) } later
              show withProperties { relationship with properties := _ } rest = _
              rw [next]
              show (Pattern.converted relationship.config others).map _ = _
              cases Pattern.converted relationship.config others with
              | error reason => rfl
              | ok properties =>
                  show Except.ok { relationship with properties := _ } =
                    Except.ok { relationship with properties := _ }
                  rw [List.append_assoc]

/-- The entries that say which statement a blank node names. -/
def statementEntries (relationship : Relationship) : List (Text × Value) :=
  [(Term.keyword.text, .term ⟨bracketed Vocabulary.rdfStatement⟩),
    (bracketed Vocabulary.rdfSubject, .term relationship.source),
    (bracketed Vocabulary.rdfPredicate, .term relationship.predicate),
    (bracketed Vocabulary.rdfObject, .term relationship.target)]

theorem elementPairs_statementEntries (config : RenderConfig) (relationship : Relationship)
    (entries : List (Text × Value)) :
    Pattern.elementPairs config (relationship.statementEntries ++ entries) =
      (Pattern.elementPairs config entries).map fun pairs =>
        relationship.statementPairs ++ pairs := by
  have first (predicate : Text) (object : Term) (rest : List (Text × Value)) :
      Pattern.elementPairs config ((predicate, .term object) :: rest) =
        (Pattern.elementPairs config rest).map (⟨predicate, object.text⟩ :: ·) := by
    rw [Pattern.elementPairs]
    cases Pattern.elementPairs config rest <;> rfl
  rw [statementEntries, List.cons_append, List.cons_append, List.cons_append,
    List.cons_append, List.nil_append, first, first, first, first]
  cases Pattern.elementPairs config entries <;> rfl

variable {relationship : Relationship} {entries : List (Text × Value)}
  {named : List (Term × Value)}

/-- Entries are refused for a statement with the error with which they are refused in a
block. -/
theorem withProperties_eq_error_iff
    (resolved : List.Forall₂ (Pattern.Resolves relationship.config) entries named)
    (subject : Text) (reason : Error) :
    relationship.withProperties entries = .error reason ↔
      Pattern.triplesMap relationship.config subject (named.map Pattern.written) =
        .error reason := by
  rw [withProperties_eq relationship resolved, Pattern.triplesMap,
    Pattern.elementPairs_written]
  cases Pattern.converted relationship.config named with
  | error other =>
      show Except.error other = Except.error reason ↔ Except.error other = Except.error reason
      rw [Except.error.injEq, Except.error.injEq]
  | ok properties => exact ⟨nofun, nofun⟩

/-- A statement that was given entries is written as its triple and one block, in which the
entries stand behind those that say which statement it is. -/
theorem render?_withProperties (bare : relationship.properties = [])
    (resolved : List.Forall₂ (Pattern.Resolves relationship.config) entries named)
    (some : entries ≠ []) :
    (relationship.withProperties entries).map (render? relationship.config) =
      (Pattern.triplesMap relationship.config
        (relationship.reificationId relationship.config).text
        (relationship.statementEntries ++ named.map Pattern.written)).map
          (Option.map fun block => relationship.base ++ '\n' :: block) := by
  rw [withProperties_eq relationship resolved, Pattern.triplesMap,
    elementPairs_statementEntries, Pattern.elementPairs_written]
  cases accepted : Pattern.converted relationship.config named with
  | error reason => rfl
  | ok properties =>
      -- Without a property a statement is its triple alone, so there has to be an entry.
      have filled : properties ≠ [] := by
        cases resolved with
        | nil => exact absurd rfl some
        | cons _ _ =>
            obtain ⟨objects, later, present, _, rfl⟩ := Pattern.converted_cons_eq_ok accepted
            exact mt List.append_eq_nil_iff.mp fun none =>
              present (List.map_eq_nil_iff.mp none.1)
      have stated :
          hasProperties { relationship with properties } = true := by
        simpa [hasProperties] using filled
      show Except.ok (render? _ { relationship with properties := _ }) = Except.ok _
      rw [bare, List.nil_append, render?, if_pos stated]
      rfl

end Relationship

/-! ## Every place -/

/-- An array stands for its elements in the same way wherever entries are given. In a block
it is written as the entries of its elements are. Entries whose keys are resolved, given one
by one to a node with nothing but a subject, each under a predicate of its own, are written
from the node as they are written in a block, and given to a statement without properties
they are written in the block of the statement, behind the entries that say which statement
it is. Where they are refused, all of these give the same error. -/
theorem expansion_agrees (config : RenderConfig) (entries : List (Text × Value)) :
    (∀ subject, Pattern.triplesMap config subject entries =
      Pattern.triples config subject (entries.flatMap Pattern.expanded)) ∧
    ∀ named, List.Forall₂ (Pattern.Resolves config) entries named →
      (∀ (graph : Graph) (id : NodeId) (subject : Term), graph.config = config →
        graph.nodes[id]? = some { subject } → (named.map Prod.fst).Nodup →
          (graph.withProperties id entries).map (fun next => next.flatten? id) =
            Pattern.triplesMap config subject.text (named.map Pattern.written)) ∧
      ∀ relationship : Relationship, relationship.config = config →
        relationship.properties = [] →
        (∀ subject reason, relationship.withProperties entries = .error reason ↔
          Pattern.triplesMap config subject (named.map Pattern.written) = .error reason) ∧
        (entries ≠ [] →
          (relationship.withProperties entries).map (Relationship.render? config) =
            (Pattern.triplesMap config (relationship.reificationId config).text
              (relationship.statementEntries ++ named.map Pattern.written)).map
                (Option.map fun block => relationship.base ++ '\n' :: block)) := by
  constructor
  · intro subject
    rw [Pattern.triplesMap, Pattern.triples, Pattern.elementPairs_eq]
  · intro named resolved
    constructor
    · rintro graph id subject rfl found distinct
      exact Graph.flatten?_withProperties found resolved distinct
    · rintro relationship rfl bare
      exact ⟨Relationship.withProperties_eq_error_iff resolved,
        Relationship.render?_withProperties bare resolved⟩

/-- Entries with an array under one key and a scalar under another, and the same entries under
their predicates. -/
def nestedEntries : List (Text × Value) :=
  [(['p'], .array [.boolean true, .array [.array [.boolean false]]]), (['a'], .boolean true)]

def nestedNamed : List (Term × Value) :=
  [(⟨[':', 'p']⟩, .array [.boolean true, .array [.array [.boolean false]]]),
    (⟨['a']⟩, .boolean true)]

/-- A node with nothing but a subject. -/
def bareNode : Graph :=
  ((Session.fresh { strictNulls := true }).run [.addNode ⟨['?', 'x']⟩]).1.graph

/-- A statement without properties. -/
def bareStatement : Relationship :=
  { config := { strictNulls := true }, source := ⟨['?', 'x']⟩, predicate := ⟨[':', 'q']⟩,
    target := ⟨['?', 'y']⟩ }

theorem expansion_agrees_nested :
    let config : RenderConfig := { strictNulls := true }
    (List.Forall₂ (Pattern.Resolves config) nestedEntries nestedNamed ∧
      bareNode.config = config ∧ bareNode.nodes[0]? = some { subject := ⟨['?', 'x']⟩ } ∧
      (nestedNamed.map Prod.fst).Nodup ∧ bareStatement.config = config ∧
      bareStatement.properties = [] ∧ nestedEntries ≠ []) ∧
    Pattern.triplesMap config ['?', 'x'] nestedEntries =
      Pattern.triples config ['?', 'x'] (nestedEntries.flatMap Pattern.expanded) ∧
    (bareNode.withProperties 0 nestedEntries).map (fun next => next.flatten? 0) =
      Pattern.triplesMap config ['?', 'x'] (nestedNamed.map Pattern.written) ∧
    (∀ reason, bareStatement.withProperties nestedEntries = .error reason ↔
      Pattern.triplesMap config ['?', 'x'] (nestedNamed.map Pattern.written) =
        .error reason) ∧
    (bareStatement.withProperties nestedEntries).map (Relationship.render? config) =
      (Pattern.triplesMap config (bareStatement.reificationId config).text
        (bareStatement.statementEntries ++ nestedNamed.map Pattern.written)).map
          (Option.map fun block => bareStatement.base ++ '\n' :: block) := by
  intro config
  have resolved : List.Forall₂ (Pattern.Resolves config) nestedEntries nestedNamed :=
    .cons ⟨rfl, rfl⟩ (.cons ⟨rfl, rfl⟩ .nil)
  have distinct : (nestedNamed.map Prod.fst).Nodup := by decide
  have filled : nestedEntries ≠ [] := List.cons_ne_nil _ _
  obtain ⟨block, others⟩ := expansion_agrees config nestedEntries
  obtain ⟨node, statement⟩ := others nestedNamed resolved
  obtain ⟨refused, rendered⟩ := statement bareStatement rfl rfl
  exact ⟨⟨resolved, rfl, rfl, distinct, rfl, rfl, filled⟩, block _,
    node bareNode 0 ⟨['?', 'x']⟩ rfl rfl distinct, refused _, rendered filled⟩

end SparqlText
