/-
# What a node has been given

The node under a number comes into being in one step of a run, and every edit of it that
succeeds adds something: a type, or holdings under one predicate. The block of the node says
all of that and nothing else: the types in the order in which they were added, and then the
holdings, grouped by predicate. Steps that fail, and steps with other nodes, leave no mark
in it.

`Event` says once what a step does to the node under a number, and the facts about runs
follow by induction.
-/

import SparqlText.Proofs.Graph.Grouping
import SparqlText.Proofs.Graph.Triples
import SparqlText.Proofs.Session.Run

namespace SparqlText

/-! ## What an edit adds -/

/-- What an edit adds to a node. -/
structure Addition where
  types : List Term := []
  holdings : List Holding := []

/-- What an edit adds under a configuration, if its texts can be resolved and its values
converted. A property holds a term for each element of its value, and a link holds its
target. -/
def Edit.addition (config : RenderConfig) : Edit → Except Error Addition
  | .type text => do
      let term ← orRefused (Description.typeTerm config text)
      return { types := [term] }
  | .property predicate value => do
      let predicate ← orRefused (Term.predicate config predicate)
      let objects ← value.elements.mapM (Value.toConfiguredTerm config)
      return { holdings := objects.map fun object => ⟨predicate, .term object⟩ }
  | .link predicate target => do
      let predicate ← orRefused (Term.predicate config predicate)
      return { holdings := [⟨predicate, .node target⟩] }

theorem Pattern.convertedValues_eq_mapM (config : RenderConfig) (values : List Value) :
    convertedValues config values = values.mapM (Value.toConfiguredTerm config) := by
  induction values with
  | nil => rfl
  | cons value rest ih =>
      rw [convertedValues, List.mapM_cons, ih]
      cases value.toConfiguredTerm config with
      | error reason => rfl
      | ok term => cases rest.mapM (Value.toConfiguredTerm config) <;> rfl

/-- An edit that can be made adds to a node what it says: types behind the others, and
holdings to its groups. -/
theorem Graph.addition_of_update {graph : Graph} {edit : Edit} {update : Node → Node}
    (updated : graph.update edit = .ok update) :
    ∃ addition, edit.addition graph.config = .ok addition ∧
      ∀ subject types holdings, update (Holding.node subject types holdings) =
        Holding.node subject (types ++ addition.types) (holdings ++ addition.holdings) := by
  cases makes_of_update updated with
  | @type _ added resolved =>
      refine ⟨{ types := [added] }, by rw [Edit.addition, resolved]; rfl, ?_⟩
      intro subject types holdings
      rw [Holding.node, Holding.node, List.append_nil]
      rfl
  | @property _ _ predicate objects resolved converted =>
      have some : objects.map Held.term ≠ [] :=
        mt List.map_eq_nil_iff.mp (ne_nil_of_convertedValues converted)
      rw [Pattern.convertedValues_eq_mapM] at converted
      refine ⟨{ holdings := objects.map fun object => ⟨predicate, .term object⟩ },
        by rw [Edit.addition, resolved, converted]; rfl, ?_⟩
      intro subject types holdings
      rw [Holding.withHeld_node predicate some, List.map_map, List.append_nil]
      rfl
  | @link _ target predicate _ resolved =>
      refine ⟨{ holdings := [⟨predicate, .node target⟩] },
        by rw [Edit.addition, resolved]; rfl, ?_⟩
      intro subject types holdings
      rw [Holding.withHeld_node predicate (List.cons_ne_nil _ _), List.append_nil]
      rfl

/-! ## What a step does to a node -/

/-- The node that a step creates, if it creates one. -/
def Step.node? (config : RenderConfig) : Step → Option Node
  | .addNode held => some { subject := held }
  | .describe text => (Description.read config text).toOption.map fun description =>
      { subject := description.subject, types := description.types }
  | _ => none

/-- The edit of the node under a number that a step has made, going by its answer. -/
def Step.made? (id : NodeId) : Step × Answer → Option Edit
  | (.edit target given, .node _) => if target = id then some given else none
  | _ => none

/-- The edits of the node under a number that were made, in order. -/
def Step.made (id : NodeId) (answered : List (Step × Answer)) : List Edit :=
  answered.filterMap (made? id)

theorem Step.made_cons_of_none {id : NodeId} {first : Step × Answer}
    (unmade : made? id first = none) {rest : List (Step × Answer)} :
    made id (first :: rest) = made id rest :=
  List.filterMap_cons_none unmade

theorem Step.made_cons_of_some {id : NodeId} {first : Step × Answer} {edit : Edit}
    (some : made? id first = some edit) {rest : List (Step × Answer)} :
    made id (first :: rest) = edit :: made id rest :=
  List.filterMap_cons_some some

/-- A node is created without holdings. -/
theorem Step.groups_of_node? {config : RenderConfig} {step : Step} {node : Node}
    (creates : step.node? config = some node) : node.groups = [] := by
  cases step with
  | addNode subject =>
      cases creates
      rfl
  | describe text =>
      obtain ⟨description, _, rfl⟩ := Option.map_eq_some_iff.mp creates
      rfl
  | _ => cases creates

/-- Only a step that is an edit makes one. -/
theorem Step.made?_eq_none {step : Step} (other : ∀ target given, step ≠ .edit target given)
    (id : NodeId) (answer : Answer) : made? id (step, answer) = none := by
  cases step with
  | edit target given => exact absurd rfl (other target given)
  | _ => rfl

namespace Graph

theorem nodes_add_size (graph : Graph) (node : Node) :
    (graph.add node).1.nodes[graph.size]? = some node := by
  simp [add, size]

theorem nodes_add_of_ne (graph : Graph) (node : Node) {id : NodeId} (other : id ≠ graph.size) :
    (graph.add node).1.nodes[id]? = graph.nodes[id]? := by
  rcases Nat.lt_or_gt_of_ne other with within | beyond
  · exact List.getElem?_append_left within
  · have missing : graph.nodes[id]? = none := List.getElem?_eq_none (Nat.le_of_lt beyond)
    rw [missing, List.getElem?_eq_none_iff]
    show (graph.add node).1.size ≤ id
    rw [size_add]
    exact beyond

end Graph

namespace Session

/-- What a step and its answer mean for the node under a number. -/
inductive Event (session : Session) (id : NodeId) : Step → Answer → Session → Prop
  /-- The step has to do with something else, or it fails. -/
  | aside {step : Step} {answer : Answer} {next : Session}
      (unmade : Step.made? id (step, answer) = none)
      (kept : next.graph.nodes[id]? = session.graph.nodes[id]?) :
      Event session id step answer next
  | created {step : Step} {next : Session} {node : Node}
      (unmade : Step.made? id (step, .node id) = none)
      (creates : step.node? session.graph.config = some node)
      (absent : session.graph.nodes[id]? = none)
      (found : next.graph.nodes[id]? = some node) : Event session id step (.node id) next
  | edited {edit : Edit} {update : Node → Node} {next : Session}
      (updated : session.graph.update edit = .ok update)
      (present : id < session.graph.size)
      (changed : next.graph.nodes[id]? = session.graph.nodes[id]?.map update) :
      Event session id (.edit id edit) (.node id) next

/-- A new node is the node under the next number. -/
theorem event_add (session : Session) (id : NodeId) {step : Step} {node : Node}
    (other : ∀ target given, step ≠ .edit target given)
    (creates : step.node? session.graph.config = some node) :
    Event session id step (.node session.graph.size)
      (session.withGraph (session.graph.add node).1) := by
  by_cases same : id = session.graph.size
  · subst same
    exact .created (Step.made?_eq_none other _ _) creates
      (List.getElem?_eq_none (Nat.le_refl _)) (session.graph.nodes_add_size node)
  · exact .aside (Step.made?_eq_none other _ _) (session.graph.nodes_add_of_ne node same)

theorem event_edit (session : Session) (id target : NodeId) (given : Edit) :
    Event session id (.edit target given) (session.perform (.edit target given)).2
      (session.perform (.edit target given)).1 := by
  rw [perform_edit]
  cases edited : session.graph.edit target given with
  | error reason => exact .aside rfl rfl
  | ok next =>
      obtain ⟨present, update, updated, rfl⟩ := Graph.edit_eq_ok edited
      by_cases same : target = id
      · subst same
        exact .edited updated present (List.getElem?_modify_eq update _ session.graph.nodes)
      · exact .aside (if_neg same) (List.getElem?_modify_ne update _ same)

theorem event_perform (session : Session) (id : NodeId) (step : Step) :
    Event session id step (session.perform step).2 (session.perform step).1 := by
  by_cases other : ∀ target given, step ≠ .edit target given
  · have transition := session.transition_perform step
    generalize (session.perform step).1 = next, (session.perform step).2 = answer
      at transition ⊢
    have unmade := Step.made?_eq_none other id answer
    cases transition with
    | idle _ _ => exact .aside unmade rfl
    | addNode subject => exact event_add session id other rfl
    | describe read => exact event_add session id other (by rw [Step.node?, read]; rfl)
    | edit _ => exact absurd rfl (other _ _)
    | state _ => exact .aside unmade rfl
    | qualify _ _ => exact .aside unmade rfl
    | adopt _ => exact .aside unmade rfl
  · push Not at other
    obtain ⟨target, given, rfl⟩ := other
    exact session.event_edit id target given

/-! ## Runs -/

/-- What was given to a node after a run began is added behind what it had. -/
theorem node_run (session : Session) (steps : List Step) {id : NodeId} {subject : Term}
    {types : List Term} {holdings : List Holding}
    (found : session.graph.nodes[id]? = some (Holding.node subject types holdings)) :
    ∃ additions,
      (Step.made id (steps.zip (session.run steps).2)).mapM
          (Edit.addition session.graph.config) = .ok additions ∧
      (session.run steps).1.graph.nodes[id]? =
        some (Holding.node subject (types ++ additions.flatMap Addition.types)
          (holdings ++ additions.flatMap Addition.holdings)) := by
  induction steps generalizing session types holdings with
  | nil => exact ⟨[], rfl, by simpa [run] using found⟩
  | cons step rest ih =>
      have settled := (effect_perform session step).config_eq
      have event := session.event_perform id step
      rw [run_cons, List.zip_cons_cons]
      generalize (session.perform step).1 = next, (session.perform step).2 = answer
        at settled event ⊢
      cases event with
      | aside unmade kept =>
          have later := ih next (kept.trans found)
          rwa [settled, ← Step.made_cons_of_none unmade] at later
      | created _ _ absent _ =>
          -- The number has a node already, and numbers are not issued twice.
          rw [absent] at found
          cases found
      | @edited edit _ _ updated _ changed =>
          have own : Step.made? id (.edit id edit, .node id) = some edit := if_pos rfl
          obtain ⟨addition, added, effect⟩ := Graph.addition_of_update updated
          rw [found, Option.map_some, effect] at changed
          obtain ⟨additions, later, reached⟩ := ih next changed
          refine ⟨addition :: additions, ?_, ?_⟩
          · rw [Step.made_cons_of_some own, List.mapM_cons, added, ← settled, later]
            rfl
          · rw [reached]
            simp

/-- A node that a run creates begins with what it was created with. -/
theorem node_run_of_absent (session : Session) (steps : List Step) {id : NodeId}
    (absent : session.graph.nodes[id]? = none) (issued : id < (session.run steps).1.graph.size) :
    ∃ node additions,
      (∃ step, (step, Answer.node id) ∈ steps.zip (session.run steps).2 ∧
        step.node? session.graph.config = some node) ∧
      (Step.made id (steps.zip (session.run steps).2)).mapM
          (Edit.addition session.graph.config) = .ok additions ∧
      (session.run steps).1.graph.nodes[id]? =
        some (Holding.node node.subject (node.types ++ additions.flatMap Addition.types)
          (additions.flatMap Addition.holdings)) := by
  induction steps generalizing session with
  | nil => exact absurd issued (Nat.not_lt.mpr (List.getElem?_eq_none_iff.mp absent))
  | cons step rest ih =>
      have settled := (effect_perform session step).config_eq
      have event := session.event_perform id step
      rw [run_cons] at issued ⊢
      rw [List.zip_cons_cons]
      generalize (session.perform step).1 = next, (session.perform step).2 = answer
        at settled event issued ⊢
      cases event with
      | aside unmade kept =>
          obtain ⟨node, additions, ⟨creator, member, creates⟩, later, reached⟩ :=
            ih next (kept.trans absent) issued
          rw [settled] at creates later
          rw [Step.made_cons_of_none unmade]
          exact ⟨node, additions, ⟨creator, List.mem_cons_of_mem _ member, creates⟩, later,
            reached⟩
      | @created _ _ node unmade creates _ found =>
          -- From here on the node has a history of its own, which begins without holdings.
          have bare : node = Holding.node node.subject node.types [] := by
            have empty : node.groups = Holding.groups [] := Step.groups_of_node? creates
            rw [Holding.node, ← empty]
          rw [bare] at found
          obtain ⟨additions, later, reached⟩ := node_run next rest found
          rw [settled] at later
          rw [Step.made_cons_of_none unmade]
          exact ⟨node, additions, ⟨step, List.mem_cons_self, creates⟩, later, reached⟩
      | edited _ present _ =>
          exact absurd present (Nat.not_lt.mpr (List.getElem?_eq_none_iff.mp absent))

/-! ## Blocks -/

/-- The block of a node that a run has created is told by the node's own history: it says the
types that the node was created with and those that were added, in that order, and then what
the edits of the node that were made have it hold, brought into groups by predicate. The
groups stand in the order in which their predicates were first used, each of them in the
order in which it was filled, and nothing that was given is left out or said twice. -/
theorem block_run_fresh (config : RenderConfig) (steps : List Step) {id : NodeId}
    (issued : ((fresh config).run steps).1.graph.contains id = true) :
    let answered := steps.zip ((fresh config).run steps).2
    let graph := ((fresh config).run steps).1.graph
    ∃ node additions,
      (∃ step, (step, Answer.node id) ∈ answered ∧ step.node? config = some node) ∧
      (Step.made id answered).mapM (Edit.addition config) = .ok additions ∧
      let types := node.types ++ additions.flatMap Addition.types
      let holdings := additions.flatMap Addition.holdings
      let block : Block :=
        ⟨node.subject.text, types.map (fun type => ⟨Term.keyword.text, type.text⟩) ++
          (Holding.grouped holdings).map graph.holdingPair⟩
      graph.blockOf? id = some block ∧ graph.blockAt? id = block.text? config ∧
        (Holding.grouped holdings).Perm holdings := by
  intro answered graph
  have within : id < graph.size := by simpa [Graph.contains] using issued
  obtain ⟨node, additions, created, made, found⟩ :=
    node_run_of_absent (fresh config) steps rfl within
  refine ⟨node, additions, created, made, ?_⟩
  intro types holdings block
  have own : graph.blockOf? id = some block := by
    rw [Graph.blockOf?, found, Option.map_some, Graph.blockOf, Graph.pairs, Holding.node,
      Graph.flatMap_groupPairs_groups]
  refine ⟨own, ?_, Holding.perm_grouped holdings⟩
  have settled : graph.config = config := config_run_fresh config steps
  rw [graph.blockAt?_eq_bind, own, settled]
  rfl

/-- A node with a type is given more of each kind, two of its keys naming one predicate, while
one edit fails and another node is edited in between. -/
def accumulating : List Step :=
  [.describe "?x a ex:T".toList, .addNode ⟨['?', 'y']⟩,
    .edit 0 (.property ['p'] (.array [.boolean true, .string ['v']])),
    .edit 1 (.property ['p'] (.boolean false)), .edit 0 (.link ['q'] 1),
    .edit 0 (.property ['p'] (.array [.boolean true, .null])),
    .edit 0 (.property [':', 'p'] (.boolean false)), .edit 0 (.type ['?', 't'])]

theorem block_run_fresh_accumulating :
    let config : RenderConfig := { strictNulls := true }
    let answered := accumulating.zip ((fresh config).run accumulating).2
    let graph := ((fresh config).run accumulating).1.graph
    graph.contains 0 = true ∧ ∃ node additions,
      (∃ step, (step, Answer.node 0) ∈ answered ∧ step.node? config = some node) ∧
      (Step.made 0 answered).mapM (Edit.addition config) = .ok additions ∧
      let types := node.types ++ additions.flatMap Addition.types
      let holdings := additions.flatMap Addition.holdings
      let block : Block :=
        ⟨node.subject.text, types.map (fun type => ⟨Term.keyword.text, type.text⟩) ++
          (Holding.grouped holdings).map graph.holdingPair⟩
      graph.blockOf? 0 = some block ∧ graph.blockAt? 0 = block.text? config ∧
        (Holding.grouped holdings).Perm holdings := by
  intro config answered graph
  have issued : graph.contains 0 = true := by decide +kernel
  exact ⟨issued, block_run_fresh config accumulating issued⟩

end Session

end SparqlText
