/-
# Edits of different nodes

Whether an edit can be made, and what it makes of its node, depends on the configuration of
the graph and on the numbers that it has issued. Edits change neither, so in a run of edits
every edit is answered as if it came first, and a node ends as its own edits make it, whatever
else was edited in between. The order among edits of different nodes is therefore of no
account, those that fail included.
-/

import SparqlText.Proofs.Session.Run

namespace SparqlText

/-- An edit of the node under a number. -/
structure Call where
  id : NodeId
  edit : Edit

namespace Call

/-- A call as a step of a session. -/
def step (call : Call) : Step := .edit call.id call.edit

/-- The calls for one node, in order. -/
def on (id : NodeId) (calls : List Call) : List Call := calls.filter fun call => call.id == id

theorem on_cons_self (call : Call) (rest : List Call) :
    on call.id (call :: rest) = call :: on call.id rest :=
  List.filter_cons_of_pos (by simp)

theorem on_cons_of_ne {call : Call} {id : NodeId} (other : call.id ≠ id) (rest : List Call) :
    on id (call :: rest) = on id rest :=
  List.filter_cons_of_neg (by simpa using other)

/-- A list whose entries are changed call by call has, at each place, what the calls for that
place make of its entry. -/
theorem getElem?_foldl_modify {Item : Type} (revise : Call → Item → Item) (calls : List Call)
    (items : List Item) (id : NodeId) :
    (calls.foldl (fun items call => items.modify call.id (revise call)) items)[id]? =
      items[id]?.map fun item => (on id calls).foldl (fun item call => revise call item) item := by
  induction calls generalizing items with
  | nil => simp [on]
  | cons call rest ih =>
      rw [List.foldl_cons, ih]
      by_cases same : call.id = id
      · subst same
        rw [List.getElem?_modify_eq, on_cons_self, Option.map_eq_map, Option.map_map]
        rfl
      · rw [List.getElem?_modify_ne _ _ same, on_cons_of_ne same]

end Call

namespace Graph

/-- What an edit makes of a node: nothing else where it cannot be made. -/
def revision (graph : Graph) (edit : Edit) (node : Node) : Node :=
  match graph.update edit with
  | .ok update => update node
  | .error _ => node

/-- The answer to a call. -/
def verdict (graph : Graph) (call : Call) : Answer :=
  match graph.edit call.id call.edit with
  | .ok _ => .node call.id
  | .error reason => .failed reason

/-- The nodes of a graph after calls, each of which does what it would do at first. -/
def revised (graph : Graph) (calls : List Call) : List Node :=
  calls.foldl (fun nodes call => nodes.modify call.id (graph.revision call.edit)) graph.nodes

variable (graph : Graph) (id : NodeId) (change : Node → Node)

/-- A changed node makes no difference to what can be made of any node. -/
theorem update_change : (graph.change id change).update = graph.update := by
  funext edit
  cases edit with
  | type text => rfl
  | property predicate value => rfl
  | link predicate target =>
      rw [update, update, contains, contains, size_change]
      rfl

theorem revision_change : (graph.change id change).revision = graph.revision := by
  funext edit node
  rw [revision, revision, update_change]

theorem verdict_change : (graph.change id change).verdict = graph.verdict := by
  funext call
  have present : (graph.change id change).contains call.id = graph.contains call.id := by
    rw [contains, contains, size_change]
  rw [verdict, verdict, edit_eq, edit_eq, update_change, present]
  cases graph.contains call.id with
  | false => rfl
  | true => cases graph.update call.edit <;> rfl

theorem revised_cons (call : Call) (rest : List Call) :
    graph.revised (call :: rest) =
      (graph.change call.id (graph.revision call.edit)).revised rest := by
  rw [revised, revised, revision_change]
  rfl

end Graph

namespace Session

/-- A call changes its node as it would at first, and is answered as it would be at first. -/
theorem perform_call (session : Session) (call : Call) :
    session.perform call.step =
      (session.withGraph (session.graph.change call.id (session.graph.revision call.edit)),
        session.graph.verdict call) := by
  rw [Call.step, perform_edit, Graph.verdict, Graph.edit_eq]
  cases present : session.graph.contains call.id with
  | false =>
      have beyond : session.graph.nodes.length ≤ call.id :=
        Nat.le_of_not_lt (of_decide_eq_false present)
      have idle : session.graph.change call.id (session.graph.revision call.edit) =
          session.graph := by
        rw [Graph.change, List.modify_eq_self beyond]
      rw [idle]
      rfl
  | true =>
      cases updated : session.graph.update call.edit with
      | error reason =>
          have idle : session.graph.revision call.edit = id := by
            funext node
            rw [Graph.revision, updated]
            rfl
          rw [Graph.change, idle, List.modify_id]
          rfl
      | ok update =>
          have whole : session.graph.revision call.edit = update := by
            funext node
            rw [Graph.revision, updated]
          rw [whole]
          rfl

/-- A run of calls answers each of them as it would be answered at first, and leaves every
node to the calls for it. -/
theorem run_calls (session : Session) (calls : List Call) :
    session.run (calls.map Call.step) =
      (session.withGraph { session.graph with nodes := session.graph.revised calls },
        calls.map session.graph.verdict) := by
  induction calls generalizing session with
  | nil => rfl
  | cons call rest ih =>
      have later := ih (session.withGraph
        (session.graph.change call.id (session.graph.revision call.edit)))
      rw [List.map_cons, run_cons, perform_call, List.map_cons, Graph.revised_cons]
      dsimp only
      rw [later]
      show (_, session.graph.verdict call :: rest.map (Graph.verdict (Graph.change _ _ _))) = _
      rw [Graph.verdict_change]
      rfl

/-- In a run of edits the order among edits of different nodes is of no account. Two lists of
calls that hold the same calls in the same order for each node lead to the same session, and
so to the same texts, and the calls for each node are answered alike, whether they succeed or
fail. -/
theorem run_of_same_calls (session : Session) {first second : List Call}
    (same : ∀ id, Call.on id first = Call.on id second) :
    let one := session.run (first.map Call.step)
    let other := session.run (second.map Call.step)
    one.1 = other.1 ∧
      (∀ id, (first.zip one.2).filter (fun answered => answered.1.id == id) =
        (second.zip other.2).filter fun answered => answered.1.id == id) ∧
      (∀ id, one.1.graph.flatten? id = other.1.graph.flatten? id) ∧
      one.1.graph.render? = other.1.graph.render? := by
  intro one other
  -- Node by node, the two lists make the same of what was there.
  have nodes : session.graph.revised first = session.graph.revised second := by
    apply List.ext_getElem?
    intro id
    rw [Graph.revised, Graph.revised, Call.getElem?_foldl_modify, Call.getElem?_foldl_modify,
      same id]
  have final : one.1 = other.1 := by
    show (session.run _).1 = (session.run _).1
    rw [run_calls, run_calls, nodes]
  have answers (id : NodeId) (calls : List Call) :
      (calls.zip (session.run (calls.map Call.step)).2).filter
          (fun answered => answered.1.id == id) =
        (Call.on id calls).map fun call => (call, session.graph.verdict call) := by
    have paired : calls.zip (calls.map session.graph.verdict) =
        calls.map fun call => (call, session.graph.verdict call) := by
      have zipped : (calls.map fun call => call).zip (calls.map session.graph.verdict) =
          calls.map fun call => (call, session.graph.verdict call) := List.zip_map'
      rwa [List.map_id'] at zipped
    rw [run_calls, paired, List.filter_map]
    rfl
  refine ⟨final, ?_, ?_, ?_⟩
  · intro id
    show List.filter _ (first.zip (session.run _).2) = List.filter _ (second.zip (session.run _).2)
    rw [answers, answers, same id]
  · intro id
    rw [final]
  · rw [final]

/-- A session with two nodes. -/
def paired : Session :=
  ((fresh { strictNulls := true }).run [.addNode ⟨['?', 'x']⟩, .addNode ⟨['?', 'y']⟩]).1

/-- Calls for the first node, one of which fails, and calls for the second, which links to the
first. -/
def firstCalls : List Call :=
  [⟨0, .property ['p'] (.array [.boolean true, .boolean false])⟩, ⟨0, .property ['p'] .null⟩,
    ⟨0, .link ['q'] 1⟩]

def secondCalls : List Call := [⟨1, .link ['q'] 0⟩, ⟨1, .type ['?', 't']⟩]

theorem run_of_same_calls_paired :
    let one := paired.run ((firstCalls ++ secondCalls).map Call.step)
    let other := paired.run ((secondCalls ++ firstCalls).map Call.step)
    (∀ id, Call.on id (firstCalls ++ secondCalls) = Call.on id (secondCalls ++ firstCalls)) ∧
      one.1 = other.1 ∧
      (∀ id, ((firstCalls ++ secondCalls).zip one.2).filter
          (fun answered => answered.1.id == id) =
        ((secondCalls ++ firstCalls).zip other.2).filter fun answered => answered.1.id == id) ∧
      (∀ id, one.1.graph.flatten? id = other.1.graph.flatten? id) ∧
      one.1.graph.render? = other.1.graph.render? := by
  have same (id : NodeId) :
      Call.on id (firstCalls ++ secondCalls) = Call.on id (secondCalls ++ firstCalls) := by
    match id with
    | 0 => rfl
    | 1 => rfl
    | _ + 2 => rfl
  exact ⟨same, run_of_same_calls paired same⟩

end Session

end SparqlText
