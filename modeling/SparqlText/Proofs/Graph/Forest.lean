/-
# Depth-first forests

The order in which a walk visits nodes. A walk goes along one list of nodes that are
still to come, and puts what a node links to in front of it. Here the same order is put
together tree by tree: a node, then all that is new under it, and only then what comes
after it, with everything seen so far left out. Both give the same nodes in the same
order (`Walked.forest`), and a forest has no other order (`Forest.unique`). A root that
is repeated adds nothing, and the first occurrences of the roots are enough
(`Forest.eraseDups`).
-/

import SparqlText.Proofs.Graph.Reach

namespace SparqlText.Graph

/-- The nodes of the depth-first trees under `roots`, taken from left to right, without
those in `visited`. -/
inductive Forest (graph : Graph) : (visited roots ids : List NodeId) → Prop
  | nil (visited : List NodeId) : Forest graph visited [] []
  /-- A root that has been visited has no tree. -/
  | seen {visited rest ids : List NodeId} {id : NodeId} (member : id ∈ visited)
      (later : Forest graph visited rest ids) : Forest graph visited (id :: rest) ids
  /-- Any other root has one: itself, and the trees under its links. The trees of the
  roots behind it leave out all of that. -/
  | tree {visited rest below ids : List NodeId} {id : NodeId} {node : Node}
      (unseen : id ∉ visited) (found : graph.nodes[id]? = some node)
      (under : Forest graph (id :: visited) node.links below)
      (later : Forest graph (below.reverse ++ id :: visited) rest ids) :
      Forest graph visited (id :: rest) (id :: below ++ ids)

namespace Forest

variable {graph : Graph} {visited : List NodeId}

/-- The trees of two lists of roots are those of the first list, and then those of the
second without what is in the first. -/
theorem exists_append {first second ids : List NodeId}
    (forest : graph.Forest visited (first ++ second) ids) :
    ∃ before after, ids = before ++ after ∧ graph.Forest visited first before ∧
      graph.Forest (before.reverse ++ visited) second after := by
  induction first generalizing visited ids with
  | nil => exact ⟨[], ids, rfl, .nil visited, forest⟩
  | cons id rest ih =>
      cases forest with
      | seen member later =>
          obtain ⟨before, after, rfl, left, right⟩ := ih later
          exact ⟨before, after, rfl, .seen member left, right⟩
      | @tree _ _ below ids _ node unseen found under later =>
          obtain ⟨before, after, rfl, left, right⟩ := ih later
          refine ⟨id :: below ++ before, after, by simp, .tree unseen found under left, ?_⟩
          simpa using right

/-- A forest has one order. -/
theorem unique {roots ids others : List NodeId} (forest : graph.Forest visited roots ids)
    (other : graph.Forest visited roots others) : ids = others := by
  induction forest generalizing others with
  | nil visited =>
      cases other with
      | nil => rfl
  | seen member _ ih =>
      cases other with
      | seen _ later => exact ih later
      | tree unseen _ _ _ => exact absurd member unseen
  | tree unseen found _ _ first second =>
      cases other with
      | seen member _ => exact absurd member unseen
      | tree _ same under later =>
          rw [found, Option.some.injEq] at same
          subst same
          obtain rfl := first under
          rw [second later]

/-- A root that has been visited can be left out, however often it occurs. -/
theorem filter {roots ids : List NodeId} {seen : NodeId}
    (forest : graph.Forest visited roots ids) (member : seen ∈ visited) :
    graph.Forest visited (roots.filter (!· == seen)) ids := by
  induction forest with
  | nil visited => exact .nil visited
  | @seen visited rest ids id before _ ih =>
      by_cases same : id = seen
      · rw [List.filter_cons_of_neg (by simp [same])]
        exact ih member
      · rw [List.filter_cons_of_pos (by simpa using same)]
        exact .seen before (ih member)
  | @tree visited rest below ids id node unseen found under _ _ ih =>
      have other : id ≠ seen := by
        rintro rfl
        exact unseen member
      rw [List.filter_cons_of_pos (by simpa using other)]
      exact .tree unseen found under
        (ih (List.mem_append_right _ (List.mem_cons_of_mem _ member)))

/-- Only the first occurrence of a root matters. -/
theorem eraseDups {roots ids : List NodeId} (forest : graph.Forest visited roots ids) :
    graph.Forest visited roots.eraseDups ids := by
  -- By induction on the number of roots: behind a root all of its repetitions are left out.
  induction count : roots.length using Nat.strongRecOn generalizing visited roots ids with
  | ind bound ih =>
      have shorter {id : NodeId} {rest : List NodeId} (same : roots = id :: rest) :
          (rest.filter (!· == id)).length < bound := by
        rw [← count, same, List.length_cons]
        exact Nat.lt_succ_of_le (List.length_filter_le _ _)
      cases forest with
      | nil => exact .nil visited
      | seen member later =>
          rw [List.eraseDups_cons]
          exact .seen member (ih _ (shorter rfl) (later.filter member) rfl)
      | @tree _ rest below ids id node unseen found under later =>
          have now : id ∈ below.reverse ++ id :: visited :=
            List.mem_append_right _ List.mem_cons_self
          rw [List.eraseDups_cons]
          exact .tree unseen found under (ih _ (shorter rfl) (later.filter now) rfl)

end Forest

/-- A walk visits the nodes of the depth-first trees under its roots, in their order. -/
theorem Walked.forest {graph : Graph} {visited roots ids : List NodeId}
    (walked : graph.Walked visited roots ids) : graph.Forest visited roots ids := by
  induction walked with
  | nil visited => exact .nil visited
  | seen member _ ih => exact .seen member ih
  | fresh unseen found _ ih =>
      obtain ⟨below, after, rfl, under, later⟩ := ih.exists_append
      exact .tree unseen found under later

end SparqlText.Graph
