/-
# Grouping by predicate

What a node is given arrives one thing after the other, and the node keeps it in groups, one
for each predicate. Here all that was given is grouped at once: the predicates in the order
of their first use, and what is held under one of them in the order in which it came.
Accumulation comes to the same groups (`accumulate_groups`), and grouping moves things about
but neither loses nor repeats one (`perm_grouped`).
-/

import Mathlib.Data.List.Basic
import SparqlText.Graph.Basic

namespace SparqlText

/-- Something that is held, and the predicate that it is held under. -/
structure Holding where
  predicate : Term
  held : Held
  deriving DecidableEq, Repr

namespace Holding

/-- The predicates of a list in the order of their first use. -/
def predicates (holdings : List Holding) : List Term :=
  (holdings.map Holding.predicate).eraseDups

/-- What a list holds under one predicate, in order. -/
def under (predicate : Term) (holdings : List Holding) : List Holding :=
  holdings.filter fun holding => holding.predicate == predicate

/-- What a list holds under other predicates, in order. -/
def apart (predicate : Term) (holdings : List Holding) : List Holding :=
  holdings.filter fun holding => !holding.predicate == predicate

/-- A list brought into groups: predicate by predicate, each group in order. -/
def grouped (holdings : List Holding) : List Holding :=
  (predicates holdings).flatMap fun predicate => under predicate holdings

/-- The groups of a list as a node keeps them. -/
def groups (holdings : List Holding) : List Group :=
  (predicates holdings).map fun predicate =>
    ⟨predicate, (under predicate holdings).map Holding.held⟩

/-- A node with the groups of a list. -/
def node (subject : Term) (types : List Term) (holdings : List Holding) : Node :=
  ⟨subject, types, groups holdings⟩

/-! ## The first group -/

theorem length_apart_lt (first : Holding) (rest : List Holding) :
    (apart first.predicate rest).length < (first :: rest).length :=
  Nat.lt_succ_of_le (List.length_filter_le _ rest)

theorem predicates_cons (first : Holding) (rest : List Holding) :
    predicates (first :: rest) =
      first.predicate :: predicates (apart first.predicate rest) := by
  rw [predicates, List.map_cons, List.eraseDups_cons, List.filter_map]
  rfl

/-- Under the predicates of the other groups, the others hold all there is. -/
theorem under_of_mem_apart {first : Holding} {rest : List Holding} {predicate : Term}
    (used : predicate ∈ predicates (apart first.predicate rest)) :
    under predicate (first :: rest) = under predicate (apart first.predicate rest) := by
  have differ : predicate ≠ first.predicate := by
    obtain ⟨holding, among, rfl⟩ := List.mem_map.mp (List.mem_eraseDups.mp used)
    simpa using (List.mem_filter.mp among).2
  rw [under, List.filter_cons_of_neg (by simpa using differ.symm), under, apart,
    List.filter_filter]
  apply List.filter_congr
  intro holding _
  by_cases same : holding.predicate = predicate
  · simp [same, differ]
  · simp [same]

theorem grouped_cons (first : Holding) (rest : List Holding) :
    grouped (first :: rest) =
      first :: under first.predicate rest ++ grouped (apart first.predicate rest) := by
  have own : under first.predicate (first :: rest) = first :: under first.predicate rest :=
    List.filter_cons_of_pos (by simp)
  rw [grouped, predicates_cons, List.flatMap_cons, own,
    List.flatMap_congr fun _ used => under_of_mem_apart used]
  rfl

theorem groups_cons (first : Holding) (rest : List Holding) :
    groups (first :: rest) =
      ⟨first.predicate, first.held :: (under first.predicate rest).map Holding.held⟩ ::
        groups (apart first.predicate rest) := by
  have own : under first.predicate (first :: rest) = first :: under first.predicate rest :=
    List.filter_cons_of_pos (by simp)
  rw [groups, predicates_cons, List.map_cons, own]
  congr 1
  apply List.map_congr_left
  intro predicate used
  rw [under_of_mem_apart used]

/-! ## Grouping and accumulation -/

/-- Grouping loses nothing and repeats nothing. -/
theorem perm_grouped : ∀ holdings : List Holding, (grouped holdings).Perm holdings
  | [] => List.Perm.nil
  | first :: rest => by
      have later := perm_grouped (apart first.predicate rest)
      have all := List.filter_append_perm
        (fun holding : Holding => holding.predicate == first.predicate) rest
      rw [grouped_cons]
      exact ((later.append_left _).trans all).cons first
  termination_by holdings => holdings.length
  decreasing_by exact length_apart_lt first rest

theorem under_append (predicate : Term) (first second : List Holding) :
    under predicate (first ++ second) = under predicate first ++ under predicate second :=
  List.filter_append first second

theorem apart_append (predicate : Term) (first second : List Holding) :
    apart predicate (first ++ second) = apart predicate first ++ apart predicate second :=
  List.filter_append first second

theorem under_map_mk (predicate : Term) (held : List Held) :
    under predicate (held.map (Holding.mk predicate)) = held.map (Holding.mk predicate) := by
  simp [under]

theorem under_map_mk_of_ne {predicate other : Term} (differ : other ≠ predicate)
    (held : List Held) : under other (held.map (Holding.mk predicate)) = [] := by
  simp [under, differ.symm]

theorem apart_map_mk (predicate : Term) (held : List Held) :
    apart predicate (held.map (Holding.mk predicate)) = [] := by
  simp [apart]

theorem apart_map_mk_of_ne {predicate other : Term} (differ : other ≠ predicate)
    (held : List Held) :
    apart other (held.map (Holding.mk predicate)) = held.map (Holding.mk predicate) := by
  simp [apart, differ.symm]

/-- Accumulating under one predicate is grouping with that much more at the end. -/
theorem accumulate_groups (predicate : Term) {held : List Held} (some : held ≠ []) :
    ∀ holdings : List Holding,
      Node.accumulate predicate held (groups holdings) =
        groups (holdings ++ held.map (Holding.mk predicate))
  | [] => by
      obtain ⟨first, rest, rfl⟩ := List.exists_cons_of_ne_nil some
      rw [List.nil_append, List.map_cons, groups_cons, under_map_mk, apart_map_mk]
      simp [groups, predicates, Node.accumulate, Function.comp_def]
  | first :: rest => by
      have later := accumulate_groups predicate some (apart first.predicate rest)
      rw [List.cons_append, groups_cons, groups_cons, Node.accumulate]
      split
      case isTrue same =>
        obtain rfl : first.predicate = predicate := same
        rw [under_append, apart_append, under_map_mk, apart_map_mk, List.append_nil,
          List.map_append, List.map_map]
        simp [Function.comp_def]
      case isFalse differ =>
        have differ : first.predicate ≠ predicate := differ
        rw [later, under_append, apart_append, under_map_mk_of_ne differ,
          apart_map_mk_of_ne differ, List.append_nil]
  termination_by holdings => holdings.length
  decreasing_by exact length_apart_lt first rest

/-- What a node is given under a predicate comes behind all that it held. -/
theorem withHeld_node (predicate : Term) {held : List Held} (some : held ≠ [])
    (subject : Term) (types : List Term) (holdings : List Holding) :
    (node subject types holdings).withHeld predicate held =
      node subject types (holdings ++ held.map (Holding.mk predicate)) := by
  rw [node, Node.withHeld, accumulate_groups predicate some]
  rfl

end Holding

/-! ## Pairs -/

namespace Graph

/-- A holding as a pair of a block: a node is shown by its subject. -/
def holdingPair (graph : Graph) (holding : Holding) : Pair :=
  ⟨holding.predicate.text, graph.objectText holding.held⟩

/-- Grouped holdings are written one after the other. -/
theorem flatMap_groupPairs_groups (graph : Graph) (holdings : List Holding) :
    (Holding.groups holdings).flatMap graph.groupPairs =
      (Holding.grouped holdings).map graph.holdingPair := by
  rw [Holding.groups, Holding.grouped, List.flatMap_map, List.map_flatMap]
  apply List.flatMap_congr
  intro predicate _
  rw [groupPairs, List.map_map]
  apply List.map_congr_left
  intro holding among
  have same : holding.predicate = predicate := by simpa using (List.mem_filter.mp among).2
  rw [holdingPair, same]
  rfl

end Graph

end SparqlText
