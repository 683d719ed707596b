import SpecAsCode.Core.ClosedPaths
import Mathlib.Data.Set.Card

/-!
# The topological order

The sort takes nodes to which no edge of a node that still waits leads.  The edges that wait
are counted for each listed node.
-/

namespace SpecAsCode.Core

open SpecAsCode.Js
open SpecAsCode.Lib

variable {Node : Type} [DecidableEq Node] {edges : Node → List Node} {nodes : List Node}

/-! ## The counts -/

/-- The map has the listed nodes, each with the number of edges to it; the edges are given by
the nodes they lead to. -/
def Counted (nodes pending : List Node) (indeg : OrderedMap Node Int) : Prop :=
  ∀ node, indeg.get? node = if node ∈ nodes then some (pending.count node : Int) else none

theorem Counted.countEdge {pending : List Node} {indeg : OrderedMap Node Int}
    (counted : Counted nodes pending indeg) (next : Node) :
    Counted nodes (pending ++ [next]) (countEdge indeg next) := by
  intro node
  rw [Core.countEdge, counted next, List.count_append, List.count_singleton]
  by_cases listed : next ∈ nodes
  · rw [if_pos listed]
    by_cases same : node = next
    · subst same
      rw [OrderedMap.get?_set_self, if_pos listed]
      simp
    · rw [OrderedMap.get?_set_ne _ same, counted node]
      simp [Ne.symm same]
  · rw [if_neg listed]
    by_cases same : node = next
    · subst same
      rw [counted node, if_neg listed, if_neg listed]
    · rw [counted node]
      simp [Ne.symm same]

theorem Counted.countEdges {pending : List Node} {indeg : OrderedMap Node Int}
    (counted : Counted nodes pending indeg) (targets : List Node) :
    Counted nodes (pending ++ targets) (targets.foldl Core.countEdge indeg) := by
  induction targets generalizing pending indeg with
  | nil => rwa [List.append_nil]
  | cons next targets inductionHypothesis =>
      have counted := inductionHypothesis (counted.countEdge next)
      rwa [List.append_assoc, List.singleton_append] at counted

theorem counted_foldl {sources pending : List Node} {indeg : OrderedMap Node Int}
    (counted : Counted nodes pending indeg) :
    Counted nodes (pending ++ sources.flatMap edges)
      (sources.foldl (fun indeg node => (edges node).foldl Core.countEdge indeg) indeg) := by
  induction sources generalizing pending indeg with
  | nil =>
      rw [List.flatMap_nil, List.append_nil]
      exact counted
  | cons node sources inductionHypothesis =>
      rw [List.flatMap_cons, ← List.append_assoc]
      exact inductionHypothesis (counted.countEdges (edges node))

theorem counted_inDegrees (nodes : List Node) (edges : Node → List Node) :
    Counted nodes (nodes.flatMap edges) (inDegrees nodes edges) := by
  have zero : Counted nodes [] (nodes.foldl (fun indeg node => indeg.set node 0) OrderedMap.empty) :=
    fun node => get?_foldl_set 0 nodes OrderedMap.empty node
  exact counted_foldl zero

/-! ## The loop -/

/-- The state of the loop: the edges that wait are counted, and the nodes to which none leads
are in the order or ready for it. -/
structure Sorting (nodes order pending : List Node) (degrees : Degrees Node) : Prop where
  counted : Counted nodes pending degrees.indeg
  distinct : (order ++ degrees.ready).Nodup
  free : ∀ node, node ∈ order ++ degrees.ready ↔ node ∈ nodes ∧ node ∉ pending

theorem Sorting.perm {order pending others : List Node} {degrees : Degrees Node}
    (sorting : Sorting nodes order pending degrees) (same : pending.Perm others) :
    Sorting nodes order others degrees := by
  refine ⟨fun node => ?_, sorting.distinct, fun node => ?_⟩
  · rw [sorting.counted node, same.count_eq]
  · rw [sorting.free node, same.mem_iff]

/-- An edge is taken away. -/
theorem Sorting.dropEdge {order pending : List Node} {degrees : Degrees Node} {next : Node}
    (sorting : Sorting nodes order (next :: pending) degrees) :
    Sorting nodes order pending (dropEdge degrees next) := by
  obtain ⟨indeg, ready⟩ := degrees
  have counted := sorting.counted next
  rw [List.count_cons_self] at counted
  by_cases listed : next ∈ nodes
  · rw [if_pos listed] at counted
    have waits : next ∉ order ++ ready := fun member =>
      ((sorting.free next).mp member).2 List.mem_cons_self
    have degree : ((pending.count next + 1 : Nat) : Int) - 1 = pending.count next := by omega
    have counts : Counted nodes pending (indeg.set next (pending.count next)) := by
      intro node
      by_cases same : node = next
      · rw [same, OrderedMap.get?_set_self, if_pos listed]
      · rw [OrderedMap.get?_set_ne _ same, sorting.counted node,
          List.count_cons_of_ne (Ne.symm same)]
    simp only [Core.dropEdge, counted, degree]
    by_cases last : next ∈ pending
    · have positive : ¬ ((pending.count next : Int) = 0) :=
        Int.natCast_ne_zero.mpr (List.count_pos_iff.mpr last).ne'
      rw [if_neg positive]
      refine ⟨counts, sorting.distinct, fun node => (sorting.free node).trans ?_⟩
      rw [List.mem_cons, or_iff_right_of_imp fun same => same ▸ last]
    · rw [if_pos (by rw [List.count_eq_zero.mpr last, Nat.cast_zero])]
      have moved : order ++ (ready ++ [next]) = (order ++ ready) ++ [next] :=
        (List.append_assoc _ _ _).symm
      refine ⟨counts, ?_, fun node => ?_⟩
      · rw [moved, ← List.concat_eq_append, List.nodup_concat]
        exact ⟨waits, sorting.distinct⟩
      · rw [moved, List.mem_append, sorting.free node, List.mem_cons, List.mem_singleton, not_or]
        by_cases same : node = next
        · rw [same]
          exact iff_of_true (Or.inr rfl) ⟨listed, last⟩
        · simp [same]
  · rw [if_neg listed] at counted
    simp only [Core.dropEdge, counted]
    have other : ∀ node ∈ nodes, node ≠ next := fun node member same => listed (same ▸ member)
    refine ⟨fun node => ?_, sorting.distinct, fun node => (sorting.free node).trans ?_⟩
    · rw [sorting.counted node]
      refine ite_congr rfl (fun member => ?_) fun _ => rfl
      rw [List.count_cons_of_ne (other node member).symm]
    · refine and_congr_right fun member => ?_
      rw [List.mem_cons, or_iff_right (other node member)]

theorem Sorting.dropEdges {order targets pending : List Node} {degrees : Degrees Node}
    (sorting : Sorting nodes order (targets ++ pending) degrees) :
    Sorting nodes order pending (targets.foldl Core.dropEdge degrees) := by
  induction targets generalizing degrees with
  | nil => exact sorting
  | cons next targets inductionHypothesis => exact inductionHypothesis sorting.dropEdge

/-- A ready node is taken into the order. -/
theorem Sorting.taken {order pending ready : List Node} {indeg : OrderedMap Node Int} {node : Node}
    (sorting : Sorting nodes order pending ⟨indeg, node :: ready⟩) :
    Sorting nodes (order ++ [node]) pending ⟨indeg, ready⟩ := by
  have moved : order ++ [node] ++ ready = order ++ node :: ready := by simp
  refine ⟨sorting.counted, ?_, fun other => ?_⟩
  · rw [moved]
    exact sorting.distinct
  · rw [moved]
    exact sorting.free other

/-- No node of the list has an edge to a node before it. -/
def Forward (edges : Node → List Node) (order : List Node) : Prop :=
  order.Pairwise fun earlier later => earlier ∉ edges later

/-- A ready node waits. -/
theorem Sorting.waits {order waiting pending ready : List Node} {indeg : OrderedMap Node Int}
    {node : Node} (sorting : Sorting nodes order pending ⟨indeg, node :: ready⟩)
    (parts : (order ++ waiting).Perm nodes) : node ∈ waiting := by
  have inside : node ∈ order ++ node :: ready := List.mem_append_right _ List.mem_cons_self
  have listed : node ∈ order ++ waiting := parts.mem_iff.mpr ((sorting.free node).mp inside).1
  refine (List.mem_append.mp listed).resolve_left fun taken => ?_
  exact (List.nodup_append.mp sorting.distinct).2.2 node taken node List.mem_cons_self rfl

/-- The loop ends; to each node that it leaves out leads an edge of such a node. -/
theorem sortLoop_spec (distinct : nodes.Nodup) {fuel : Nat} :
    ∀ {indeg : OrderedMap Node Int} {ready order waiting : List Node},
    Sorting nodes order (waiting.flatMap edges) ⟨indeg, ready⟩ → (order ++ waiting).Perm nodes →
    Forward edges order → waiting.length ≤ fuel →
    ∃ result left, sortLoop edges fuel indeg ready order = some result ∧
      (result ++ left).Perm nodes ∧ Forward edges result ∧
      ∀ node ∈ left, ∃ other ∈ left, node ∈ edges other := by
  induction fuel with
  | zero =>
      intro indeg ready order waiting sorting parts forward enough
      obtain rfl : waiting = [] := List.length_eq_zero_iff.mp (Nat.le_zero.mp enough)
      cases ready with
      | nil => exact ⟨order, [], rfl, parts, forward, by simp⟩
      | cons node ready => exact nomatch sorting.waits parts
  | succ fuel inductionHypothesis =>
      intro indeg ready order waiting sorting parts forward enough
      cases ready with
      | nil =>
          refine ⟨order, waiting, rfl, parts, forward, fun node member => ?_⟩
          by_contra none
          have taken : node ∈ order ++ [] := (sorting.free node).mpr
            ⟨parts.mem_iff.mp (List.mem_append_right _ member), fun pending =>
              none (List.mem_flatMap.mp pending)⟩
          rw [List.append_nil] at taken
          exact (List.nodup_append.mp (parts.nodup_iff.mpr distinct)).2.2 node taken node member rfl
      | cons node ready =>
          have member := sorting.waits parts
          have apart := List.perm_cons_erase member
          have pending : (waiting.flatMap edges).Perm
              (edges node ++ (waiting.erase node).flatMap edges) := apart.flatMap_right edges
          refine inductionHypothesis (sorting.taken.perm pending).dropEdges ?_ ?_ ?_
          · rw [List.append_assoc, List.singleton_append]
            exact (apart.symm.append_left order).trans parts
          · refine List.pairwise_append.mpr ⟨forward, List.pairwise_singleton _ _, ?_⟩
            intro earlier before later same edge
            rw [List.mem_singleton.mp same] at edge
            exact ((sorting.free earlier).mp (List.mem_append_left _ before)).2
              (List.mem_flatMap.mpr ⟨node, member, edge⟩)
          · have shorter := List.length_erase_of_mem member
            omega

/-! ## The order -/

/-- When no cycle is found, the sort gives an order of the nodes. -/
theorem topoSort_of_acyclic (distinct : nodes.Nodup) {fuel : Nat} (enough : nodes.length ≤ fuel)
    (ran : findCycle fuel nodes edges = some none) :
    ∃ order, topoSort fuel nodes edges = some (some order) ∧ order.Perm nodes ∧
      Forward edges order := by
  have counted := counted_inDegrees nodes edges
  have initial : Sorting nodes [] (nodes.flatMap edges) ⟨inDegrees nodes edges,
      nodes.filter fun node => ((inDegrees nodes edges).get? node).getD 0 = 0⟩ := by
    refine ⟨counted, distinct.filter _, fun node => ?_⟩
    rw [List.nil_append, List.mem_filter, decide_eq_true_eq, counted node]
    refine and_congr_right fun listed => ?_
    rw [if_pos listed, Option.getD_some, Int.natCast_eq_zero, List.count_eq_zero]
  obtain ⟨order, left, sorted, parts, forward, each⟩ :=
    sortLoop_spec distinct initial (List.Perm.refl nodes) List.Pairwise.nil enough
  obtain ⟨more, layered, inside⟩ := findCycle_layered ran
  obtain rfl : left = [] := layered.eq_nil_of_each
    (fun node member => inside node (parts.mem_iff.mp (List.mem_append_right _ member))) each
  rw [List.append_nil] at parts
  refine ⟨order, ?_, parts, forward⟩
  rw [topoSort, ran, Option.bind_some]
  dsimp only
  rw [sorted, Option.map_some, if_pos parts.length_eq]

/-- In an order without cycles and backward edges, edges lead forward. -/
theorem Forward.idxOf_lt {order : List Node} (forward : Forward edges order) {node next : Node}
    (acyclic : ¬ OnCycle edges node) (member : node ∈ order) (nextMember : next ∈ order)
    (edge : next ∈ edges node) : order.idxOf node < order.idxOf next := by
  have inside : order.idxOf node < order.length := List.idxOf_lt_length_iff.mpr member
  have nextInside : order.idxOf next < order.length := List.idxOf_lt_length_iff.mpr nextMember
  by_contra behind
  rcases (Nat.le_of_not_lt behind).lt_or_eq with before | same
  · have barred := List.pairwise_iff_getElem.mp forward _ _ nextInside inside before
    rw [List.getElem_idxOf nextInside, List.getElem_idxOf inside] at barred
    exact barred edge
  · have equal : next = node := by
      rw [← List.getElem_idxOf nextInside, ← List.getElem_idxOf inside]
      simp only [same]
    rw [equal] at edge
    exact acyclic (.single edge)

/-- With finitely many nodes below the listed ones, both end.  A cycle is returned when there
is one, and it is a closed path below the nodes; otherwise the nodes are returned with every
node before those it has edges to. -/
theorem topoSort_findCycle_exact (distinct : nodes.Nodup)
    (finite : {node | Below edges nodes node}.Finite) {fuel : Nat}
    (enough : {node | Below edges nodes node}.ncard < fuel) :
    ∃ cycle order, findCycle fuel nodes edges = some cycle ∧
      topoSort fuel nodes edges = some order ∧
      (cycle = none ↔ ∀ node, Below edges nodes node → ¬ OnCycle edges node) ∧
      (∀ path, cycle = some path → ClosedPath edges path ∧ ∀ node ∈ path, Below edges nodes node) ∧
      (order ≠ none ↔ cycle = none) ∧
      ∀ sorted, order = some sorted → sorted.Perm nodes ∧
        ∀ node ∈ nodes, ∀ next ∈ edges node, next ∈ nodes →
          sorted.idxOf node < sorted.idxOf next := by
  have listed : ∀ node ∈ nodes, Below edges nodes node := fun node member => ⟨node, member, .refl⟩
  have supported : ∀ node, Below edges nodes node → edges node ≠ [] →
      node ∈ finite.toFinset.toList :=
    fun node below _ => Finset.mem_toList.mpr (finite.mem_toFinset.mpr below)
  obtain ⟨cycle, ran⟩ : ∃ cycle, findCycle fuel nodes edges = some cycle := by
    refine findCycle_ends_inside (fun node below next edge => below.step edge) supported ?_ nodes
      listed
    rwa [Finset.length_toList, ← Set.ncard_eq_toFinset_card _ finite]
  have room : nodes.length ≤ fuel := by
    have fewer : nodes.toFinset.card ≤ {node | Below edges nodes node}.ncard := by
      rw [Set.ncard_eq_toFinset_card _ finite]
      exact Finset.card_le_card fun node member =>
        finite.mem_toFinset.mpr (listed node (List.mem_toFinset.mp member))
    rw [List.toFinset_card_of_nodup distinct] at fewer
    omega
  cases cycle with
  | some path =>
      refine ⟨some path, none, ran, by rw [topoSort, ran]; rfl, findCycle_eq_none_iff ran, ?_,
        by simp, nofun⟩
      rintro _ ⟨⟩
      exact findCycle_some ran
  | none =>
      obtain ⟨order, sorted, perm, forward⟩ := topoSort_of_acyclic distinct room ran
      refine ⟨none, some order, ran, sorted, findCycle_eq_none_iff ran, nofun, by simp, ?_⟩
      rintro _ ⟨⟩
      refine ⟨perm, fun node member next edge nextMember => ?_⟩
      exact forward.idxOf_lt (findCycle_none ran node member node .refl) (perm.mem_iff.mpr member)
        (perm.mem_iff.mpr nextMember) edge

/-- One node has edges to the other one and to a node that is not listed. -/
def forkedEdges (node : Nat) : List Nat :=
  if node = 0 then [1, 5] else []

theorem below_forkedEdges {node : Nat} (below : Below forkedEdges [1, 0] node) :
    node ∈ ({0, 1, 5} : Finset Nat) := by
  obtain ⟨root, member, path⟩ := below
  induction path with
  | refl => exact (by decide : ∀ root ∈ [1, 0], root ∈ ({0, 1, 5} : Finset Nat)) root member
  | @tail node next _ edge _ =>
      rw [Follows, forkedEdges] at edge
      split_ifs at edge
      · exact (by decide : ∀ next ∈ [1, 5], next ∈ ({0, 1, 5} : Finset Nat)) next edge
      · cases edge

theorem topoSort_forked : ∃ order, topoSort 4 [1, 0] forkedEdges = some (some order) ∧
    order.Perm [1, 0] ∧ order.idxOf 0 < order.idxOf 1 := by
  have subset : {node | Below forkedEdges [1, 0] node} ⊆ (({0, 1, 5} : Finset Nat) : Set Nat) :=
    fun node below => Finset.mem_coe.mpr (below_forkedEdges below)
  have finite := (Finset.finite_toSet _).subset subset
  have few : {node | Below forkedEdges [1, 0] node}.ncard < 4 := by
    refine Nat.lt_of_le_of_lt (Set.ncard_le_ncard subset (Finset.finite_toSet _)) ?_
    rw [Set.ncard_coe_finset]
    decide
  obtain ⟨cycle, order, ran, sorted, -, -, found, exact⟩ :=
    topoSort_findCycle_exact (by decide) finite few
  obtain rfl : cycle = none := Option.some.inj (ran.symm.trans (by decide +kernel))
  cases order with
  | none => exact absurd rfl (found.mpr rfl)
  | some order =>
      obtain ⟨perm, forward⟩ := exact order rfl
      exact ⟨order, sorted, perm, forward 0 (by decide) 1 (by decide) (by decide)⟩

end SpecAsCode.Core
