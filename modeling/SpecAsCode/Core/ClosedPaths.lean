import SpecAsCode.Core.Cycles
import Mathlib.Data.List.Chain

/-!
# Found cycles

The cycle that `findCycle` returns is a closed path of edges below one of the nodes.
-/

namespace SpecAsCode.Core

open SpecAsCode.Js
open SpecAsCode.Lib

variable {Node : Type} {edges : Node → List Node} {roots : List Node}

/-! ## Paths -/

/-- A path that leads along edges from a node back to it. -/
def ClosedPath (edges : Node → List Node) (path : List Node) : Prop :=
  ∃ first middle, path = first :: (middle ++ [first]) ∧ path.IsChain (Follows edges)

/-- Some path leads to a node from one of the roots. -/
def Below (edges : Node → List Node) (roots : List Node) (node : Node) : Prop :=
  ∃ root ∈ roots, Reaches edges root node

/-- A path along edges below the roots. -/
def Route (edges : Node → List Node) (roots stack : List Node) : Prop :=
  stack.IsChain (Follows edges) ∧ ∀ node ∈ stack, Below edges roots node

theorem Below.step {node next : Node} (below : Below edges roots node) (edge : next ∈ edges node) :
    Below edges roots next := by
  obtain ⟨root, member, path⟩ := below
  exact ⟨root, member, path.tail edge⟩

theorem Route.singleton {root : Node} (member : root ∈ roots) : Route edges roots [root] :=
  ⟨List.isChain_singleton root, fun _ same => List.mem_singleton.mp same ▸ ⟨root, member, .refl⟩⟩

/-- A route goes on along an edge of its last node. -/
theorem Route.snoc {stack : List Node} {node next : Node}
    (route : Route edges roots (stack ++ [node])) (edge : next ∈ edges node) :
    Route edges roots (stack ++ [node] ++ [next]) := by
  refine ⟨List.isChain_append.mpr ⟨route.1, List.isChain_singleton next, ?_⟩, ?_⟩
  · intro last isLast first isFirst
    rw [List.getLast?_append, List.getLast?_singleton, Option.some_or, Option.mem_some_iff] at isLast
    rw [List.head?_cons, Option.mem_some_iff] at isFirst
    rwa [← isLast, ← isFirst]
  · intro other member
    rcases List.mem_append.mp member with old | new
    · exact route.2 other old
    · rw [List.mem_singleton.mp new]
      exact (route.2 node (List.mem_append_right _ List.mem_cons_self)).step edge

/-- A node that a path comes to is reached by at least one edge. -/
theorem transGen_of_isChain {first last : Node} {rest : List Node}
    (chain : (first :: rest).IsChain (Follows edges)) (member : last ∈ rest) :
    Relation.TransGen (Follows edges) first last := by
  induction rest generalizing first with
  | nil => cases member
  | cons next rest inductionHypothesis =>
      obtain ⟨edge, later⟩ := List.isChain_cons_cons.mp chain
      rcases List.mem_cons.mp member with rfl | further
      · exact .single edge
      · exact .head edge (inductionHypothesis later further)

theorem ClosedPath.exists_onCycle {path : List Node} (closed : ClosedPath edges path) :
    ∃ node ∈ path, OnCycle edges node := by
  obtain ⟨first, middle, rfl, chain⟩ := closed
  exact ⟨first, List.mem_cons_self,
    transGen_of_isChain chain (List.mem_append_right _ List.mem_cons_self)⟩

variable [DecidableEq Node]

/-- The stack is closed at one of its nodes when the next edge leads there. -/
theorem closedPath_closedAt {stack : List Node} {node : Node} (member : node ∈ stack)
    (chain : (stack ++ [node]).IsChain (Follows edges)) :
    ClosedPath edges (closedAt stack node) := by
  have inside : stack.idxOf node < stack.length := List.idxOf_lt_length_iff.mpr member
  have split : stack.drop (stack.idxOf node) = node :: stack.drop (stack.idxOf node + 1) := by
    rw [List.drop_eq_getElem_cons inside, List.getElem_idxOf inside]
  refine ⟨node, stack.drop (stack.idxOf node + 1), ?_, ?_⟩
  · rw [closedAt, if_pos member, split, List.cons_append]
  · rw [closedAt, if_pos member, ← List.drop_append_of_le_length (Nat.le_of_lt inside)]
    exact chain.drop _

theorem mem_closedAt {stack : List Node} {node other : Node} (member : other ∈ closedAt stack node) :
    other ∈ stack ++ [node] := by
  rcases List.mem_append.mp member with inside | last
  · exact List.mem_append_left _ (List.mem_of_mem_drop inside)
  · exact List.mem_append_right _ last

/-! ## Visits -/

/-- What a visit gives: a cycle, or a search to go on with. -/
def Outcome (Found : List Node → Prop) (Held : Search Node → Prop) :
    Option (List Node) × Search Node → Prop
  | (some path, _) => Found path
  | (none, next) => Held next

theorem visitEach_outcome {step : Node → Search Node → Option (Option (List Node) × Search Node)}
    {Found : List Node → Prop} {Held : Search Node → Prop} {nodes : List Node}
    (steps : ∀ node ∈ nodes, ∀ search result, Held search → step node search = some result →
      Outcome Found Held result) :
    ∀ {search : Search Node} {result}, Held search → visitEach step nodes search = some result →
      Outcome Found Held result := by
  induction nodes with
  | nil =>
      intro search result held ran
      cases ran
      exact held
  | cons node nodes inductionHypothesis =>
      intro search result held ran
      rw [visitEach] at ran
      obtain ⟨⟨cycle, middle⟩, first, rest⟩ := Option.bind_eq_some_iff.mp ran
      have outcome := steps node List.mem_cons_self search _ held first
      cases cycle with
      | some path =>
          cases rest
          exact outcome
      | none =>
          exact inductionHypothesis (fun other member => steps other (List.mem_cons_of_mem _ member))
            outcome rest

/-- The gray nodes are those on the stack. -/
def Stacked (stack : List Node) (search : Search Node) : Prop :=
  search.stack = stack ∧ ∀ node, search.color.get? node = some .gray ↔ node ∈ stack

theorem withColor_stack (search : Search Node) (node : Node) :
    (withColor search node).stack = search.stack := by
  unfold withColor
  cases search.color.get? node <;> rfl

theorem Stacked.withColor {stack : List Node} {search : Search Node} (stacked : Stacked stack search)
    (node : Node) : Stacked stack (withColor search node) :=
  ⟨(withColor_stack search node).trans stacked.1,
    fun other => (get?_withColor search node other (by decide)).trans (stacked.2 other)⟩

theorem Stacked.entered {stack : List Node} {search : Search Node} (stacked : Stacked stack search)
    (node : Node) :
    Stacked (stack ++ [node]) ⟨search.color.set node .gray, search.stack ++ [node]⟩ := by
  refine ⟨by rw [stacked.1], fun other => ?_⟩
  rw [List.mem_append, List.mem_singleton]
  by_cases same : other = node
  · rw [same, OrderedMap.get?_set_self]
    exact iff_of_true rfl (Or.inr rfl)
  · rw [OrderedMap.get?_set_ne _ same, stacked.2, or_iff_left same]

theorem Stacked.left {stack : List Node} {search : Search Node} {node : Node}
    (stacked : Stacked (stack ++ [node]) search) (fresh : node ∉ stack) :
    Stacked stack ⟨search.color.set node .black, search.stack.dropLast⟩ := by
  refine ⟨by rw [stacked.1, List.dropLast_concat], fun other => ?_⟩
  by_cases same : other = node
  · rw [same, OrderedMap.get?_set_self]
    exact iff_of_false nofun fresh
  · rw [OrderedMap.get?_set_ne _ same, stacked.2, List.mem_append, List.mem_singleton,
      or_iff_left same]

/-- The path is closed, and its nodes are below the roots. -/
def Returns (edges : Node → List Node) (roots path : List Node) : Prop :=
  ClosedPath edges path ∧ ∀ node ∈ path, Below edges roots node

/-- A visit leaves the stack as it was, or returns a closed path. -/
theorem visit_outcome {fuel : Nat} : ∀ {node : Node} {stack : List Node} {search : Search Node}
    {result : Option (List Node) × Search Node}, Stacked stack search →
    Route edges roots (stack ++ [node]) → visit edges fuel node search = some result →
    Outcome (Returns edges roots) (Stacked stack) result := by
  induction fuel with
  | zero =>
      intro node stack search result stacked route ran
      unfold visit at ran
      split_ifs at ran with gray black
      · cases ran
        rw [stacked.1]
        exact ⟨closedPath_closedAt ((stacked.2 node).mp gray) route.1,
          fun other member => route.2 other (mem_closedAt member)⟩
      · cases ran
        exact stacked
  | succ fuel inductionHypothesis =>
      intro node stack search result stacked route ran
      unfold visit at ran
      split_ifs at ran with gray black
      · cases ran
        rw [stacked.1]
        exact ⟨closedPath_closedAt ((stacked.2 node).mp gray) route.1,
          fun other member => route.2 other (mem_closedAt member)⟩
      · cases ran
        exact stacked
      · obtain ⟨⟨cycle, next⟩, visited, rfl⟩ := Option.map_eq_some_iff.mp ran
        have children : Outcome (Returns edges roots) (Stacked (stack ++ [node])) (cycle, next) :=
          visitEach_outcome (fun child edge start finish held ran =>
            inductionHypothesis (held.withColor child) (route.snoc edge) ran)
            (stacked.entered node) visited
        cases cycle with
        | some path => exact children
        | none => exact Stacked.left children fun member => gray ((stacked.2 node).mpr member)

/-- What is found is a closed path below the nodes. -/
theorem findCycle_some {fuel : Nat} {nodes path : List Node}
    (ran : findCycle fuel nodes edges = some (some path)) : Returns edges nodes path := by
  obtain ⟨⟨cycle, search⟩, visited, rfl⟩ := Option.map_eq_some_iff.mp ran
  have initial : Stacked []
      ⟨nodes.foldl (fun color node => color.set node Color.white) OrderedMap.empty, []⟩ :=
    ⟨rfl, fun node => iff_of_false (get?_initial nodes node (by decide)) List.not_mem_nil⟩
  have outcome : Outcome (Returns edges nodes) (Stacked []) (some path, search) := by
    refine visitEach_outcome (fun node member start result held ran => ?_) initial visited
    by_cases white : start.color.get? node = some .white
    · rw [if_pos white] at ran
      exact visit_outcome held (Route.singleton member) ran
    · rw [if_neg white] at ran
      cases ran
      exact held
  exact outcome

/-- A cycle is found exactly when there is one below the nodes. -/
theorem findCycle_eq_none_iff {fuel : Nat} {nodes : List Node} {cycle : Option (List Node)}
    (ran : findCycle fuel nodes edges = some cycle) :
    cycle = none ↔ ∀ node, Below edges nodes node → ¬ OnCycle edges node := by
  constructor
  · rintro rfl node ⟨root, member, path⟩
    exact findCycle_none ran root member node path
  · intro acyclic
    cases cycle with
    | none => rfl
    | some path =>
        obtain ⟨closed, below⟩ := findCycle_some ran
        obtain ⟨node, member, cycle⟩ := closed.exists_onCycle
        exact absurd cycle (acyclic node (below node member))

end SpecAsCode.Core
