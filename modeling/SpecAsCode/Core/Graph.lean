import SpecAsCode.Js.OrderedMap
import Mathlib.Logic.Relation

/-!
# Graphs

Reachability and cycles in a graph that is given by its edge function.  The loops of the
source end because only finitely many nodes have edges; here they take a bound on their
number of passes, and give nothing when it is too small.
-/

namespace SpecAsCode.Core

open SpecAsCode.Js

variable {Node : Type} [DecidableEq Node]

/-! ## Reachable nodes -/

/-- The loop of `reachableFrom`.  The queue is taken and grown at its last node, which is
the first one here. -/
def reachableLoop (edges : Node → List Node) : Nat → List Node → List Node → Option (List Node)
  | _, [], out => some out
  | 0, _ :: _, _ => none
  | fuel + 1, node :: queue, out =>
      if node ∈ out then
        reachableLoop edges fuel queue out
      else
        reachableLoop edges fuel ((edges node).reverse ++ queue) (out ++ [node])

/-- The nodes that are reached from the start by at least one edge. -/
def reachableFrom (fuel : Nat) (start : Node) (edges : Node → List Node) : Option (List Node) :=
  reachableLoop edges fuel (edges start).reverse []

/-- One node has an edge to the other. -/
def Edge (edges : Node → List Node) (node next : Node) : Prop :=
  next ∈ edges node

/-- The nodes a finished loop returns. -/
theorem mem_reachableLoop {edges : Node → List Node} {fuel : Nat} {queue out result : List Node}
    (ran : reachableLoop edges fuel queue out = some result)
    (pending : ∀ node ∈ out, ∀ next ∈ edges node, next ∈ out ∨ next ∈ queue) (node : Node) :
    node ∈ result ↔ node ∈ out ∨ ∃ first ∈ queue, Relation.ReflTransGen (Edge edges) first node := by
  induction fuel generalizing queue out with
  | zero =>
      cases queue with
      | nil =>
          cases ran
          simp
      | cons first queue => cases ran
  | succ fuel inductionHypothesis =>
      cases queue with
      | nil =>
          cases ran
          simp
      | cons first queue =>
          rw [reachableLoop] at ran
          split_ifs at ran with seen
          · -- a node that was seen before adds nothing new
            have closed : ∀ start, Relation.ReflTransGen (Edge edges) start node → start ∈ out →
                node ∈ out ∨ ∃ later ∈ queue, Relation.ReflTransGen (Edge edges) later node := by
              intro start path
              induction path using Relation.ReflTransGen.head_induction_on with
              | refl => exact Or.inl
              | head step rest inner =>
                  intro member
                  rcases pending _ member _ step with inside | queued
                  · exact inner inside
                  · rcases List.mem_cons.mp queued with rfl | later
                    · exact inner seen
                    · exact Or.inr ⟨_, later, rest⟩
            rw [inductionHypothesis ran]
            · constructor
              · rintro (inside | ⟨later, member, path⟩)
                · exact Or.inl inside
                · exact Or.inr ⟨later, List.mem_cons_of_mem _ member, path⟩
              · rintro (inside | ⟨later, member, path⟩)
                · exact Or.inl inside
                · rcases List.mem_cons.mp member with rfl | queued
                  · exact closed _ path seen
                  · exact Or.inr ⟨later, queued, path⟩
            · intro other member next step
              rcases pending other member next step with inside | queued
              · exact Or.inl inside
              · rcases List.mem_cons.mp queued with rfl | later
                · exact Or.inl seen
                · exact Or.inr later
          · rw [inductionHypothesis ran]
            · simp only [List.mem_append, List.mem_reverse, List.mem_cons, List.not_mem_nil, or_false]
              constructor
              · rintro ((inside | rfl) | ⟨later, step | queued, path⟩)
                · exact Or.inl inside
                · exact Or.inr ⟨_, Or.inl rfl, Relation.ReflTransGen.refl⟩
                · exact Or.inr ⟨first, Or.inl rfl, Relation.ReflTransGen.head step path⟩
                · exact Or.inr ⟨later, Or.inr queued, path⟩
              · rintro (inside | ⟨later, rfl | queued, path⟩)
                · exact Or.inl (Or.inl inside)
                · rcases Relation.ReflTransGen.cases_head path with rfl | ⟨next, step, rest⟩
                  · exact Or.inl (Or.inr rfl)
                  · exact Or.inr ⟨next, Or.inl step, rest⟩
                · exact Or.inr ⟨later, Or.inr queued, path⟩
            · intro other member next step
              simp only [List.mem_append, List.mem_singleton, List.mem_reverse] at member ⊢
              rcases member with inside | rfl
              · rcases pending other inside next step with known | queued
                · exact Or.inl (Or.inl known)
                · rcases List.mem_cons.mp queued with rfl | later
                  · exact Or.inl (Or.inr rfl)
                  · exact Or.inr (Or.inr later)
              · exact Or.inr (Or.inl step)

/-- The number of edges of the nodes that have not been returned yet. -/
def edgesLeft (edges : Node → List Node) (out : List Node) : List Node → Nat
  | [] => 0
  | node :: support => (if node ∈ out then 0 else (edges node).length) + edgesLeft edges out support

theorem edgesLeft_snoc (edges : Node → List Node) (support : List Node) {out : List Node}
    {node : Node} (fresh : node ∉ out) :
    edgesLeft edges (out ++ [node]) support ≤ edgesLeft edges out support ∧
      (node ∈ support → edgesLeft edges (out ++ [node]) support + (edges node).length ≤
        edgesLeft edges out support) := by
  induction support with
  | nil => simp [edgesLeft]
  | cons first support inductionHypothesis =>
      obtain ⟨shrinks, drops⟩ := inductionHypothesis
      by_cases same : first = node
      · subst same
        rw [edgesLeft, edgesLeft, if_pos (by simp), if_neg fresh]
        exact ⟨by omega, fun _ => by omega⟩
      · have kept : first ∈ out ++ [node] ↔ first ∈ out := by simp [same]
        simp only [edgesLeft, kept]
        refine ⟨by omega, fun member => ?_⟩
        have later := drops ((List.mem_cons.mp member).resolve_left (Ne.symm same))
        omega

/-- The loop ends within as many passes as there are edges. -/
theorem exists_reachableLoop {edges : Node → List Node} {support : List Node}
    (supported : ∀ node, edges node ≠ [] → node ∈ support) {fuel : Nat} {queue out : List Node}
    (enough : queue.length + edgesLeft edges out support ≤ fuel) :
    ∃ result, reachableLoop edges fuel queue out = some result := by
  induction fuel generalizing queue out with
  | zero =>
      cases queue with
      | nil => exact ⟨out, rfl⟩
      | cons first queue => exact absurd enough (by simp)
  | succ fuel inductionHypothesis =>
      cases queue with
      | nil => exact ⟨out, rfl⟩
      | cons first queue =>
          rw [List.length_cons] at enough
          rw [reachableLoop]
          split_ifs with seen
          · exact inductionHypothesis (by omega)
          · obtain ⟨shrinks, drops⟩ := edgesLeft_snoc edges support seen
            refine inductionHypothesis ?_
            rw [List.length_append, List.length_reverse]
            by_cases empty : edges first = []
            · rw [empty, List.length_nil]
              omega
            · have less := drops (supported first empty)
              omega

/-! ## Cycles -/

/-- How far the search has come with a node. -/
inductive Color where
  | white
  | gray
  | black
  deriving DecidableEq

/-- The state of the search: the colors, and the path to the current node. -/
structure Search (Node : Type) [DecidableEq Node] where
  color : OrderedMap Node Color
  stack : List Node

/-- The nodes are visited one after another, until a visit finds a cycle. -/
def visitEach (visit : Node → Search Node → Option (Option (List Node) × Search Node)) :
    List Node → Search Node → Option (Option (List Node) × Search Node)
  | [], search => some (none, search)
  | node :: rest, search =>
      (visit node search).bind fun (cycle, next) =>
        match cycle with
        | some path => some (some path, next)
        | none => visitEach visit rest next

/-- A node that an edge leads to gets a color when it has none. -/
def withColor (search : Search Node) (node : Node) : Search Node :=
  match search.color.get? node with
  | some _ => search
  | none => ⟨search.color.set node .white, search.stack⟩

/-- The part of the stack that starts with a node, and the node again. -/
def closedAt (stack : List Node) (node : Node) : List Node :=
  stack.drop (if node ∈ stack then stack.idxOf node else 0) ++ [node]

/-- `visit`. -/
def visit (edges : Node → List Node) : Nat → Node → Search Node →
    Option (Option (List Node) × Search Node)
  | fuel, node, search =>
      if search.color.get? node = some .gray then
        some (some (closedAt search.stack node), search)
      else if search.color.get? node = some .black then
        some (none, search)
      else
        match fuel with
        | 0 => none
        | fuel + 1 =>
            (visitEach (fun next search => visit edges fuel next (withColor search next))
              (edges node) ⟨search.color.set node .gray, search.stack ++ [node]⟩).map
              fun (cycle, next) =>
                match cycle with
                | some path => (some path, next)
                | none => (none, ⟨next.color.set node .black, next.stack.dropLast⟩)

/-- `findCycle`: a cycle, or none; nothing when the bound is too small. -/
def findCycle (fuel : Nat) (nodes : List Node) (edges : Node → List Node) :
    Option (Option (List Node)) :=
  (visitEach
    (fun node search =>
      if search.color.get? node = some .white then visit edges fuel node search
      else some (none, search))
    nodes ⟨nodes.foldl (fun color node => color.set node .white) OrderedMap.empty, []⟩).map Prod.fst

/-! ## Topological order -/

/-- The state of the sort: the numbers of edges that still lead to the listed nodes, and the
nodes to which none leads any more. -/
structure Degrees (Node : Type) [DecidableEq Node] where
  indeg : OrderedMap Node Int
  ready : List Node

/-- An edge to a listed node is counted. -/
def countEdge (indeg : OrderedMap Node Int) (next : Node) : OrderedMap Node Int :=
  match indeg.get? next with
  | some degree => indeg.set next (degree + 1)
  | none => indeg

/-- An edge to a listed node is taken away; the node is ready when it was the last one. -/
def dropEdge (degrees : Degrees Node) (next : Node) : Degrees Node :=
  match degrees.indeg.get? next with
  | some degree =>
      ⟨degrees.indeg.set next (degree - 1),
        if degree - 1 = 0 then degrees.ready ++ [next] else degrees.ready⟩
  | none => degrees

/-- The loop of `topoSort`. -/
def sortLoop (edges : Node → List Node) : Nat → OrderedMap Node Int → List Node → List Node →
    Option (List Node)
  | _, _, [], order => some order
  | 0, _, _ :: _, _ => none
  | fuel + 1, indeg, node :: ready, order =>
      let after := (edges node).foldl dropEdge ⟨indeg, ready⟩
      sortLoop edges fuel after.indeg after.ready (order ++ [node])

/-- The numbers of edges between the listed nodes. -/
def inDegrees (nodes : List Node) (edges : Node → List Node) : OrderedMap Node Int :=
  nodes.foldl (fun indeg node => (edges node).foldl countEdge indeg)
    (nodes.foldl (fun indeg node => indeg.set node 0) OrderedMap.empty)

/-- `topoSort`: an order of the nodes, or none; nothing when the bound is too small. -/
def topoSort (fuel : Nat) (nodes : List Node) (edges : Node → List Node) :
    Option (Option (List Node)) :=
  (findCycle fuel nodes edges).bind fun cycle =>
    match cycle with
    | some _ => some none
    | none =>
        let indeg := inDegrees nodes edges
        (sortLoop edges fuel indeg (nodes.filter fun node => (indeg.get? node).getD 0 = 0) []).map
          fun order => if order.length = nodes.length then some order else none

end SpecAsCode.Core
