import Mathlib.Data.List.Basic
import Mathlib.Data.List.Nodup
import Mathlib.Logic.Relation

/-!
# Depth-first preorder

The preorder of a graph that is given by its edges, as the walk through the tree that the graph
unfolds to, and the visit that takes each node once.
-/

namespace SpecAsCode.Lib

variable {Node : Type} {edges : Node → List Node}

/-- One node has an edge to the other. -/
def Follows (edges : Node → List Node) (node next : Node) : Prop :=
  next ∈ edges node

/-- Some path leads from the one node to the other. -/
abbrev Reaches (edges : Node → List Node) : Node → Node → Prop :=
  Relation.ReflTransGen (Follows edges)

/-- Some path leads from a node back to itself. -/
def OnCycle (edges : Node → List Node) (node : Node) : Prop :=
  Relation.TransGen (Follows edges) node node

/-! ## Layers -/

/-- Lists in which the nodes that a node has edges to stand behind it. -/
inductive Layered (edges : Node → List Node) : List Node → Prop
  | nil : Layered edges []
  | cons {node : Node} {rest : List Node} (behind : ∀ next ∈ edges node, next ∈ rest)
      (layered : Layered edges rest) : Layered edges (node :: rest)

theorem Layered.closed {nodes : List Node} (layered : Layered edges nodes) {node next : Node}
    (member : node ∈ nodes) (path : Reaches edges node next) : next ∈ nodes := by
  have step : ∀ first ∈ nodes, ∀ second ∈ edges first, second ∈ nodes := by
    clear member path
    induction layered with
    | nil => simp
    | cons behind _ inductionHypothesis =>
        intro first member second edge
        rcases List.mem_cons.mp member with rfl | later
        · exact List.mem_cons_of_mem _ (behind second edge)
        · exact List.mem_cons_of_mem _ (inductionHypothesis first later second edge)
  induction path with
  | refl => exact member
  | tail _ edge inductionHypothesis => exact step _ inductionHypothesis _ edge

theorem Layered.not_onCycle {nodes : List Node} (layered : Layered edges nodes) {node : Node}
    (member : node ∈ nodes) : ¬ OnCycle edges node := by
  induction layered generalizing node with
  | nil => cases member
  | @cons first rest behind layered inductionHypothesis =>
      intro cycle
      rcases List.mem_cons.mp member with rfl | later
      · obtain ⟨next, edge, path⟩ := Relation.TransGen.head'_iff.mp cycle
        exact inductionHypothesis (layered.closed (behind next edge) path) cycle
      · exact inductionHypothesis later cycle

/-- In a layered list, some node of any part of it has no edge from that part. -/
theorem Layered.eq_nil_of_each {more nodes : List Node} (layered : Layered edges more)
    (inside : ∀ node ∈ nodes, node ∈ more)
    (each : ∀ node ∈ nodes, ∃ other ∈ nodes, node ∈ edges other) : nodes = [] := by
  induction layered with
  | nil => exact List.eq_nil_iff_forall_not_mem.mpr fun node member => nomatch inside node member
  | @cons first rest behind layered inductionHypothesis =>
      refine inductionHypothesis fun node member => ?_
      rcases List.mem_cons.mp (inside node member) with rfl | later
      · -- the first node has an edge from a node, and what that node has edges to is behind it
        obtain ⟨other, here, edge⟩ := each node member
        rcases List.mem_cons.mp (inside other here) with rfl | other_later
        · exact behind _ edge
        · exact layered.closed other_later (.single edge)
      · exact later

/-! ## Walks -/

/-- The nodes of the trees that a list of nodes unfolds to, each before those below it. -/
inductive Walk (edges : Node → List Node) : List Node → List Node → Prop
  | nil : Walk edges [] []
  | cons {node : Node} {nodes below rest : List Node} (children : Walk edges (edges node) below)
      (siblings : Walk edges nodes rest) : Walk edges (node :: nodes) (node :: below ++ rest)

theorem Walk.append {first second walk other : List Node} (walked : Walk edges first walk)
    (others : Walk edges second other) : Walk edges (first ++ second) (walk ++ other) := by
  induction walked with
  | nil => exact others
  | cons children _ _ inductionHypothesis =>
      rw [List.cons_append, List.append_assoc]
      exact .cons children inductionHypothesis

theorem Walk.unique {nodes first second : List Node}
    (walked : Walk edges nodes first) (other : Walk edges nodes second) : first = second := by
  induction walked generalizing second with
  | nil =>
      cases other
      rfl
  | cons _ _ children siblings =>
      cases other with
      | cons otherChildren otherSiblings =>
          rw [children otherChildren, siblings otherSiblings]

/-- A walk passes the nodes that can be reached. -/
theorem Walk.mem_iff {nodes walk : List Node} (walked : Walk edges nodes walk) {node : Node} :
    node ∈ walk ↔ ∃ first ∈ nodes, Reaches edges first node := by
  induction walked with
  | nil => simp
  | @cons first nodes below rest _ _ childrenHypothesis siblingsHypothesis =>
      simp only [List.cons_append, List.mem_cons, List.mem_append, childrenHypothesis,
        siblingsHypothesis, or_and_right, exists_or, exists_eq_left]
      constructor
      · rintro (rfl | ⟨next, edge, path⟩ | later)
        · exact Or.inl .refl
        · exact Or.inl (.head edge path)
        · exact Or.inr later
      · rintro (path | later)
        · rcases Relation.ReflTransGen.cases_head path with rfl | ⟨next, edge, rest⟩
          · exact Or.inl rfl
          · exact Or.inr (Or.inl ⟨next, edge, rest⟩)
        · exact Or.inr (Or.inr later)

theorem Walk.exists_of_each {nodes : List Node}
    (each : ∀ node ∈ nodes, ∃ walk, Walk edges [node] walk) : ∃ walk, Walk edges nodes walk := by
  induction nodes with
  | nil => exact ⟨[], .nil⟩
  | cons node nodes inductionHypothesis =>
      obtain ⟨first, walked⟩ := each node List.mem_cons_self
      obtain ⟨rest, others⟩ := inductionHypothesis fun other later =>
        each other (List.mem_cons_of_mem _ later)
      exact ⟨first ++ rest, walked.append others⟩

theorem Layered.exists_walk {nodes : List Node} (layered : Layered edges nodes) :
    ∀ node ∈ nodes, ∃ walk, Walk edges [node] walk := by
  induction layered with
  | nil => simp
  | @cons first rest behind _ inductionHypothesis =>
      intro node member
      rcases List.mem_cons.mp member with rfl | later
      · obtain ⟨below, walked⟩ := Walk.exists_of_each fun next edge =>
          inductionHypothesis next (behind next edge)
        exact ⟨_, .cons walked .nil⟩
      · exact inductionHypothesis node later

/-! ## Each node once -/

variable [DecidableEq Node]

/-- The nodes found before, and then those of a walk at their first places. -/
def once (found : List Node) : List Node → List Node
  | [] => found
  | node :: rest => if node ∈ found then once found rest else once (found ++ [node]) rest

theorem once_append (found first second : List Node) :
    once found (first ++ second) = once (once found first) second := by
  induction first generalizing found with
  | nil => rfl
  | cons node first inductionHypothesis =>
      rw [List.cons_append, once, once]
      split_ifs <;> exact inductionHypothesis _

theorem mem_once {found walk : List Node} {node : Node} :
    node ∈ once found walk ↔ node ∈ found ∨ node ∈ walk := by
  induction walk generalizing found with
  | nil => simp [once]
  | cons first walk inductionHypothesis =>
      rw [once, List.mem_cons]
      split_ifs with known
      · rw [inductionHypothesis]
        constructor
        · rintro (here | later)
          · exact Or.inl here
          · exact Or.inr (Or.inr later)
        · rintro (here | rfl | later)
          · exact Or.inl here
          · exact Or.inl known
          · exact Or.inr later
      · rw [inductionHypothesis, List.mem_append, List.mem_singleton, or_assoc]

theorem nodup_once {found : List Node} (distinct : found.Nodup) (walk : List Node) :
    (once found walk).Nodup := by
  induction walk generalizing found with
  | nil => exact distinct
  | cons node walk inductionHypothesis =>
      rw [once]
      split_ifs with known
      · exact inductionHypothesis distinct
      · exact inductionHypothesis
          (List.nodup_append.mpr ⟨distinct, List.nodup_singleton _, by
            intro first member second other same
            rw [List.mem_singleton.mp other] at same
            exact known (same ▸ member)⟩)

theorem prefix_once (found walk : List Node) : found <+: once found walk := by
  induction walk generalizing found with
  | nil => exact List.prefix_rfl
  | cons node walk inductionHypothesis =>
      rw [once]
      split_ifs
      · exact inductionHypothesis found
      · exact (List.prefix_append found [node]).trans (inductionHypothesis _)

/-- A list without repetitions is kept. -/
theorem once_eq_self_iff {nodes : List Node} :
    once [] nodes = nodes ↔ nodes.Nodup := by
  have collected : ∀ found : List Node, (found ++ nodes).Nodup → once found nodes = found ++ nodes := by
    induction nodes with
    | nil => simp [once]
    | cons node nodes inductionHypothesis =>
        intro found distinct
        have fresh : node ∉ found := fun member =>
          (List.nodup_append.mp distinct).2.2 node member node List.mem_cons_self rfl
        rw [once, if_neg fresh, inductionHypothesis (found ++ [node]) (by simpa using distinct),
          List.append_assoc, List.singleton_append]
  constructor
  · intro same
    rw [← same]
    exact nodup_once List.nodup_nil nodes
  · intro distinct
    simpa using collected [] (by simpa using distinct)

theorem once_of_subset {found walk : List Node} (known : ∀ node ∈ walk, node ∈ found) :
    once found walk = found := by
  induction walk with
  | nil => rfl
  | cons node walk inductionHypothesis =>
      rw [once, if_pos (known node List.mem_cons_self)]
      exact inductionHypothesis fun other later => known other (List.mem_cons_of_mem _ later)

/-! ## Visits -/

/-- The visit of a node: one that was found before is passed over, another one is noted before
the nodes it has edges to.  The bound is on the depth of the visit. -/
def visitOnce (edges : Node → List Node) : Nat → Node → List Node → Option (List Node)
  | fuel, node, found =>
      if node ∈ found then
        some found
      else
        match fuel with
        | 0 => none
        | fuel + 1 =>
            (edges node).foldlM (fun found next => visitOnce edges fuel next found) (found ++ [node])

/-- What was found of the nodes below a node was found with all that is below it. -/
def Finished (edges : Node → List Node) (found : List Node) (node : Node) : Prop :=
  ∀ known ∈ found, Reaches edges node known → ∀ next, Reaches edges known next → next ∈ found

/-- In a graph without cycles, visits find the nodes of the walk, each at its first place. -/
theorem visitOnce_eq_once {nodes walk : List Node} (walked : Walk edges nodes walk) :
    ∀ {fuel : Nat} {found result : List Node},
      nodes.foldlM (fun found node => visitOnce edges fuel node found) found = some result →
      (∀ node ∈ nodes, Finished edges found node) →
      (∀ node ∈ nodes, ∀ next, Reaches edges node next → ¬ OnCycle edges next) →
      result = once found walk := by
  induction walked with
  | nil =>
      intro fuel found result ran _ _
      cases ran
      rfl
  | @cons node nodes below rest children siblings childrenHypothesis siblingsHypothesis =>
      intro fuel found result ran finished acyclic
      rw [List.foldlM_cons] at ran
      obtain ⟨middle, first, later⟩ := Option.bind_eq_some_iff.mp ran
      have here : Walk edges [node] (node :: below) := by
        have walked := Walk.cons children .nil
        rwa [List.append_nil] at walked
      have inside : ∀ next, next ∈ node :: below ↔ Reaches edges node next := by
        intro next
        rw [here.mem_iff]
        simp
      have reached : middle = once found (node :: below) := by
        unfold visitOnce at first
        split_ifs at first with known
        · cases first
          exact (once_of_subset fun next member =>
            finished node List.mem_cons_self node known .refl next ((inside next).mp member)).symm
        · cases fuel with
          | zero => cases first
          | succ fuel =>
              rw [once, if_neg known]
              refine childrenHypothesis first ?_ ?_
              · intro next edge known member path reachable below
                rcases List.mem_append.mp member with old | new
                · exact List.mem_append_left _ (finished node List.mem_cons_self known old
                    (.head edge path) reachable below)
                · rw [List.mem_singleton.mp new] at path
                  exact absurd (Relation.TransGen.head' edge path)
                    (acyclic node List.mem_cons_self node .refl)
              · exact fun next edge other path =>
                  acyclic node List.mem_cons_self other (.head edge path)
      rw [once_append, ← reached]
      refine siblingsHypothesis later ?_ fun other member =>
        acyclic other (List.mem_cons_of_mem _ member)
      intro other member known found path next reachable
      rw [reached, mem_once] at found ⊢
      rcases found with old | new
      · exact Or.inl (finished other (List.mem_cons_of_mem _ member) known old path next reachable)
      · exact Or.inr ((inside next).mpr (((inside known).mp new).trans reachable))

/-- The visit of one node without cycles below it. -/
theorem visitOnce_eq_once_of_walk {node : Node} {walk result : List Node} {fuel : Nat}
    (walked : Walk edges [node] walk) (ran : visitOnce edges fuel node [] = some result)
    (acyclic : ∀ next, Reaches edges node next → ¬ OnCycle edges next) : result = once [] walk := by
  refine visitOnce_eq_once walked (by rw [List.foldlM_cons, ran]; rfl) ?_ ?_
  · intro other _ known member
    cases member
  · intro other member
    rw [List.mem_singleton.mp member]
    exact acyclic

/-! ## Visits end -/

/-- How many nodes of a list are not found yet. -/
def missing (support found : List Node) : Nat :=
  support.countP fun node => node ∉ found

theorem missing_le {support found result : List Node} (kept : ∀ node ∈ found, node ∈ result) :
    missing support result ≤ missing support found :=
  List.countP_mono_left fun node _ absent => by
    simp only [decide_not, Bool.not_eq_eq_eq_not, Bool.not_true, decide_eq_false_iff_not] at absent ⊢
    exact fun member => absent (kept node member)

theorem missing_lt {support found result : List Node} (kept : ∀ node ∈ found, node ∈ result)
    {node : Node} (member : node ∈ support) (absent : node ∉ found) (added : node ∈ result) :
    missing support result < missing support found := by
  induction support with
  | nil => cases member
  | cons first support inductionHypothesis =>
      have others : missing support result ≤ missing support found := missing_le kept
      rw [missing, missing, List.countP_cons, List.countP_cons]
      rcases List.mem_cons.mp member with rfl | later
      · simp only [added, absent, not_true_eq_false, decide_false, not_false_eq_true, decide_true,
          Bool.false_eq_true, if_false, if_true]
        rw [missing, missing] at others
        omega
      · have less := inductionHypothesis later
        have first_le : (if decide (first ∉ result) = true then 1 else 0) ≤
            (if decide (first ∉ found) = true then 1 else 0) := by
          by_cases known : first ∈ found
          · simp [known, kept first known]
          · split_ifs <;> simp_all
        rw [missing, missing] at less
        omega

theorem visitOnce_ends {support : List Node}
    (closed : ∀ node ∈ support, ∀ next ∈ edges node, next ∈ support) {fuel : Nat} {node : Node}
    {found : List Node} (member : node ∈ support) (enough : missing support found ≤ fuel) :
    ∃ result, visitOnce edges fuel node found = some result ∧ ∀ other ∈ found, other ∈ result := by
  induction fuel generalizing node found with
  | zero =>
      unfold visitOnce
      split_ifs with known
      · exact ⟨found, rfl, fun _ here => here⟩
      · have less := missing_lt (fun other here => List.mem_append_left [node] here) member known
          (List.mem_append_right found List.mem_cons_self)
        omega
  | succ fuel inductionHypothesis =>
      unfold visitOnce
      split_ifs with known
      · exact ⟨found, rfl, fun _ here => here⟩
      · have less := missing_lt (fun other here => List.mem_append_left [node] here) member known
          (List.mem_append_right found List.mem_cons_self)
        have each : ∀ (nodes start : List Node), (∀ next ∈ nodes, next ∈ support) →
            missing support start ≤ fuel →
            ∃ result, nodes.foldlM (fun found next => visitOnce edges fuel next found) start =
              some result ∧ ∀ other ∈ start, other ∈ result := by
          intro nodes
          induction nodes with
          | nil => exact fun start _ _ => ⟨start, rfl, fun _ here => here⟩
          | cons next nodes siblings =>
              intro start inside room
              obtain ⟨middle, visited, kept⟩ := inductionHypothesis (inside next List.mem_cons_self) room
              obtain ⟨result, rest, later⟩ := siblings middle
                (fun other here => inside other (List.mem_cons_of_mem _ here))
                (Nat.le_trans (missing_le kept) room)
              refine ⟨result, ?_, fun other here => later other (kept other here)⟩
              rw [List.foldlM_cons, visited]
              exact rest
        obtain ⟨result, ran, kept⟩ := each (edges node) (found ++ [node]) (closed node member)
          (by omega)
        exact ⟨result, ran, fun other here => kept other (List.mem_append_left _ here)⟩

end SpecAsCode.Lib
