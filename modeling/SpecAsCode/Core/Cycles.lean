import SpecAsCode.Core.Graph
import SpecAsCode.Lib.Preorder

/-!
# The search for a cycle

`findCycle` ends, and when it finds no cycle there is none.
-/

namespace SpecAsCode.Core

open SpecAsCode.Js
open SpecAsCode.Lib

variable {Node : Type} [DecidableEq Node] {edges : Node → List Node}

/-! ## What a visit without a cycle leaves -/

/-- The black nodes of the search, each before the nodes it has edges to. -/
structure Blackened (edges : Node → List Node) (search : Search Node) (done : List Node) : Prop where
  black : ∀ node, search.color.get? node = some .black ↔ node ∈ done
  layered : Layered edges done

/-- What a visit that found no cycle did: the gray nodes are the same, more nodes are black, and
no node has lost its color. -/
structure Visited (edges : Node → List Node) (before after : Search Node) (done : List Node) :
    Prop where
  finished : Blackened edges after done
  gray : ∀ node, after.color.get? node = some .gray ↔ before.color.get? node = some .gray
  colored : ∀ node, before.color.get? node ≠ none → after.color.get? node ≠ none

theorem Visited.refl {search : Search Node} {done : List Node}
    (blackened : Blackened edges search done) : Visited edges search search done :=
  ⟨blackened, fun _ => Iff.rfl, fun _ known => known⟩

theorem Visited.trans {first second third : Search Node} {done later : List Node}
    (visited : Visited edges first second done) (next : Visited edges second third later) :
    Visited edges first third later :=
  ⟨next.finished, fun node => (next.gray node).trans (visited.gray node),
    fun node known => next.colored node (visited.colored node known)⟩

theorem get?_withColor (search : Search Node) (node other : Node) {color : Color}
    (dark : color ≠ .white) :
    (withColor search node).color.get? other = some color ↔ search.color.get? other = some color := by
  unfold withColor
  cases known : search.color.get? node with
  | some found => rfl
  | none =>
      by_cases same : other = node
      · subst same
        rw [OrderedMap.get?_set_self, known]
        constructor
        · rintro ⟨⟩
          exact absurd rfl dark
        · rintro ⟨⟩
      · rw [OrderedMap.get?_set_ne _ same]

theorem withColor_colored (search : Search Node) (node other : Node)
    (known : search.color.get? other ≠ none) : (withColor search node).color.get? other ≠ none := by
  unfold withColor
  cases found : search.color.get? node with
  | some color => exact known
  | none =>
      have different : other ≠ node := fun same => known (same ▸ found)
      rwa [OrderedMap.get?_set_ne _ different]

theorem Visited.withColor {search : Search Node} {done : List Node}
    (blackened : Blackened edges search done) (node : Node) :
    Visited edges search (withColor search node) done :=
  ⟨⟨fun other => (get?_withColor search node other (by decide)).trans (blackened.black other),
      blackened.layered⟩,
    fun other => get?_withColor search node other (by decide), withColor_colored search node⟩

/-- Nodes are visited one after another. -/
theorem visitEach_none {step : Node → Search Node → Option (Option (List Node) × Search Node)}
    (steps : ∀ {node search next done}, Blackened edges search done →
      step node search = some (none, next) →
      ∃ more, Visited edges search next more ∧ node ∈ more ∧ ∀ other ∈ done, other ∈ more)
    {nodes : List Node} {search next : Search Node} {done : List Node}
    (blackened : Blackened edges search done)
    (ran : visitEach step nodes search = some (none, next)) :
    ∃ more, Visited edges search next more ∧ (∀ node ∈ nodes, node ∈ more) ∧
      ∀ other ∈ done, other ∈ more := by
  induction nodes generalizing search done with
  | nil =>
      cases ran
      exact ⟨done, .refl blackened, by simp, fun _ here => here⟩
  | cons node nodes inductionHypothesis =>
      rw [visitEach] at ran
      obtain ⟨⟨cycle, middle⟩, first, rest⟩ := Option.bind_eq_some_iff.mp ran
      cases cycle with
      | some path => cases rest
      | none =>
          obtain ⟨some, visited, here, kept⟩ := steps blackened first
          obtain ⟨more, later, each, grown⟩ := inductionHypothesis visited.finished rest
          refine ⟨more, visited.trans later, ?_, fun other old => grown other (kept other old)⟩
          intro other member
          rcases List.mem_cons.mp member with rfl | tail
          · exact grown _ here
          · exact each other tail

/-- A node that turns gray leaves the black nodes alone. -/
theorem Blackened.entered {search : Search Node} {done : List Node} {node : Node}
    (blackened : Blackened edges search done) (black : ¬ search.color.get? node = some .black)
    (stack : List Node) : Blackened edges ⟨search.color.set node .gray, stack⟩ done := by
  refine ⟨fun other => ?_, blackened.layered⟩
  rw [← blackened.black other]
  by_cases same : other = node
  · subst same
    rw [OrderedMap.get?_set_self]
    exact iff_of_false (by rintro ⟨⟩) black
  · rw [OrderedMap.get?_set_ne _ same]

/-- A visit that finds no cycle blackens its node. -/
theorem visit_none {fuel : Nat} : ∀ {node : Node} {search next : Search Node} {done : List Node},
    Blackened edges search done → visit edges fuel node search = some (none, next) →
    ∃ more, Visited edges search next more ∧ node ∈ more ∧ ∀ other ∈ done, other ∈ more := by
  induction fuel with
  | zero =>
      intro node search next done blackened ran
      unfold visit at ran
      split_ifs at ran with gray black
      · cases ran
      · cases ran
        exact ⟨done, .refl blackened, (blackened.black node).mp black, fun _ here => here⟩
  | succ fuel inductionHypothesis =>
      intro node search next done blackened ran
      unfold visit at ran
      split_ifs at ran with gray black
      · cases ran
      · cases ran
        exact ⟨done, .refl blackened, (blackened.black node).mp black, fun _ here => here⟩
      · obtain ⟨⟨cycle, middle⟩, visited, result⟩ := Option.map_eq_some_iff.mp ran
        cases cycle with
        | some path => cases result
        | none =>
            cases result
            have child : ∀ {other : Node} {start finish : Search Node} {known : List Node},
                Blackened edges start known →
                visit edges fuel other (withColor start other) = some (none, finish) →
                ∃ more, Visited edges start finish more ∧ other ∈ more ∧
                  ∀ old ∈ known, old ∈ more := by
              intro other start finish known blackened ran
              have colored := Visited.withColor blackened other
              obtain ⟨more, visited, here, kept⟩ := inductionHypothesis colored.finished ran
              exact ⟨more, colored.trans visited, here, kept⟩
            obtain ⟨more, inner, each, kept⟩ := visitEach_none child
              (blackened.entered black _) visited
            refine ⟨node :: more, ⟨⟨fun other => ?_, .cons each inner.finished.layered⟩,
              fun other => ?_, fun other known => ?_⟩, List.mem_cons_self,
              fun other old => List.mem_cons_of_mem _ (kept other old)⟩
            · by_cases same : other = node
              · subst same
                rw [OrderedMap.get?_set_self]
                exact iff_of_true rfl List.mem_cons_self
              · rw [OrderedMap.get?_set_ne _ same, inner.finished.black, List.mem_cons,
                  or_iff_right same]
            · by_cases same : other = node
              · subst same
                rw [OrderedMap.get?_set_self]
                exact iff_of_false (by rintro ⟨⟩) gray
              · rw [OrderedMap.get?_set_ne _ same, inner.gray, OrderedMap.get?_set_ne _ same]
            · by_cases same : other = node
              · subst same
                rw [OrderedMap.get?_set_self]
                rintro ⟨⟩
              · rw [OrderedMap.get?_set_ne _ same]
                refine inner.colored other ?_
                rwa [OrderedMap.get?_set_ne _ same]

theorem get?_foldl_set {Value : Type} (value : Value) (nodes : List Node)
    (map : OrderedMap Node Value) (node : Node) :
    (nodes.foldl (fun map node => map.set node value) map).get? node =
      if node ∈ nodes then some value else map.get? node := by
  induction nodes generalizing map with
  | nil => rfl
  | cons first nodes inductionHypothesis =>
      rw [List.foldl_cons, inductionHypothesis]
      by_cases later : node ∈ nodes
      · rw [if_pos later, if_pos (List.mem_cons_of_mem _ later)]
      · rw [if_neg later]
        by_cases same : node = first
        · subst same
          rw [OrderedMap.get?_set_self, if_pos List.mem_cons_self]
        · rw [OrderedMap.get?_set_ne _ same, if_neg (by simp [same, later])]

/-- The search starts with white nodes. -/
theorem get?_initial (nodes : List Node) (node : Node) {color : Color} (dark : color ≠ .white) :
    (nodes.foldl (fun color node => color.set node .white) OrderedMap.empty).get? node ≠
      some color := by
  rw [get?_foldl_set, OrderedMap.get?_empty]
  split_ifs
  · rintro ⟨⟩
    exact dark rfl
  · rintro ⟨⟩

theorem blackened_initial (edges : Node → List Node) (nodes : List Node) :
    Blackened edges
      ⟨nodes.foldl (fun color node => color.set node .white) OrderedMap.empty, []⟩ [] :=
  ⟨fun node => iff_of_false (get?_initial nodes node (by decide)) (by simp), .nil⟩

/-- When no cycle is found, the nodes can be listed before those they have edges to. -/
theorem findCycle_layered {fuel : Nat} {nodes : List Node}
    (ran : findCycle fuel nodes edges = some none) :
    ∃ more, Layered edges more ∧ ∀ node ∈ nodes, node ∈ more := by
  obtain ⟨⟨cycle, search⟩, visited, rfl⟩ := Option.map_eq_some_iff.mp ran
  -- every node of the list has a color, and none is gray between two visits
  have all : ∀ (rest : List Node) (before : Search Node) (done : List Node),
      Blackened edges before done → (∀ node, before.color.get? node ≠ some .gray) →
      (∀ node ∈ rest, before.color.get? node ≠ none) →
      visitEach (fun node search =>
        if search.color.get? node = some .white then visit edges fuel node search
        else some (none, search)) rest before = some (none, search) →
      ∃ more, Layered edges more ∧ (∀ node ∈ rest, node ∈ more) ∧ ∀ other ∈ done, other ∈ more := by
    intro rest
    induction rest with
    | nil => exact fun before done blackened _ _ _ =>
        ⟨done, blackened.layered, by simp, fun _ here => here⟩
    | cons node rest inductionHypothesis =>
        intro before done blackened settled colored ran
        rw [visitEach] at ran
        obtain ⟨⟨cycle, middle⟩, first, later⟩ := Option.bind_eq_some_iff.mp ran
        cases cycle with
        | some path => cases later
        | none =>
            obtain ⟨some, stepped, here, kept⟩ : ∃ some, Visited edges before middle some ∧
                node ∈ some ∧ ∀ other ∈ done, other ∈ some := by
              by_cases white : before.color.get? node = some .white
              · rw [if_pos white] at first
                exact visit_none blackened first
              · rw [if_neg white] at first
                cases first
                refine ⟨done, .refl blackened, (blackened.black node).mp ?_, fun _ here => here⟩
                cases color : before.color.get? node with
                | none => exact absurd color (colored node List.mem_cons_self)
                | some found =>
                    cases found with
                    | white => exact absurd color white
                    | gray => exact absurd color (settled node)
                    | black => rfl
            obtain ⟨more, layered, each, grown⟩ := inductionHypothesis middle some stepped.finished
              (fun other gray => settled other ((stepped.gray other).mp gray))
              (fun other member => stepped.colored other
                (colored other (List.mem_cons_of_mem _ member))) later
            refine ⟨more, layered, ?_, fun other old => grown other (kept other old)⟩
            intro other member
            rcases List.mem_cons.mp member with rfl | tail
            · exact grown _ here
            · exact each other tail
  obtain ⟨more, layered, each, -⟩ := all nodes
    ⟨nodes.foldl (fun color node => color.set node .white) OrderedMap.empty, []⟩ []
    (blackened_initial edges nodes) (fun node => get?_initial nodes node (by decide))
    (fun node member => by rw [get?_foldl_set, if_pos member]; rintro ⟨⟩) visited
  exact ⟨more, layered, each⟩

/-- When no cycle is found, no path from one of the nodes comes back to a node it has left. -/
theorem findCycle_none {fuel : Nat} {nodes : List Node}
    (ran : findCycle fuel nodes edges = some none) :
    ∀ node ∈ nodes, ∀ next, Reaches edges node next → ¬ OnCycle edges next := by
  obtain ⟨more, layered, each⟩ := findCycle_layered ran
  intro node member next path
  exact layered.not_onCycle (layered.closed (each node member) path)

/-! ## The search ends -/

/-- How many nodes of a list are not gray. -/
def notGray (support : List Node) (search : Search Node) : Nat :=
  support.countP fun node => search.color.get? node ≠ some .gray

theorem notGray_congr {support : List Node} {before after : Search Node}
    (gray : ∀ node, after.color.get? node = some .gray ↔ before.color.get? node = some .gray) :
    notGray support after = notGray support before := by
  refine List.countP_congr fun node _ => ?_
  simp only [decide_eq_true_eq, ne_eq]
  exact not_congr (gray node)

theorem notGray_entered {support : List Node} {search : Search Node} {node : Node}
    (member : node ∈ support) (bright : search.color.get? node ≠ some .gray) (stack : List Node) :
    notGray support ⟨search.color.set node .gray, stack⟩ < notGray support search := by
  have known : ∀ color : OrderedMap Node Color, notGray support ⟨color, stack⟩ =
      missing support (support.filter fun node => color.get? node = some .gray) := by
    intro color
    refine List.countP_congr fun other here => ?_
    simp [here]
  have same : notGray support search = notGray support ⟨search.color, stack⟩ := rfl
  rw [same, known, known]
  refine missing_lt (fun other gray => ?_) member (by simp [bright]) ?_
  · obtain ⟨here, gray⟩ := List.mem_filter.mp gray
    refine List.mem_filter.mpr ⟨here, ?_⟩
    have different : other ≠ node := by
      rintro rfl
      exact bright (by simpa using gray)
    rwa [OrderedMap.get?_set_ne _ different]
  · exact List.mem_filter.mpr ⟨member, by rw [OrderedMap.get?_set_self]; rfl⟩

/-- Visits one after another end when each visit does. -/
theorem visitEach_ends (step : Node → Search Node → Option (Option (List Node) × Search Node))
    (Ready : Search Node → Prop) (nodes : List Node)
    (steps : ∀ node ∈ nodes, ∀ search, Ready search → ∃ result, step node search = some result ∧
      (result.1 = none → Ready result.2)) :
    ∀ search : Search Node, Ready search → ∃ result, visitEach step nodes search = some result := by
  induction nodes with
  | nil => exact fun search _ => ⟨_, rfl⟩
  | cons node nodes inductionHypothesis =>
      intro search ready
      obtain ⟨⟨cycle, next⟩, ran, onward⟩ := steps node List.mem_cons_self search ready
      rw [visitEach, ran]
      cases cycle with
      | some path => exact ⟨_, rfl⟩
      | none =>
          exact inductionHypothesis (fun other member => steps other (List.mem_cons_of_mem _ member))
            next (onward rfl)

/-- The search is in order, with few enough nodes that are not gray. -/
def Ready (edges : Node → List Node) (support : List Node) (fuel : Nat) (search : Search Node) :
    Prop :=
  (∃ done, Blackened edges search done) ∧ notGray support search < fuel

theorem Ready.visited {support : List Node} {fuel : Nat} {search next : Search Node}
    {done : List Node} (ready : Ready edges support fuel search)
    (visited : Visited edges search next done) : Ready edges support fuel next :=
  ⟨⟨done, visited.finished⟩, by rw [notGray_congr visited.gray]; exact ready.2⟩

section Ends

/- The nodes that the search comes to, and those of them that have edges. -/
variable {Inside : Node → Prop} {support : List Node}
  (closed : ∀ node, Inside node → ∀ next ∈ edges node, Inside next)
  (supported : ∀ node, Inside node → edges node ≠ [] → node ∈ support)

include closed supported

theorem visit_ends {fuel : Nat} : ∀ {node : Node} {search : Search Node}, Inside node →
    Ready edges support fuel search → ∃ result, visit edges fuel node search = some result := by
  induction fuel with
  | zero => exact fun _ ready => absurd ready.2 (Nat.not_lt_zero _)
  | succ fuel inductionHypothesis =>
      rintro node search inside ⟨⟨done, blackened⟩, few⟩
      unfold visit
      split_ifs with gray black
      · exact ⟨_, rfl⟩
      · exact ⟨_, rfl⟩
      · obtain ⟨result, visited⟩ : ∃ result, visitEach
            (fun next search => visit edges fuel next (withColor search next)) (edges node)
            ⟨search.color.set node .gray, search.stack ++ [node]⟩ = some result := by
          by_cases leaf : edges node = []
          · rw [leaf]
            exact ⟨_, rfl⟩
          · have less := notGray_entered (supported node inside leaf) gray (search.stack ++ [node])
            refine visitEach_ends _ (Ready edges support fuel) _ ?_ _
              ⟨⟨done, blackened.entered black _⟩, by omega⟩
            rintro next edge start ready
            obtain ⟨known, blackened⟩ := ready.1
            have colored := Visited.withColor blackened next
            obtain ⟨⟨cycle, finish⟩, ran⟩ :=
              inductionHypothesis (closed node inside next edge) (ready.visited colored)
            refine ⟨_, ran, ?_⟩
            rintro ⟨⟩
            obtain ⟨more, visited, -, -⟩ := visit_none colored.finished ran
            exact ready.visited (colored.trans visited)
        dsimp only
        rw [visited]
        exact ⟨_, rfl⟩

/-- A bound above the number of nodes with edges that the search comes to is enough. -/
theorem findCycle_ends_inside {fuel : Nat} (enough : support.length < fuel) (nodes : List Node)
    (inside : ∀ node ∈ nodes, Inside node) : ∃ result, findCycle fuel nodes edges = some result := by
  have step : ∀ node ∈ nodes, ∀ search, Ready edges support fuel search →
      ∃ result, (if search.color.get? node = some Color.white then visit edges fuel node search
        else some (none, search)) = some result ∧ (result.1 = none →
          Ready edges support fuel result.2) := by
    intro node member search ready
    by_cases white : search.color.get? node = some .white
    · rw [if_pos white]
      obtain ⟨⟨cycle, finish⟩, ran⟩ := visit_ends closed supported (inside node member) ready
      refine ⟨_, ran, ?_⟩
      rintro ⟨⟩
      obtain ⟨known, blackened⟩ := ready.1
      obtain ⟨more, visited, -, -⟩ := visit_none blackened ran
      exact ready.visited visited
    · rw [if_neg white]
      exact ⟨_, rfl, fun _ => ready⟩
  obtain ⟨result, visited⟩ := visitEach_ends _ _ _ step
    ⟨nodes.foldl (fun color node => color.set node .white) OrderedMap.empty, []⟩
    ⟨⟨[], blackened_initial edges nodes⟩, Nat.lt_of_le_of_lt List.countP_le_length enough⟩
  exact ⟨result.1, by rw [findCycle, visited]; rfl⟩

end Ends

/-- A bound above the number of nodes with edges is enough. -/
theorem findCycle_ends {support : List Node} (supported : ∀ node, edges node ≠ [] → node ∈ support)
    {fuel : Nat} (enough : support.length < fuel) (nodes : List Node) :
    ∃ result, findCycle fuel nodes edges = some result :=
  findCycle_ends_inside (fun _ _ _ _ => trivial) (fun node _ => supported node) enough nodes
    (fun _ _ => trivial)

end SpecAsCode.Core
