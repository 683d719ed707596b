import Mathlib.Data.List.Induction
import Mathlib.Logic.Function.Basic
import Mathlib.Logic.Relation
import Mathlib.Order.WellFoundedSet
import SpecAsCode.Lib.Journal

/-!
# Items that can no longer be reached

Items wait for what they need.  A sweep goes through a list of them once and marks those that
wait for something that blocks; what it marks blocks the items after it.  Which items a sweep
marks, and when the items it leaves are stuck.
-/

namespace SpecAsCode.Unreachable

open SpecAsCode.Journal

/-- Items with names, the names they need, and what a status means for them. -/
structure Scheme (Item Node Status : Type) where
  name : Item → Node
  needs : Item → List Node
  waits : Status → Bool
  blocks : Status → Bool
  finished : Status → Bool
  /-- The status of a marked item. -/
  mark : Status
  blocks_mark : blocks mark = true
  blocks_apart : ∀ status, blocks status = true → waits status = false ∧ finished status = false
  finished_apart : ∀ status, finished status = true → waits status = false

variable {Item Node Status : Type}

namespace Scheme

variable (scheme : Scheme Item Node Status)

/-- The node waits, and a chain of waiting items, each of which stands in the list before the one
that needs it, leads to something that blocks. -/
inductive Cut (status : Node → Status) : List Item → Node → Prop
  | blocked {items before after : List Item} {item : Item} {need : Node}
      (shape : items = before ++ item :: after)
      (waits : scheme.waits (status (scheme.name item)) = true)
      (needed : need ∈ scheme.needs item) (blocks : scheme.blocks (status need) = true) :
      Cut status items (scheme.name item)
  | behind {items before after : List Item} {item : Item} {need : Node}
      (shape : items = before ++ item :: after)
      (waits : scheme.waits (status (scheme.name item)) = true)
      (needed : need ∈ scheme.needs item) (cut : Cut status before need) :
      Cut status items (scheme.name item)

/-- The same, with the items in any order. -/
inductive Doomed (status : Node → Status) (items : List Item) : Node → Prop
  | blocked {item : Item} {need : Node} (member : item ∈ items)
      (waits : scheme.waits (status (scheme.name item)) = true)
      (needed : need ∈ scheme.needs item) (blocks : scheme.blocks (status need) = true) :
      Doomed status items (scheme.name item)
  | behind {item : Item} {need : Node} (member : item ∈ items)
      (waits : scheme.waits (status (scheme.name item)) = true)
      (needed : need ∈ scheme.needs item) (doomed : Doomed status items need) :
      Doomed status items (scheme.name item)

/-- The item waits for nothing that is not finished. -/
def Ready (status : Node → Status) (item : Item) : Prop :=
  scheme.waits (status (scheme.name item)) = true ∧
    ∀ need ∈ scheme.needs item, scheme.finished (status need) = true

/-- Items wait, and none of them is ready. -/
def Stuck (status : Node → Status) (items : List Item) : Prop :=
  (∃ item ∈ items, scheme.waits (status (scheme.name item)) = true) ∧
    ∀ item ∈ items, ¬ scheme.Ready status item

/-- An item with the name needs the other name. -/
def Needs (items : List Item) (need node : Node) : Prop :=
  ∃ item ∈ items, scheme.name item = node ∧ need ∈ scheme.needs item

variable {scheme} {status : Node → Status} {items : List Item} {node : Node}

/-! ## What is cut off -/

theorem Cut.waits (cut : scheme.Cut status items node) : scheme.waits (status node) = true := by
  cases cut with
  | blocked shape waits needed blocks => exact waits
  | behind shape waits needed cut => exact waits

theorem Cut.doomed (cut : scheme.Cut status items node) : scheme.Doomed status items node := by
  suffices all : ∀ more, scheme.Doomed status (items ++ more) node by simpa using all []
  induction cut with
  | blocked shape waits needed blocks =>
      subst shape
      exact fun more => .blocked (by simp) waits needed blocks
  | behind shape waits needed cut inductionHypothesis =>
      subst shape
      intro more
      refine .behind (by simp) waits needed ?_
      rw [List.append_assoc]
      exact inductionHypothesis _

theorem Cut.append (cut : scheme.Cut status items node) (more : List Item) :
    scheme.Cut status (items ++ more) node := by
  cases cut with
  | blocked shape waits needed blocks =>
      exact .blocked (shape ▸ List.append_assoc _ _ _) waits needed blocks
  | behind shape waits needed cut =>
      exact .behind (shape ▸ List.append_assoc _ _ _) waits needed cut

theorem cut_nil : ¬ scheme.Cut status [] node := by
  intro cut
  cases cut with
  | blocked shape => cases (List.append_eq_nil_iff.mp shape.symm).2
  | behind shape => cases (List.append_eq_nil_iff.mp shape.symm).2

/-- A visit cuts its item off, or nothing. -/
theorem cut_snoc {item : Item} :
    scheme.Cut status (items ++ [item]) node ↔ scheme.Cut status items node ∨
      (scheme.name item = node ∧ scheme.waits (status node) = true ∧
        ∃ need ∈ scheme.needs item, scheme.blocks (status need) = true ∨
          scheme.Cut status items need) := by
  constructor
  · intro cut
    cases cut with
    | blocked shape waits needed blocks =>
        obtain ⟨rfl, rfl, rfl⟩ | ⟨front, rfl, rfl⟩ := split_snoc shape
        · exact Or.inr ⟨rfl, waits, _, needed, Or.inl blocks⟩
        · exact Or.inl (.blocked rfl waits needed blocks)
    | behind shape waits needed cut =>
        obtain ⟨rfl, rfl, rfl⟩ | ⟨front, rfl, rfl⟩ := split_snoc shape
        · exact Or.inr ⟨rfl, waits, _, needed, Or.inr cut⟩
        · exact Or.inl (.behind rfl waits needed cut)
  · rintro (cut | ⟨rfl, waits, need, needed, blocks | cut⟩)
    · exact cut.append [item]
    · exact .blocked rfl waits needed blocks
    · exact .behind rfl waits needed cut

/-! ## What a sweep marks -/

section Sweep

variable [DecidableEq Node]

variable (scheme) in
/-- The item is marked when it waits for something that blocks. -/
def visit (status : Node → Status) (item : Item) : Node → Status :=
  if scheme.waits (status (scheme.name item)) = true ∧
      ((scheme.needs item).any fun need => scheme.blocks (status need)) = true then
    Function.update status (scheme.name item) scheme.mark
  else
    status

variable (scheme) in
/-- The items are visited in the order of the list. -/
def sweep (items : List Item) (status : Node → Status) : Node → Status :=
  items.foldl scheme.visit status

open Classical in
/-- A sweep marks what is cut off, and leaves the rest as it is. -/
theorem sweep_eq (items : List Item) (status : Node → Status) (node : Node) :
    scheme.sweep items status node =
      if scheme.Cut status items node then scheme.mark else status node := by
  induction items using List.reverseRecOn generalizing node with
  | nil => rw [if_neg cut_nil]; rfl
  | append_singleton items item inductionHypothesis =>
      have waits : scheme.waits (scheme.sweep items status (scheme.name item)) = true ↔
          scheme.waits (status (scheme.name item)) = true ∧
            ¬ scheme.Cut status items (scheme.name item) := by
        rw [inductionHypothesis]
        split_ifs with cut
        · simp [cut, (scheme.blocks_apart _ scheme.blocks_mark).1]
        · simp [cut]
      have blocks : ∀ need, scheme.blocks (scheme.sweep items status need) = true ↔
          scheme.blocks (status need) = true ∨ scheme.Cut status items need := by
        intro need
        rw [inductionHypothesis]
        split_ifs with cut
        · simp [cut, scheme.blocks_mark]
        · simp [cut]
      rw [sweep, List.foldl_append, ← sweep]
      show scheme.visit (scheme.sweep items status) item node = _
      rw [visit]
      simp only [List.any_eq_true, waits, blocks, cut_snoc]
      by_cases same : scheme.name item = node
      · subst same
        split_ifs with marks cut cut
        · exact Function.update_self _ _ _
        · exact absurd (Or.inr ⟨rfl, marks.1.1, marks.2⟩) cut
        · rw [inductionHypothesis]
          rcases cut with earlier | ⟨-, waiting, needed⟩
          · exact if_pos earlier
          · by_contra unmarked
            refine marks ⟨⟨waiting, fun earlier => unmarked (if_pos earlier)⟩, needed⟩
        · rw [inductionHypothesis, if_neg fun earlier => cut (Or.inl earlier)]
      · simp only [same, false_and, or_false]
        split_ifs with marks cut cut
        · rw [Function.update_of_ne (Ne.symm same), inductionHypothesis, if_pos cut]
        · rw [Function.update_of_ne (Ne.symm same), inductionHypothesis, if_neg cut]
        · rw [inductionHypothesis, if_pos cut]
        · rw [inductionHypothesis, if_neg cut]

theorem waits_sweep : scheme.waits (scheme.sweep items status node) = true ↔
    scheme.waits (status node) = true ∧ ¬ scheme.Cut status items node := by
  rw [sweep_eq]
  split_ifs with cut
  · simp [cut, (scheme.blocks_apart _ scheme.blocks_mark).1]
  · simp [cut]

theorem finished_sweep : scheme.finished (scheme.sweep items status node) = true ↔
    scheme.finished (status node) = true := by
  rw [sweep_eq]
  split_ifs with cut
  · rw [(scheme.blocks_apart _ scheme.blocks_mark).2]
    refine iff_of_false Bool.false_ne_true fun finished => ?_
    have waits := cut.waits
    rw [scheme.finished_apart _ finished] at waits
    exact Bool.false_ne_true waits
  · rfl

/-- What is cut off needs something that blocks when the sweep is over. -/
theorem Cut.exists_need (cut : scheme.Cut status items node) :
    ∃ need, scheme.Needs items need node ∧
      scheme.blocks (scheme.sweep items status need) = true := by
  cases cut with
  | @blocked _ _ _ item need shape waits needed blocks =>
      refine ⟨need, ⟨item, by rw [shape]; simp, rfl, needed⟩, ?_⟩
      rw [sweep_eq]
      split_ifs
      · exact scheme.blocks_mark
      · exact blocks
  | @behind _ before after item need shape waits needed cut =>
      refine ⟨need, ⟨item, by rw [shape]; simp, rfl, needed⟩, ?_⟩
      rw [sweep_eq, if_pos (shape ▸ cut.append _)]
      exact scheme.blocks_mark

/-! ## What a sweep leaves -/

omit [DecidableEq Node] in
/-- Only finitely many nodes need something, so that a graph without cycles is well-founded. -/
theorem wellFounded_needs (acyclic : ∀ node, ¬ Relation.TransGen (scheme.Needs items) node node) :
    WellFounded (scheme.Needs items) := by
  have order : IsStrictOrder Node (Relation.TransGen (scheme.Needs items)) :=
    { irrefl := acyclic, trans := fun _ _ _ => Relation.TransGen.trans }
  have names : {node | ∃ item ∈ items, scheme.name item = node}.Finite :=
    (items.map scheme.name).finite_toSet.subset fun node named => List.mem_map.mpr named
  have founded := names.wellFoundedOn (r := Relation.TransGen (scheme.Needs items))
  have unnamed : ∀ node, ¬ (∃ item ∈ items, scheme.name item = node) →
      Acc (scheme.Needs items) node := by
    refine fun node none => ⟨_, fun need needed => ?_⟩
    obtain ⟨item, inItems, same, -⟩ := needed
    exact absurd ⟨item, inItems, same⟩ none
  refine ⟨fun node => ?_⟩
  by_cases named : ∃ item ∈ items, scheme.name item = node
  · refine founded.induction named fun other _ below => ⟨_, fun need needed => ?_⟩
    by_cases member : ∃ item ∈ items, scheme.name item = need
    · exact below need member (.single needed)
    · exact unnamed need member
  · exact unnamed node named

/-- In a graph without cycles, of items that wait, block or are finished, the items that a sweep
leaves are stuck when nothing is ready and the order of the list hides a doomed one. -/
theorem stuck_sweep_iff (acyclic : WellFounded (scheme.Needs items))
    (known : ∀ item ∈ items, ∀ need ∈ scheme.needs item, ∃ other ∈ items, scheme.name other = need)
    (settled : ∀ item ∈ items, scheme.waits (status (scheme.name item)) = true ∨
      scheme.blocks (status (scheme.name item)) = true ∨
      scheme.finished (status (scheme.name item)) = true) :
    scheme.Stuck (scheme.sweep items status) items ↔
      (∀ item ∈ items, scheme.Ready status item → scheme.Cut status items (scheme.name item)) ∧
        ∃ node, scheme.Doomed status items node ∧ ¬ scheme.Cut status items node := by
  have ready : ∀ item, scheme.Ready (scheme.sweep items status) item ↔
      scheme.Ready status item ∧ ¬ scheme.Cut status items (scheme.name item) := by
    intro item
    simp only [Ready, waits_sweep, finished_sweep]
    exact and_right_comm
  constructor
  · rintro ⟨⟨item, member, waits⟩, none⟩
    refine ⟨fun item member isReady => ?_, ?_⟩
    · by_contra cut
      exact none item member ((ready item).mpr ⟨isReady, cut⟩)
    · -- the waiting items are searched along what they need
      induction named : scheme.name item using acyclic.induction generalizing item with
      | _ node inductionHypothesis =>
          obtain ⟨waiting, uncut⟩ := waits_sweep.mp waits
          have unready := none item member
          rw [ready] at unready
          have missing : ¬ ∀ need ∈ scheme.needs item, scheme.finished (status need) = true :=
            fun all => unready ⟨⟨waiting, all⟩, uncut⟩
          simp only [not_forall] at missing
          obtain ⟨need, needed, unfinished⟩ := missing
          obtain ⟨other, inItems, rfl⟩ := known item member need needed
          rcases settled other inItems with waitsToo | blocks | finished
          · by_cases cut : scheme.Cut status items (scheme.name other)
            · exact ⟨_, .behind member waiting needed cut.doomed, uncut⟩
            · exact inductionHypothesis _ ⟨item, member, named, needed⟩ other inItems
                (waits_sweep.mpr ⟨waitsToo, cut⟩) rfl
          · exact ⟨_, .blocked member waiting needed blocks, uncut⟩
          · exact absurd finished unfinished
  · rintro ⟨cutOff, node, doomed, uncut⟩
    refine ⟨?_, fun item member isReady => ?_⟩
    · cases doomed with
      | blocked member waits => exact ⟨_, member, waits_sweep.mpr ⟨waits, uncut⟩⟩
      | behind member waits => exact ⟨_, member, waits_sweep.mpr ⟨waits, uncut⟩⟩
    · obtain ⟨before, left⟩ := (ready item).mp isReady
      exact left (cutOff item member before)

end Sweep

end Scheme

end SpecAsCode.Unreachable
