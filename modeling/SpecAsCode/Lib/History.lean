import Mathlib.Data.List.Basic
import Mathlib.Data.List.Nodup
import Mathlib.Data.List.Perm.Basic
import Mathlib.Logic.Relation

/-!
# Histories

A history is a list of operations, each of which acts on a state.  What holds before every
operation of a history, and how invariants travel along it.

Steps may be ordered only in part.  Two arrangements that respect the order lead to the same
state when the steps that are not ordered commute.
-/

namespace SpecAsCode.History

variable {State Op : Type} (act : Op → State → State)

/-- The state after a history. -/
def run : List Op → State → State
  | [], state => state
  | op :: ops, state => run ops (act op state)

/-- A property of the state before an operation and of the operation, at every step. -/
def EveryStep (P : State → Op → Prop) : List Op → State → Prop
  | [], _ => True
  | op :: ops, state => P state op ∧ EveryStep P ops (act op state)

instance decidableEveryStep {P : State → Op → Prop} [∀ state op, Decidable (P state op)] :
    (ops : List Op) → (state : State) → Decidable (EveryStep act P ops state)
  | [], _ => isTrue trivial
  | op :: ops, state =>
      have : Decidable (EveryStep act P ops (act op state)) :=
        decidableEveryStep ops (act op state)
      inferInstanceAs (Decidable (P state op ∧ EveryStep act P ops (act op state)))

variable {act}

theorem run_append (first second : List Op) (state : State) :
    run act (first ++ second) state = run act second (run act first state) := by
  induction first generalizing state with
  | nil => rfl
  | cons op first inductionHypothesis => exact inductionHypothesis (act op state)

theorem everyStep_append {P : State → Op → Prop} (first second : List Op) (state : State) :
    EveryStep act P (first ++ second) state ↔
      EveryStep act P first state ∧ EveryStep act P second (run act first state) := by
  induction first generalizing state with
  | nil => simp [EveryStep, run]
  | cons op first inductionHypothesis =>
      simp only [List.cons_append, EveryStep, run, inductionHypothesis, and_assoc]

/-- What holds of every operation holds at every step. -/
theorem everyStep_of_forall {P : Op → Prop} {ops : List Op} (all : ∀ op ∈ ops, P op)
    (state : State) : EveryStep act (fun _ op => P op) ops state := by
  induction ops generalizing state with
  | nil => trivial
  | cons op ops inductionHypothesis =>
      exact ⟨all op List.mem_cons_self,
        inductionHypothesis (fun other member => all other (List.mem_cons_of_mem _ member)) _⟩

theorem EveryStep.and {P Q : State → Op → Prop} {ops : List Op} {state : State}
    (first : EveryStep act P ops state) (second : EveryStep act Q ops state) :
    EveryStep act (fun state op => P state op ∧ Q state op) ops state := by
  induction ops generalizing state with
  | nil => trivial
  | cons op ops inductionHypothesis =>
      exact ⟨⟨first.1, second.1⟩, inductionHypothesis first.2 second.2⟩

theorem EveryStep.mono {P Q : State → Op → Prop} {ops : List Op} {state : State}
    (weaker : ∀ state op, P state op → Q state op) (holds : EveryStep act P ops state) :
    EveryStep act Q ops state := by
  induction ops generalizing state with
  | nil => trivial
  | cons op ops inductionHypothesis =>
      exact ⟨weaker _ _ holds.1, inductionHypothesis holds.2⟩

/-- What the steps of a history preserve holds after it. -/
theorem EveryStep.invariant {P : State → Op → Prop} {Inv : State → Prop} {ops : List Op}
    {state : State} (steps : EveryStep act P ops state) (initial : Inv state)
    (step : ∀ state op, P state op → Inv state → Inv (act op state)) :
    Inv (run act ops state) := by
  induction ops generalizing state with
  | nil => exact initial
  | cons op ops inductionHypothesis =>
      exact inductionHypothesis steps.2 (step state op steps.1 initial)

/-- A property that an invariant gives holds at every step. -/
theorem EveryStep.of_invariant {P Q : State → Op → Prop} {Inv : State → Prop} {ops : List Op}
    {state : State} (steps : EveryStep act P ops state) (initial : Inv state)
    (step : ∀ state op, P state op → Inv state → Inv (act op state))
    (gives : ∀ state op, P state op → Inv state → Q state op) :
    EveryStep act Q ops state := by
  induction ops generalizing state with
  | nil => trivial
  | cons op ops inductionHypothesis =>
      exact ⟨gives state op steps.1 initial,
        inductionHypothesis steps.2 (step state op steps.1 initial)⟩

/-- What holds at every step of a history holds at every step of an initial part. -/
theorem EveryStep.of_prefix {P : State → Op → Prop} {before ops : List Op} {state : State}
    (initial : before <+: ops) (steps : EveryStep act P ops state) :
    EveryStep act P before state := by
  obtain ⟨after, rfl⟩ := initial
  exact ((everyStep_append before after state).mp steps).1

/-- A property of the states that a history reaches is one of the state after every step. -/
theorem forall_prefix_iff {P : State → Prop} {ops : List Op} {state : State} :
    (∀ before, before <+: ops → P (run act before state)) ↔
      P state ∧ EveryStep act (fun state op => P (act op state)) ops state := by
  induction ops generalizing state with
  | nil =>
      refine ⟨fun holds => ⟨holds [] List.prefix_rfl, trivial⟩, fun holds before part => ?_⟩
      rw [List.prefix_nil.mp part]
      exact holds.1
  | cons op ops inductionHypothesis =>
      constructor
      · intro holds
        have later := inductionHypothesis.mp fun before part =>
          holds (op :: before) ((List.prefix_cons_inj op).mpr part)
        exact ⟨holds [] List.nil_prefix, later.1, later.2⟩
      · rintro ⟨here, next, later⟩ before part
        cases before with
        | nil => exact here
        | cons first before =>
            obtain ⟨rfl, rest⟩ := List.cons_prefix_cons.mp part
            exact inductionHypothesis.mpr ⟨next, later⟩ before rest

/-- A history is no longer than a measure that every step lessens. -/
theorem EveryStep.length_le {P : State → Op → Prop} {Inv : State → Prop} {measure : State → Nat}
    {ops : List Op} {state : State} (steps : EveryStep act P ops state) (initial : Inv state)
    (step : ∀ state op, P state op → Inv state →
      Inv (act op state) ∧ measure (act op state) < measure state) :
    ops.length ≤ measure state := by
  induction ops generalizing state with
  | nil => exact Nat.zero_le _
  | cons op ops inductionHypothesis =>
      obtain ⟨kept, less⟩ := step state op steps.1 initial
      exact Nat.lt_of_le_of_lt (inductionHypothesis steps.2 kept) less

/-- What a log says after a history was there before, or was added by one of its steps. -/
theorem forall_log_iff {Entry : Type} {log : State → List Entry} {added : State → Op → List Entry}
    (grows : ∀ state op, log (act op state) = log state ++ added state op) {P : Entry → Prop}
    (ops : List Op) (state : State) :
    (∀ entry ∈ log (run act ops state), P entry) ↔
      (∀ entry ∈ log state, P entry) ∧
        EveryStep act (fun state op => ∀ entry ∈ added state op, P entry) ops state := by
  induction ops generalizing state with
  | nil => exact (and_iff_left trivial).symm
  | cons op ops inductionHypothesis =>
      rw [run, inductionHypothesis, grows, List.forall_mem_append, and_assoc]
      rfl

theorem everyStep_congr {P Q : State → Op → Prop} (same : ∀ state op, P state op ↔ Q state op)
    (ops : List Op) (state : State) : EveryStep act P ops state ↔ EveryStep act Q ops state :=
  ⟨EveryStep.mono fun state op => (same state op).mp,
    EveryStep.mono fun state op => (same state op).mpr⟩

/-- A history in which a property fails has a first operation at which it does. -/
theorem exists_first_failure {P : State → Op → Prop} {ops : List Op} {state : State}
    (fails : ¬ EveryStep act P ops state) :
    ∃ before op after, ops = before ++ op :: after ∧ EveryStep act P before state ∧
      ¬ P (run act before state) op := by
  induction ops generalizing state with
  | nil => exact absurd trivial fails
  | cons op ops inductionHypothesis =>
      by_cases holds : P state op
      · obtain ⟨before, failing, after, rfl, earlier, failure⟩ :=
          inductionHypothesis fun later => fails ⟨holds, later⟩
        exact ⟨op :: before, failing, after, rfl, ⟨holds, earlier⟩, failure⟩
      · exact ⟨[], op, ops, rfl, trivial, holds⟩

end SpecAsCode.History

namespace SpecAsCode.Commuting

variable {State Step : Type} {act : State → Step → State}

/-- The steps may be taken in either order. -/
def Commute (act : State → Step → State) (first second : Step) : Prop :=
  ∀ state, act (act state first) second = act (act state second) first

/-- A step that commutes with those before it may be taken first. -/
theorem foldl_step_first {front : List Step} {step : Step}
    (commutes : ∀ other ∈ front, Commute act other step) (rest : List Step) (state : State) :
    (front ++ step :: rest).foldl act state = (step :: (front ++ rest)).foldl act state := by
  induction front generalizing state with
  | nil => rfl
  | cons other front inductionHypothesis =>
      have swapped : act (act state other) step = act (act state step) other :=
        commutes other List.mem_cons_self state
      have moved := inductionHypothesis
        (fun earlier member => commutes earlier (List.mem_cons_of_mem _ member)) (act state other)
      rw [List.cons_append, List.foldl_cons, moved, List.foldl_cons, swapped]
      rfl

/-- No step of the arrangement has to stand before one that stands before it. -/
def Respects (before : Step → Step → Prop) (arrangement : List Step) : Prop :=
  arrangement.Pairwise fun earlier later => ¬ before later earlier

theorem foldl_eq_of_respects {before : Step → Step → Prop} {first second : List Step}
    (perm : first.Perm second) (respects : Respects before first)
    (respectsToo : Respects before second)
    (independent : ∀ one ∈ first, ∀ other ∈ first, one ≠ other → ¬ before one other →
      ¬ before other one → Commute act one other)
    (distinct : first.Nodup) (state : State) :
    first.foldl act state = second.foldl act state := by
  induction first generalizing second state with
  | nil => rw [perm.nil_eq]
  | cons step rest inductionHypothesis =>
      obtain ⟨front, back, rfl⟩ := List.append_of_mem (perm.mem_iff.mp List.mem_cons_self)
      have left : rest.Perm (front ++ back) := (perm.trans List.perm_middle).cons_inv
      have apart := List.nodup_cons.mp distinct
      have behind := List.pairwise_cons.mp respects
      -- the step stands before its predecessors in the one arrangement and behind them in the other
      have commutes : ∀ other ∈ front, Commute act other step := by
        intro other member
        have later : other ∈ rest := left.mem_iff.mpr (List.mem_append_left _ member)
        have different : other ≠ step := fun same => apart.1 (same ▸ later)
        have notAfter : ¬ before other step := behind.1 other later
        have notBefore : ¬ before step other :=
          (List.pairwise_append.mp respectsToo).2.2 other member step List.mem_cons_self
        exact independent other (List.mem_cons_of_mem _ later) step List.mem_cons_self different
          notAfter notBefore
      have remaining : Respects before (front ++ back) :=
        respectsToo.sublist ((List.sublist_cons_self step back).append_left front)
      have inside : ∀ one ∈ rest, ∀ other ∈ rest, one ≠ other → ¬ before one other →
          ¬ before other one → Commute act one other := by
        intro one member other among
        exact independent one (List.mem_cons_of_mem _ member) other (List.mem_cons_of_mem _ among)
      rw [foldl_step_first commutes back state, List.foldl_cons, List.foldl_cons]
      exact inductionHypothesis left behind.2 remaining inside apart.2 (act state step)

/-- Steps that change nothing may be left out. -/
theorem foldl_filter_idle {keep : Step → Bool} {steps : List Step}
    (idle : ∀ step ∈ steps, keep step = false → ∀ state, act state step = state) (state : State) :
    (steps.filter keep).foldl act state = steps.foldl act state := by
  induction steps generalizing state with
  | nil => rfl
  | cons step rest inductionHypothesis =>
      have later := fun state => inductionHypothesis
        (fun other member => idle other (List.mem_cons_of_mem _ member)) state
      cases kept : keep step with
      | true => rw [List.filter_cons_of_pos kept, List.foldl_cons, List.foldl_cons, later]
      | false =>
          rw [List.filter_cons_of_neg (by rw [kept]; exact Bool.false_ne_true), List.foldl_cons,
            idle step List.mem_cons_self kept state, later]

/-! ## Work that waits for other work -/

variable {Work : Type} {needs : Work → Work → Prop} {finished later : Work → Bool}
  {order more : List Work}

/-- Pieces of work in the order in which they were finished: what they need was finished first. -/
structure Finished (needs : Work → Work → Prop) (finished : Work → Bool) (order : List Work) :
    Prop where
  closed : ∀ work other, finished work = true → needs work other → finished other = true
  listed : ∀ work ∈ order, finished work = true
  distinct : order.Nodup
  respects : order.Pairwise fun earlier later => ¬ Relation.TransGen needs earlier later

theorem Finished.nil (none : ∀ work, finished work = false) : Finished needs finished [] where
  closed work other done := by
    rw [none work] at done
    cases done
  listed work member := by cases member
  distinct := List.nodup_nil
  respects := List.Pairwise.nil

theorem Finished.congr (held : Finished needs finished order)
    (same : ∀ work, later work = finished work) : Finished needs later order where
  closed work other done needed := by
    rw [same] at done ⊢
    exact held.closed work other done needed
  listed work member := (same work).trans (held.listed work member)
  distinct := held.distinct
  respects := held.respects

theorem Finished.filter (held : Finished needs finished order) (keep : Work → Bool) :
    Finished needs finished (order.filter keep) where
  closed := held.closed
  listed work member := held.listed work (List.mem_of_mem_filter member)
  distinct := held.distinct.filter keep
  respects := held.respects.sublist List.filter_sublist

/-- All that finished work needs is finished, through whatever is in between. -/
theorem Finished.reaches (held : Finished needs finished order) {work other : Work}
    (done : finished work = true) (path : Relation.TransGen needs work other) :
    finished other = true := by
  induction path with
  | single needed => exact held.closed work _ done needed
  | tail _ needed inductionHypothesis => exact held.closed _ _ inductionHypothesis needed

/-- Some work may have been finished after all that it needs. -/
theorem Finished.step (held : Finished needs finished order) {work : Work}
    (waits : finished work = false) (ready : ∀ other, needs work other → finished other = true)
    (others : ∀ other, other ≠ work → later other = finished other)
    (added : more = order ∨ more = order ++ [work] ∧ later work = true) :
    Finished needs later more := by
  have kept : ∀ other, finished other = true → later other = true := by
    intro other done
    have different : other ≠ work := by
      rintro rfl
      rw [waits] at done
      cases done
    exact (others other different).trans done
  have closed : ∀ one other, later one = true → needs one other → later other = true := by
    intro one other done needed
    by_cases same : one = work
    · exact kept other (ready other (same ▸ needed))
    · rw [others one same] at done
      exact kept other (held.closed one other done needed)
  have listed : ∀ other ∈ order, later other = true :=
    fun other member => kept other (held.listed other member)
  rcases added with rfl | ⟨rfl, done⟩
  · exact ⟨closed, listed, held.distinct, held.respects⟩
  · have fresh : work ∉ order := by
      intro member
      have known := held.listed work member
      rw [waits] at known
      cases known
    refine ⟨closed, ?_, List.nodup_append.mpr ⟨held.distinct, List.nodup_singleton work, ?_⟩,
      List.pairwise_append.mpr ⟨held.respects, List.pairwise_singleton _ work, ?_⟩⟩
    · intro other member
      rcases List.mem_append.mp member with old | new
      · exact listed other old
      · exact List.mem_singleton.mp new ▸ done
    · intro other member another last same
      rw [List.mem_singleton.mp last] at same
      exact fresh (same ▸ member)
    · intro earlier member last here path
      rw [List.mem_singleton.mp here] at path
      have known := held.reaches (held.listed earlier member) path
      rw [waits] at known
      cases known

end SpecAsCode.Commuting
