import SpecAsCode.Lib.History

/-!
# The budget of model calls

`executeTaskInRun` reserves a call for the task that it executes.  Calls are dispatched for
tasks, for verdicts of agents and for amendments of the plan.
-/

namespace SpecAsCode.Runtime.Budget

open SpecAsCode.History

structure BudgetConfig where
  maxModelCalls : Nat
  maxReplans : Nat

def STAGE_ROUND_BOUND : Nat := 3

def MAX_AMENDMENT_REPAIR_ATTEMPTS : Nat := 2

/-- A call of `generateStructured` that has not been answered. -/
inductive Call where
  /-- For a task, with the rounds that were recorded before and in this execution. -/
  | executor (priorStageRejections stageRejections submissionRefusals : Nat)
  | verifier
  | replanner (attempt : Nat)
  deriving DecidableEq

/-- What becomes of an answer. -/
inductive Verdict where
  | accepted
  /-- A high-risk amendment is not applied. -/
  | gated
  /-- The submission guard refuses the answer. -/
  | refused
  /-- The change set cannot be staged, for a defect of the answer. -/
  | stageRejected
  /-- The amendment cannot be applied, or the amended plan is not valid. -/
  | invalid
  deriving DecidableEq

/-- The call that follows an answer. -/
def Call.requeue? : Call → Verdict → Option Call
  | .executor prior staged refused, .refused =>
      if STAGE_ROUND_BOUND < prior + staged + (refused + 1) then none
      else some (.executor prior staged (refused + 1))
  | .executor prior staged refused, .stageRejected =>
      if STAGE_ROUND_BOUND < prior + (staged + 1) then none
      else some (.executor prior (staged + 1) refused)
  | .replanner attempt, .invalid =>
      if attempt = 1 + MAX_AMENDMENT_REPAIR_ATTEMPTS then none
      else some (.replanner (attempt + 1))
  | _, _ => none

/-- Usage is recorded for a call that throws only if it was for a task. -/
def Call.recordsFailure : Call → Bool
  | .executor _ _ _ => true
  | _ => false

structure BudgetRun where
  /-- `ctx.modelCalls`. -/
  modelCalls : Nat
  /-- The number of `USAGE_RECORDED` events. -/
  recorded : Nat
  dispatched : Nat
  replans : Nat
  /-- The calls under way, by their numbers. -/
  calls : List (Nat × Call)
  deriving DecidableEq

inductive BudgetOp where
  /-- `executeTaskInRun` begins.  It may fail before it calls the provider. -/
  | execute (verifies calls : Bool) (priorStageRejections : Nat)
  /-- A criterion is judged by an agent, and there is no verdict on it yet. -/
  | verify
  /-- A task needs a replan. -/
  | replan (provider : Bool)
  | answer (call : Nat) (verdict : Verdict)
  | fail (call : Nat)
  /-- The process ends, and the run is resumed by another one. -/
  | resume

namespace BudgetRun

def start : BudgetRun where
  modelCalls := 0
  recorded := 0
  dispatched := 0
  replans := 0
  calls := []

def dispatch (run : BudgetRun) (call : Call) : BudgetRun :=
  { run with
    dispatched := run.dispatched + 1
    calls := run.calls ++ [(run.dispatched, call)] }

def call? (run : BudgetRun) (number : Nat) : Option Call :=
  (run.calls.find? fun entry => entry.1 = number).map Prod.snd

/-- The call has ended. -/
def close (run : BudgetRun) (number : Nat) (records : Bool) : BudgetRun :=
  { run with
    recorded := run.recorded + records.toNat
    calls := run.calls.filter fun entry => entry.1 ≠ number }

/-- The budget check at the beginning of `executeTaskInRun`, and the first call. -/
def execute (config : BudgetConfig) (run : BudgetRun) (verifies calls : Bool) (prior : Nat) :
    BudgetRun :=
  if config.maxModelCalls ≤ run.modelCalls ∨ verifies = true then
    run
  else if calls = true then
    { run with modelCalls := run.modelCalls + 1 }.dispatch (.executor prior 0 0)
  else
    { run with modelCalls := run.modelCalls + 1 }

def replan (config : BudgetConfig) (run : BudgetRun) (provider : Bool) : BudgetRun :=
  if provider = false ∨ config.maxReplans ≤ run.replans then run
  else run.dispatch (.replanner 1)

/-- The number of replans after an answer. -/
def replansAfter (run : BudgetRun) : Call → Verdict → Nat
  | .replanner _, .accepted => run.replans + 1
  | _, _ => run.replans

def answer (run : BudgetRun) (number : Nat) (verdict : Verdict) : BudgetRun :=
  match run.call? number with
  | none => run
  | some call =>
      let closed := { run.close number true with replans := run.replansAfter call verdict }
      match call.requeue? verdict with
      | some next => closed.dispatch next
      | none => closed

def fail (run : BudgetRun) (number : Nat) : BudgetRun :=
  match run.call? number with
  | none => run
  | some call => run.close number call.recordsFailure

def act (config : BudgetConfig) (op : BudgetOp) (run : BudgetRun) : BudgetRun :=
  match op with
  | .execute verifies calls prior => run.execute config verifies calls prior
  | .verify => run.dispatch .verifier
  | .replan provider => run.replan config provider
  | .answer number verdict => run.answer number verdict
  | .fail number => run.fail number
  -- the counter is read from the projected events
  | .resume => { run with modelCalls := run.recorded, calls := [] }

end BudgetRun

/-! ## Dispatches -/

/-- The operation dispatches a call that nothing was reserved for. -/
def dispatchesUnreserved (config : BudgetConfig) (run : BudgetRun) : BudgetOp → Bool
  | .verify => true
  | .replan provider => provider && decide (run.replans < config.maxReplans)
  | .answer number verdict => (run.call? number).any fun call => (call.requeue? verdict).isSome
  | _ => false

/-- The operation reserves a call and dispatches it. -/
def dispatchesReserved (config : BudgetConfig) (run : BudgetRun) : BudgetOp → Bool
  | .execute verifies calls _ =>
      decide (run.modelCalls < config.maxModelCalls) && !verifies && calls
  | _ => false

/-- Less than the bound has been dispatched when a call is that nothing was reserved for, or
that is reserved while the counter is behind. -/
def WithinBudget (config : BudgetConfig) (run : BudgetRun) (op : BudgetOp) : Prop :=
  dispatchesUnreserved config run op = true ∨
      dispatchesReserved config run op = true ∧ run.modelCalls < run.dispatched →
    run.dispatched < config.maxModelCalls

/-- Every call that is dispatched was reserved, and is recorded before the run is resumed. -/
def ReservesAll (config : BudgetConfig) (run : BudgetRun) (op : BudgetOp) : Prop :=
  dispatchesUnreserved config run op = false ∧ (op = .resume → run.recorded = run.dispatched)

section Budget

variable {config : BudgetConfig} {run : BudgetRun}

theorem execute_dispatches (verifies calls : Bool) (prior : Nat) :
    (run.execute config verifies calls prior).dispatched =
      run.dispatched + (dispatchesReserved config run (.execute verifies calls prior)).toNat := by
  rw [BudgetRun.execute, dispatchesReserved]
  by_cases full : config.maxModelCalls ≤ run.modelCalls
  · rw [if_pos (Or.inl full), decide_eq_false (Nat.not_lt.mpr full)]
    rfl
  · rw [decide_eq_true (Nat.lt_of_not_le full)]
    cases verifies with
    | true =>
        rw [if_pos (Or.inr rfl)]
        rfl
    | false =>
        rw [if_neg (by simpa using full)]
        cases calls <;> rfl

theorem replan_dispatches (provider : Bool) :
    (run.replan config provider).dispatched =
      run.dispatched + (dispatchesUnreserved config run (.replan provider)).toNat := by
  rw [BudgetRun.replan, dispatchesUnreserved]
  cases provider with
  | false => rfl
  | true =>
      by_cases full : config.maxReplans ≤ run.replans
      · rw [if_pos (Or.inr full), decide_eq_false (Nat.not_lt.mpr full)]
        rfl
      · rw [if_neg (by simpa using full), decide_eq_true (Nat.lt_of_not_le full)]
        rfl

theorem answer_dispatches (number : Nat) (verdict : Verdict) :
    (run.answer number verdict).dispatched =
      run.dispatched + (dispatchesUnreserved config run (.answer number verdict)).toNat := by
  rw [BudgetRun.answer, dispatchesUnreserved]
  cases run.call? number with
  | none => rfl
  | some call =>
      dsimp only [Option.any_some]
      cases call.requeue? verdict <;> rfl

/-- A step dispatches at most one call. -/
theorem dispatched_act (op : BudgetOp) :
    (run.act config op).dispatched =
      run.dispatched + (dispatchesUnreserved config run op).toNat +
        (dispatchesReserved config run op).toNat := by
  cases op with
  | execute verifies calls prior => exact execute_dispatches verifies calls prior
  | verify => rfl
  | replan provider => exact replan_dispatches provider
  | answer number verdict => exact answer_dispatches number verdict
  | fail number =>
      rw [BudgetRun.act, BudgetRun.fail]
      cases run.call? number <;> rfl
  | resume => rfl

/-- No operation dispatches both. -/
theorem unreserved_of_reserved {op : BudgetOp} (reserved : dispatchesReserved config run op = true) :
    dispatchesUnreserved config run op = false ∧ run.modelCalls < config.maxModelCalls := by
  cases op with
  | execute verifies calls prior =>
      rw [dispatchesReserved, Bool.and_eq_true, Bool.and_eq_true, decide_eq_true_iff] at reserved
      exact ⟨rfl, reserved.1.1⟩
  | verify => cases reserved
  | replan provider => cases reserved
  | answer number verdict => cases reserved
  | fail number => cases reserved
  | resume => cases reserved

/-- A step stays within the budget. -/
theorem withinBudget_iff {op : BudgetOp} (within : run.dispatched ≤ config.maxModelCalls) :
    (run.act config op).dispatched ≤ config.maxModelCalls ↔ WithinBudget config run op := by
  rw [dispatched_act, WithinBudget]
  cases reserved : dispatchesReserved config run op with
  | true =>
      obtain ⟨other, room⟩ := unreserved_of_reserved reserved
      rw [other, Bool.toNat_false, Bool.toNat_true]
      constructor
      · intro after _
        omega
      · intro behind
        by_cases covered : run.modelCalls < run.dispatched
        · have less := behind (Or.inr ⟨rfl, covered⟩)
          omega
        · omega
  | false =>
      rw [Bool.toNat_false]
      cases unreserved : dispatchesUnreserved config run op with
      | true =>
          rw [Bool.toNat_true]
          exact ⟨fun after _ => after, fun less => less (Or.inl rfl)⟩
      | false =>
          rw [Bool.toNat_false]
          simpa using within

/-! ## Reservations -/

/-- The counter is not behind. -/
def Covered (run : BudgetRun) : Prop :=
  run.dispatched ≤ run.modelCalls

theorem modelCalls_act {op : BudgetOp} (goesOn : op ≠ .resume) :
    run.modelCalls + (dispatchesReserved config run op).toNat ≤ (run.act config op).modelCalls := by
  cases op with
  | execute verifies calls prior =>
      show _ ≤ (run.execute config verifies calls prior).modelCalls
      rw [BudgetRun.execute, dispatchesReserved]
      by_cases full : config.maxModelCalls ≤ run.modelCalls
      · rw [if_pos (Or.inl full), decide_eq_false (Nat.not_lt.mpr full)]
        exact Nat.le_refl _
      · cases verifies with
        | true =>
            rw [if_pos (Or.inr rfl), Bool.not_true, Bool.and_false, Bool.false_and]
            exact Nat.le_refl _
        | false =>
            rw [if_neg (by simpa using full)]
            have bit := Bool.toNat_le (decide (run.modelCalls < config.maxModelCalls) && !false && calls)
            cases calls with
            | true => exact Nat.add_le_add_left bit _
            | false => exact Nat.add_le_add_left bit _
  | verify => exact Nat.le_refl _
  | replan provider =>
      show _ ≤ (run.replan config provider).modelCalls
      rw [BudgetRun.replan]
      split_ifs <;> exact Nat.le_refl _
  | answer number verdict =>
      show _ ≤ (run.answer number verdict).modelCalls
      rw [BudgetRun.answer]
      cases run.call? number with
      | none => exact Nat.le_refl _
      | some call =>
          dsimp only
          cases call.requeue? verdict <;> exact Nat.le_refl _
  | fail number =>
      show _ ≤ (run.fail number).modelCalls
      rw [BudgetRun.fail]
      cases run.call? number <;> exact Nat.le_refl _
  | resume => exact absurd rfl goesOn

theorem Covered.act (covered : Covered run) {op : BudgetOp} (reserves : ReservesAll config run op) :
    Covered (run.act config op) := by
  by_cases resumes : op = .resume
  · have recorded := reserves.2 resumes
    subst resumes
    exact Nat.le_of_eq recorded.symm
  · have counted := @modelCalls_act config run op resumes
    have before : run.dispatched ≤ run.modelCalls := covered
    rw [Covered, dispatched_act, reserves.1, Bool.toNat_false]
    omega

theorem Covered.withinBudget (covered : Covered run) {op : BudgetOp}
    (reserves : ReservesAll config run op) : WithinBudget config run op := by
  rintro (unreserved | ⟨-, behind⟩)
  · rw [reserves.1] at unreserved
    cases unreserved
  · exact absurd behind (Nat.not_lt.mpr covered)

end Budget

end SpecAsCode.Runtime.Budget
