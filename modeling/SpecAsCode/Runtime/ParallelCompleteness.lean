import SpecAsCode.Runtime.ParallelDrain
import SpecAsCode.Runtime.SchedulerCompleteness

/-!
# Completeness of the parallel driver

The head of the loop of `driveRunParallel` blocks tasks as that of `runScheduler` does, so that it
leaves the same tasks over.
-/

namespace SpecAsCode.Runtime.Parallel

open SpecAsCode.Js
open SpecAsCode.Core
open SpecAsCode.Schema
open SpecAsCode.History
open SpecAsCode.Unreachable
open SpecAsCode.Runtime.Sequential (taskScheme waitingStatus waitingStatus_waitingStatus OrderReveals Acyclic KnownDependencies
  not_orderReveals_iff)

namespace ParallelRun

def status (run : ParallelRun) (id : JsString) : TaskStatus :=
  (run.stateOf id).status

/-- The status of a task when interrupted tasks have been reset. -/
def headStatus (run : ParallelRun) (id : JsString) : TaskStatus :=
  if id ∈ run.plan.tasks.map Task.id then waitingStatus (run.status id) else run.status id

end ParallelRun

section Head

variable {config : DriveConfig} {run after : ParallelRun}

/-! ## The head of the loop -/

theorem status_transition (run : ParallelRun) (id : JsString) (next : TaskState)
    (summary : JsString) :
    (run.transition id next summary).status = Function.update run.status id next.status := by
  funext other
  rw [Function.update_apply]
  split_ifs with same
  · rw [same, ParallelRun.status, ParallelRun.stateOf_transition_self]
    rfl
  · rw [ParallelRun.status, ParallelRun.stateOf_transition_ne run same]
    rfl

theorem status_resetRunning (run : ParallelRun) (task : Task) :
    (run.resetRunning task).status =
      Function.update run.status task.id (waitingStatus (run.status task.id)) := by
  have reads : run.status task.id = (run.stateOf task.id).status := rfl
  rw [ParallelRun.resetRunning, waitingStatus, reads]
  split_ifs
  · exact status_transition run task.id _ []
  · rw [← reads, Function.update_eq_self]

theorem status_blockUnreachable (run : ParallelRun) (task : Task) :
    (run.blockUnreachable task).status = taskScheme.visit run.status task := by
  have looks : ((run.stateOf task.id).status = .pending ∧ (task.dependencies.any fun dep =>
      ParallelRun.isBlocking (run.stateOf dep).status) = true) ↔
      (taskScheme.waits (run.status task.id) = true ∧
        (task.dependencies.any fun dep => taskScheme.blocks (run.status dep)) = true) :=
    and_congr beq_iff_eq.symm Iff.rfl
  rw [ParallelRun.blockUnreachable]
  by_cases marks : taskScheme.waits (run.status task.id) = true ∧
      (task.dependencies.any fun dep => taskScheme.blocks (run.status dep)) = true
  · rw [if_pos (looks.mpr marks), Scheme.visit]
    exact (status_transition run task.id _ []).trans (if_pos marks).symm
  · rw [if_neg fun same => marks (looks.mp same), Scheme.visit]
    exact (if_neg marks).symm

theorem status_resetAll (list : List Task) (run : ParallelRun) (id : JsString) :
    (list.foldl ParallelRun.resetRunning run).status id =
      if id ∈ list.map Task.id then waitingStatus (run.status id) else run.status id := by
  induction list generalizing run with
  | nil => rfl
  | cons task list inductionHypothesis =>
      rw [List.foldl_cons, inductionHypothesis, status_resetRunning, List.map_cons]
      by_cases here : id = task.id
      · subst here
        rw [Function.update_self, if_pos List.mem_cons_self, waitingStatus_waitingStatus, ite_self]
      · rw [Function.update_of_ne here]
        simp [here]

theorem status_blockAll (list : List Task) (run : ParallelRun) :
    (list.foldl ParallelRun.blockUnreachable run).status = taskScheme.sweep list run.status := by
  induction list generalizing run with
  | nil => rfl
  | cons task list inductionHypothesis =>
      rw [List.foldl_cons, inductionHypothesis, status_blockUnreachable]
      rfl

theorem status_refresh (run : ParallelRun) :
    run.refresh.status = taskScheme.sweep run.plan.tasks run.headStatus := by
  rw [ParallelRun.refresh, status_blockAll]
  congr 1
  funext id
  exact status_resetAll run.plan.tasks run id

theorem refresh_inFlight (run : ParallelRun) : run.refresh.inFlight = run.inFlight := by
  refine (refresh_induction (P := fun other : ParallelRun => other.inFlight = run.inFlight) rfl
    (fun other task same => ?_) fun other task _ same => ?_).1
  · rw [ParallelRun.resetRunning]
    split_ifs <;> exact same
  · rw [ParallelRun.blockUnreachable]
    split_ifs <;> exact same

/-! ## A pass -/

theorem launchReady_eq_nil {refused : JsString → Bool} {now : JsString} {tasks : List Task} :
    (ParallelRun.launchReady config refused now tasks run).inFlight = [] ↔
      run.inFlight = [] ∧ tasks = [] := by
  have grows : ∀ (tasks : List Task) (run : ParallelRun), run.inFlight ≠ [] →
      (ParallelRun.launchReady config refused now tasks run).inFlight ≠ [] := by
    intro tasks
    induction tasks with
    | nil => exact fun run flying => flying
    | cons task rest inductionHypothesis =>
        intro run flying
        rw [ParallelRun.launchReady]
        split_ifs
        · exact flying
        · exact inductionHypothesis run flying
        · exact inductionHypothesis _ (List.append_ne_nil_of_right_ne_nil _ (List.cons_ne_nil _ _))
  by_cases empty : run.inFlight = []
  · cases tasks with
    | nil => exact iff_of_true empty ⟨empty, rfl⟩
    | cons task rest =>
        refine iff_of_false ?_ fun none => List.cons_ne_nil _ _ none.2
        have room : ¬ config.maxParallel ≤ run.inFlight.length := by
          rw [empty]
          exact Nat.not_le_of_lt (Nat.lt_of_lt_of_le Nat.one_pos (le_max_left 1 _))
        have apart : ¬ run.overlaps task = true := by
          rw [ParallelRun.overlaps, empty]
          exact Bool.false_ne_true
        rw [ParallelRun.launchReady, if_neg room, if_neg apart]
        exact grows rest _ (List.append_ne_nil_of_right_ne_nil _ (List.cons_ne_nil _ _))
  · exact iff_of_false (grows tasks run empty) fun none => empty none.1

/-- What a launch leaves as it is, the loop over the ready tasks leaves. -/
theorem launchReady_kept {P : ParallelRun → Prop} {refused : JsString → Bool} {now : JsString}
    (launch : ∀ run task, (run.status task.id = .pending) → P run →
      P (run.launch task (refused task.id) now)) (initial : P run) :
    P (ParallelRun.launchReady config refused now run.readyTasks run) :=
  launchReady_induction (P := P) (fun run task launchable _ holds =>
    launch run task launchable.pending holds) (readyTasks_distinct run)
    (fun _ member => launchable_of_ready member) initial

theorem endPass_outcome (deadlocked : Bool) :
    (run.endPass deadlocked).outcome = .deadlocked ↔
      run.outcome = .deadlocked ∨ (run.inFlight = [] ∧ deadlocked = true) := by
  rw [ParallelRun.endPass]
  by_cases empty : run.inFlight = []
  · rw [if_pos empty]
    cases deadlocked with
    | true => exact iff_of_true rfl (Or.inr ⟨empty, rfl⟩)
    | false => simp
  · rw [if_neg empty]
    simp [empty]

/-- A pass ends the run in a deadlock when nothing is in flight and the tasks it leaves are
stuck. -/
theorem pass_deadlocked (goesOn : run.outcome ≠ .deadlocked)
    (observed : run.refresh.cancellationObserved = false) (refused : JsString → Bool)
    (now : JsString) :
    (run.pass config refused now).outcome = .deadlocked ↔
      run.inFlight = [] ∧ taskScheme.Stuck run.refresh.status run.refresh.plan.tasks := by
  have outcome : run.refresh.outcome = run.outcome := by
    refine (refresh_induction (P := fun other : ParallelRun => other.outcome = run.outcome) rfl
      (fun other task same => ?_) fun other task _ same => ?_).1
    · rw [ParallelRun.resetRunning]
      split_ifs <;> exact same
    · rw [ParallelRun.blockUnreachable]
      split_ifs <;> exact same
  have launched : (ParallelRun.launchReady config refused now run.refresh.readyTasks
      run.refresh).outcome = run.outcome :=
    launchReady_kept (P := fun other => other.outcome = run.outcome) (fun _ _ _ same => same) outcome
  rw [ParallelRun.pass, if_neg (by rw [observed]; exact Bool.false_ne_true), endPass_outcome,
    launched, launchReady_eq_nil, refresh_inFlight, and_assoc]
  rw [or_iff_right goesOn]
  refine and_congr_right fun empty => ?_
  have pending : ∀ task, run.refresh.isPending task = true ↔
      taskScheme.waits (run.refresh.status task.id) = true := by
    intro task
    rw [ParallelRun.isPending, refresh_inFlight, empty, List.all_nil, Bool.and_true]
    rfl
  have ready : ∀ task, task ∈ run.refresh.readyTasks ↔
      task ∈ run.refresh.plan.tasks ∧ taskScheme.Ready run.refresh.status task := by
    intro task
    rw [ParallelRun.readyTasks, List.mem_filter, List.mem_filter, pending, List.all_eq_true,
      and_assoc]
    rfl
  rw [Scheme.Stuck, decide_eq_true_iff, and_comm]
  refine and_congr ?_ ?_
  · rw [Ne, List.filter_eq_nil_iff]
    simp only [pending, not_forall, not_not, exists_prop]
    rfl
  · rw [List.eq_nil_iff_forall_not_mem]
    simp only [ready, not_and]

/-! ## The end of a task -/

theorem status_drain (run : ParallelRun) (flight : Flight) :
    (run.drain flight).status = run.status := by
  rw [ParallelRun.drain]
  split_ifs <;> rfl

theorem conclude_blocked {flight : Flight} {outcome : ExecutionOutcome} {now : JsString}
    (blocked : (run.conclude config flight outcome now).status flight.task.id = .blocked) :
    outcome.status = .blocked := by
  have transition : ∀ (next : TaskState) (summary : JsString),
      (run.transition flight.task.id next summary).status flight.task.id = next.status := by
    intro next summary
    rw [status_transition, Function.update_self]
  rw [ParallelRun.conclude] at blocked
  cases result : outcome.status with
  | blocked => rfl
  | completed =>
      rw [result] at blocked
      cases (transition _ outcome.summary).symm.trans blocked
  | failed =>
      rw [result] at blocked
      dsimp only at blocked
      split_ifs at blocked
      · cases (transition _ []).symm.trans blocked
      · cases (transition _ []).symm.trans blocked
  | needsReplan =>
      rw [result] at blocked
      dsimp only at blocked
      rw [status_drain] at blocked
      cases (transition _ []).symm.trans blocked

theorem conclude_kept (run : ParallelRun) (flight : Flight) (outcome : ExecutionOutcome)
    (now : JsString) :
    (run.conclude config flight outcome now).cancellationObserved = run.cancellationObserved ∧
      (run.conclude config flight outcome now).outcome = run.outcome := by
  rw [ParallelRun.conclude]
  cases outcome.status with
  | completed => exact ⟨rfl, rfl⟩
  | failed =>
      dsimp only
      split_ifs <;> exact ⟨rfl, rfl⟩
  | blocked => exact ⟨rfl, rfl⟩
  | needsReplan =>
      dsimp only
      rw [ParallelRun.drain]
      split_ifs <;> exact ⟨rfl, rfl⟩

/-- What a merge leaves of the run and of the outcome. -/
theorem merge_kept (run : ParallelRun) (flight : Flight) (outcome : ExecutionOutcome)
    (patch : Option JsString) (applies : Bool) :
    (run.merge flight outcome patch applies).1.cancellationObserved = run.cancellationObserved ∧
      (run.merge flight outcome patch applies).1.outcome = run.outcome ∧
      ((run.merge flight outcome patch applies).2 = outcome ∨
        (run.merge flight outcome patch applies).2 = failedOutcome (js "EXECUTION_CONFLICT")
          (js "task patch conflicted during deterministic merge")) := by
  rw [ParallelRun.merge]
  cases (if outcome.status = .completed then patch else none) with
  | none => exact ⟨rfl, rfl, Or.inl rfl⟩
  | some sha =>
      cases applies with
      | true => exact ⟨rfl, rfl, Or.inl rfl⟩
      | false => exact ⟨rfl, rfl, Or.inr rfl⟩

theorem settle_outcome (run : ParallelRun) (flight : Flight) (settlement : Settlement)
    (now : JsString) : (run.settle config flight settlement now).outcome = run.outcome := by
  cases settlement with
  | threw => rfl
  | returned outcome patch applies =>
      exact (conclude_kept _ flight _ now).2.trans (merge_kept run flight outcome patch applies).2.1

theorem settle_blocked {flight : Flight} {outcome : ExecutionOutcome} {patch : Option JsString}
    {applies : Bool} {now : JsString}
    (blocked : (run.settle config flight (.returned outcome patch applies) now).status
      flight.task.id = .blocked) : outcome.status = .blocked := by
  have result := conclude_blocked blocked
  obtain ⟨-, -, same | conflict⟩ := merge_kept run flight outcome patch applies
  · rwa [same] at result
  · rw [conflict] at result
    cases result

theorem settle_observed (observed : run.cancellationObserved = false) (flight : Flight)
    {outcome : ExecutionOutcome} (quiet : outcome.failure.map TaskFailure.code ≠
      some (js "REQUEST_RETIRED")) (patch : Option JsString) (applies : Bool) (now : JsString) :
    (run.settle config flight (.returned outcome patch applies) now).cancellationObserved =
      false := by
  obtain ⟨kept, -, result⟩ := merge_kept run flight outcome patch applies
  have code : (run.merge flight outcome patch applies).2.failure.map TaskFailure.code ≠
      some (js "REQUEST_RETIRED") := by
    rcases result with same | conflict
    · rwa [same]
    · rw [conflict]
      decide
  refine (conclude_kept _ flight _ now).1.trans ?_
  rw [ParallelRun.observeCancellation]
  dsimp only
  rw [kept, observed, Bool.false_or, beq_eq_false_iff_ne]
  exact code

/-! ## What steps keep -/

/-- No task asks for a replan or meets the cancellation of the run. -/
def DriveOp.Quiet : DriveOp → Prop
  | .settle _ (.returned outcome _ _) _ =>
      outcome.status ≠ .needsReplan ∧
        outcome.failure.map TaskFailure.code ≠ some (js "REQUEST_RETIRED")
  | _ => True

/-- The status is one of a task in an undisturbed run. -/
def Ordinary (status : TaskStatus) : Prop :=
  status = .pending ∨ status = .running ∨ status = .completed ∨ status = .failed ∨ status = .blocked

/-- What is known of an undisturbed run. -/
structure Steady (plan : ValidPlan) (run : ParallelRun) : Prop where
  kept : run.plan = plan
  ordinary : ∀ task ∈ plan.tasks, Ordinary (run.status task.id)
  observed : run.cancellationObserved = false
  ended : run.driver = .finishing → run.inFlight = [] ∧ (run.outcome = .done →
    ∀ task ∈ plan.tasks, run.status task.id ≠ .pending ∧ run.status task.id ≠ .running)

theorem not_asksReplan {op : DriveOp} (quiet : op.Quiet) : ¬ AsksReplan run op := by
  rintro ⟨flight, -, -, outcome, patch, applies, now, rfl, replan⟩
  exact quiet.1 replan

variable {plan : ValidPlan}

theorem status_head {id : JsString} (named : id ∈ run.plan.tasks.map Task.id) :
    run.headStatus id ≠ .running := by
  rw [ParallelRun.headStatus, if_pos named, waitingStatus]
  split_ifs with running
  · exact TaskStatus.noConfusion
  · exact running

theorem Steady.refresh (steady : Steady plan run) :
    (∀ task ∈ plan.tasks, Ordinary (run.refresh.status task.id) ∧
      run.refresh.status task.id ≠ .running) ∧
    run.refresh.plan = plan ∧ run.refresh.cancellationObserved = false := by
  refine ⟨fun task planned => ?_, ?_, ?_⟩
  · have named : task.id ∈ run.plan.tasks.map Task.id := by
      rw [steady.kept]
      exact List.mem_map_of_mem planned
    rw [status_refresh, Scheme.sweep_eq]
    split_ifs with cut
    · exact ⟨Or.inr (Or.inr (Or.inr (Or.inr rfl))), TaskStatus.noConfusion⟩
    · refine ⟨?_, status_head named⟩
      rw [ParallelRun.headStatus, if_pos named, waitingStatus]
      split_ifs
      · exact Or.inl rfl
      · exact steady.ordinary task planned
  · exact (refresh_induction (P := fun _ => True) trivial (fun _ _ _ => trivial)
      fun _ _ _ _ => trivial).2.trans steady.kept
  · refine (refresh_induction (P := fun other : ParallelRun => other.cancellationObserved = false)
      steady.observed (fun other task same => ?_) fun other task _ same => ?_).1
    · rw [ParallelRun.resetRunning]
      split_ifs <;> exact same
    · rw [ParallelRun.blockUnreachable]
      split_ifs <;> exact same

/-- What the launches of a pass keep. -/
theorem Steady.launchReady (steady : Steady plan run) (refused : JsString → Bool)
    (now : JsString) :
    (ParallelRun.launchReady config refused now run.refresh.readyTasks run.refresh).plan = plan ∧
      (∀ task ∈ plan.tasks, Ordinary ((ParallelRun.launchReady config refused now
        run.refresh.readyTasks run.refresh).status task.id)) ∧
      (ParallelRun.launchReady config refused now run.refresh.readyTasks
        run.refresh).cancellationObserved = false := by
  obtain ⟨statuses, same, observed⟩ := steady.refresh
  refine launchReady_kept (P := fun other => other.plan = plan ∧
    (∀ task ∈ plan.tasks, Ordinary (other.status task.id)) ∧ other.cancellationObserved = false)
    (fun other task pending holds => ⟨holds.1, fun later planned => ?_, holds.2.2⟩)
    ⟨same, fun task planned => (statuses task planned).1, observed⟩
  show Ordinary ((other.transition task.id _ []).status later.id)
  rw [status_transition, Function.update_apply]
  split_ifs
  · exact Or.inr (Or.inl rfl)
  · exact holds.2.1 later planned

theorem Steady.pass (steady : Steady plan run) (refused : JsString → Bool) (now : JsString) :
    Steady plan (run.pass config refused now) := by
  obtain ⟨statuses, same, observed⟩ := steady.refresh
  obtain ⟨kept, ordinary, unobserved⟩ := @Steady.launchReady config run plan steady refused now
  rw [ParallelRun.pass, if_neg (by rw [observed]; exact Bool.false_ne_true), ParallelRun.endPass]
  by_cases empty : (ParallelRun.launchReady config refused now run.refresh.readyTasks
      run.refresh).inFlight = []
  · rw [if_pos empty]
    refine ⟨kept, ordinary, unobserved, fun _ => ⟨empty, fun done task planned => ?_⟩⟩
    obtain ⟨none, noReady⟩ := launchReady_eq_nil.mp empty
    have left : run.refresh.plan.tasks.filter run.refresh.isPending = [] := by
      by_contra some
      rw [if_pos (decide_eq_true some)] at done
      cases done
    rw [List.filter_eq_nil_iff, same] at left
    rw [noReady]
    refine ⟨fun pending => left task planned ?_, (statuses task planned).2⟩
    rw [ParallelRun.isPending, none, List.all_nil, Bool.and_true]
    exact beq_iff_eq.mpr pending
  · rw [if_neg empty]
    exact ⟨kept, ordinary, unobserved, fun finishing => DriverPhase.noConfusion finishing⟩

theorem Steady.of_driver (steady : Steady plan run) {driver : DriverPhase}
    (other : driver ≠ .finishing) : Steady plan { run with driver := driver } :=
  ⟨steady.kept, steady.ordinary, steady.observed, fun finishing => absurd finishing other⟩

/-- A promise settles before the loop has ended. -/
theorem Steady.not_finishing (steady : Steady plan run) {flight : Flight}
    (member : flight ∈ run.inFlight) (promise : Nat) (fulfilled : Bool) :
    run.driver.settle promise fulfilled ≠ .finishing := by
  intro finishing
  have ended : run.driver = .finishing := by
    cases driver : run.driver with
    | finishing => rfl
    | looping => rw [driver] at finishing; cases finishing
    | racing race => rw [driver] at finishing; cases finishing
    | settled returned => rw [driver] at finishing; cases finishing
    | released => rw [driver] at finishing; cases finishing
  rw [(steady.ended ended).1] at member
  cases member

theorem ordinary_of_outlasts {flight : Flight} {next : TaskState}
    (outlasts : Outlasts config flight next) : Ordinary next.status := by
  rcases outlasts with status | status | status | ⟨status, -⟩
  · exact Or.inr (Or.inr (Or.inl status))
  · exact Or.inr (Or.inr (Or.inr (Or.inl status)))
  · exact Or.inr (Or.inr (Or.inr (Or.inr status)))
  · exact Or.inl status

theorem Steady.settle (steady : Steady plan run) (sound : Sound config run) {flight : Flight}
    (member : flight ∈ run.inFlight) (executing : flight.phase = .executing)
    {settlement : Settlement} {now : JsString}
    (quiet : (DriveOp.settle flight.promise settlement now).Quiet) :
    Steady plan (run.settle config flight settlement now) := by
  cases settlement with
  | threw =>
      refine ⟨steady.kept, steady.ordinary, steady.observed, fun finishing => ?_⟩
      exact absurd finishing (steady.not_finishing member flight.promise false)
  | returned outcome patch applies =>
      obtain ⟨next, concludes, leaves⟩ := settle_spec sound member executing outcome patch applies now
      cases leaves with
      | drains replan => exact absurd replan quiet.1
      | closed stays outlasts inFlight driver =>
          refine ⟨concludes.plan.trans steady.kept, fun task planned => ?_,
            settle_observed steady.observed flight quiet.2 patch applies now, fun finishing => ?_⟩
          · rw [ParallelRun.status, concludes.states]
            split_ifs
            · exact ordinary_of_outlasts outlasts
            · exact steady.ordinary task planned
          · rw [driver] at finishing
            exact absurd finishing (steady.not_finishing member flight.promise true)

theorem Steady.step (steady : Steady plan run) (sound : Sound config run) (unasked : Unasked run)
    {op : DriveOp} (quiet : op.Quiet) (steps : Steps config run op after) :
    Steady plan after := by
  cases steps with
  | pass driver => exact steady.pass _ _
  | fails driver won => exact steady.of_driver DriverPhase.noConfusion
  | settle member executing => exact steady.settle sound member executing quiet
  | drain member draining => exact (unasked.not_draining member draining).elim
  | abandon member draining => exact (unasked.not_draining member draining).elim
  | replan member replanning => exact (sound.not_replanning member replanning).elim
  | finish driver => exact steady.of_driver DriverPhase.noConfusion
  | release driver => exact steady.of_driver DriverPhase.noConfusion

/-- All that is known of an undisturbed run. -/
structure Undisturbed (config : DriveConfig) (plan : ValidPlan) (run : ParallelRun) : Prop where
  sound : Sound config run
  unasked : Unasked run
  steady : Steady plan run

theorem Undisturbed.step (undisturbed : Undisturbed config plan run) {op : DriveOp}
    (quiet : op.Quiet) (steps : Steps config run op after) : Undisturbed config plan after where
  sound := undisturbed.sound.step steps
  unasked := undisturbed.unasked.step undisturbed.sound (not_asksReplan quiet) steps
  steady := undisturbed.steady.step undisturbed.sound undisturbed.unasked quiet steps

theorem Undisturbed.act (undisturbed : Undisturbed config plan run) {op : DriveOp}
    (quiet : op.Quiet) : Undisturbed config plan (run.act config op) :=
  act_induction (fun _ steps => undisturbed.step quiet steps) undisturbed

/-! ## Deadlocks -/

/-- The driver makes a pass. -/
def Passes (run : ParallelRun) (op : DriveOp) : Prop :=
  (∃ refused now, op = .wake refused now) ∧
    (run.driver = .looping ∨ ∃ race, run.driver = .racing race ∧ race.won = some true)

theorem act_of_passes {refused : JsString → Bool} {now : JsString}
    (driver : run.driver = .looping ∨ ∃ race, run.driver = .racing race ∧ race.won = some true) :
    run.act config (.wake refused now) = run.pass config refused now := by
  rw [ParallelRun.act, ParallelRun.step, ParallelRun.wake]
  rcases driver with looping | ⟨race, racing, won⟩
  · rw [looping]
    rfl
  · rw [racing]
    dsimp only
    rw [won]
    rfl

/-- Something is in flight, or the order of the plan hides no blocked task. -/
def RevealsOrFlies (run : ParallelRun) : Prop :=
  run.inFlight ≠ [] ∨ OrderReveals run.plan.tasks run.headStatus

theorem Undisturbed.pass_deadlocked (undisturbed : Undisturbed config plan run)
    (acyclic : Acyclic plan.tasks) (known : KnownDependencies plan.tasks)
    (goesOn : run.outcome ≠ .deadlocked) (refused : JsString → Bool) (now : JsString) :
    (run.pass config refused now).outcome = .deadlocked ↔ ¬ RevealsOrFlies run := by
  obtain ⟨statuses, same, observed⟩ := undisturbed.steady.refresh
  rw [Parallel.pass_deadlocked goesOn observed, same, status_refresh, RevealsOrFlies, not_or,
    not_not, undisturbed.steady.kept, not_orderReveals_iff]
  refine and_congr_right fun _ => ?_
  refine Scheme.stuck_sweep_iff (Scheme.wellFounded_needs acyclic) known fun task planned => ?_
  have named : task.id ∈ run.plan.tasks.map Task.id := by
    rw [undisturbed.steady.kept]
    exact List.mem_map_of_mem planned
  have ordinary := undisturbed.steady.ordinary task planned
  have head : run.headStatus task.id = waitingStatus (run.status task.id) := if_pos named
  show (run.headStatus task.id == .pending) = true ∨
    ParallelRun.isBlocking (run.headStatus task.id) = true ∨
    (run.headStatus task.id == .completed || run.headStatus task.id == .skipped) = true
  rw [head]
  rcases ordinary with status | status | status | status | status
  · exact Or.inl (by rw [status]; rfl)
  · exact Or.inl (by rw [status]; rfl)
  · exact Or.inr (Or.inr (by rw [status]; rfl))
  · exact Or.inr (Or.inl (by rw [status]; rfl))
  · exact Or.inr (Or.inl (by rw [status]; rfl))

/-- Only a pass ends the run in a deadlock. -/
theorem Undisturbed.act_deadlocked (undisturbed : Undisturbed config plan run)
    (acyclic : Acyclic plan.tasks) (known : KnownDependencies plan.tasks)
    (goesOn : run.outcome ≠ .deadlocked) (op : DriveOp) (reveals : Passes run op → RevealsOrFlies run) :
    (run.act config op).outcome ≠ .deadlocked := by
  refine act_induction (P := fun after => after.outcome ≠ .deadlocked) (fun after steps => ?_) goesOn
  cases steps with
  | @pass refused now driver =>
      intro deadlocked
      exact (undisturbed.pass_deadlocked acyclic known goesOn refused now).mp deadlocked
        (reveals ⟨⟨refused, now, rfl⟩, driver⟩)
  | fails driver won => exact goesOn
  | settle member executing =>
      rw [settle_outcome]
      exact goesOn
  | drain member draining => exact (undisturbed.unasked.not_draining member draining).elim
  | abandon member draining => exact (undisturbed.unasked.not_draining member draining).elim
  | replan member replanning => exact (undisturbed.sound.not_replanning member replanning).elim
  | finish driver => exact goesOn
  | release driver => exact goesOn

/-! ## Why tasks are blocked -/

/-- A task that is executed ends as blocked. -/
def SettlesBlocked (run : ParallelRun) (op : DriveOp) (id : JsString) : Prop :=
  ∃ flight ∈ run.inFlight, flight.task.id = id ∧ flight.phase = .executing ∧
    ∃ outcome patch applies now,
      op = .settle flight.promise (.returned outcome patch applies) now ∧ outcome.status = .blocked

/-- A task is blocked because it blocked itself, or because of something that it depends on. -/
def Blames (own : JsString → Prop) (run : ParallelRun) : Prop :=
  ∀ task ∈ run.plan.tasks, run.status task.id = .blocked → own task.id ∨
    ∃ dep, Relation.TransGen (taskScheme.Needs run.plan.tasks) dep task.id ∧
      (run.status dep = .failed ∨ run.status dep = .blocked)

theorem Blames.mono {own more : JsString → Prop} (blames : Blames own run)
    (plan : after.plan = run.plan) (wider : ∀ id, own id → more id)
    (kept : ∀ dep, run.status dep = .failed ∨ run.status dep = .blocked →
      after.status dep = run.status dep)
    (new : ∀ task ∈ run.plan.tasks, after.status task.id = .blocked →
      run.status task.id = .blocked ∨ more task.id) : Blames more after := by
  intro task planned blocked
  rw [plan] at planned ⊢
  rcases new task planned blocked with before | itself
  · rcases blames task planned before with itself | ⟨dep, path, status⟩
    · exact Or.inl (wider task.id itself)
    · refine Or.inr ⟨dep, path, ?_⟩
      rwa [kept dep status]
  · exact Or.inl itself

theorem Blames.refresh {own : JsString → Prop} (blames : Blames own run) (steady : Steady plan run)
    (known : KnownDependencies plan.tasks) : Blames own run.refresh := by
  obtain ⟨statuses, same, -⟩ := steady.refresh
  intro task planned blocked
  rw [same] at planned ⊢
  have head : ∀ dep, run.status dep = .failed ∨ run.status dep = .blocked →
      run.headStatus dep = run.status dep := by
    intro dep status
    rw [ParallelRun.headStatus]
    split_ifs
    · rw [waitingStatus, if_neg]
      rcases status with status | status <;> rw [status] <;> exact TaskStatus.noConfusion
    · rfl
  have kept : ∀ dep, run.status dep = .failed ∨ run.status dep = .blocked →
      run.refresh.status dep = run.status dep := by
    intro dep status
    rw [status_refresh, Scheme.sweep_eq, if_neg, head dep status]
    intro cut
    have waits := cut.waits
    rw [head dep status] at waits
    rcases status with status | status <;> rw [status] at waits <;> cases waits
  by_cases cut : taskScheme.Cut run.headStatus run.plan.tasks task.id
  · obtain ⟨need, needs, blocks⟩ := cut.exists_need
    rw [steady.kept] at needs
    refine Or.inr ⟨need, .single needs, ?_⟩
    obtain ⟨item, inTasks, -, needed⟩ := needs
    obtain ⟨other, inPlan, rfl⟩ := known item inTasks need needed
    rw [← status_refresh] at blocks
    rcases (statuses other inPlan).1 with status | status | status | status | status
    · rw [status] at blocks
      cases blocks
    · rw [status] at blocks
      cases blocks
    · rw [status] at blocks
      cases blocks
    · exact Or.inl status
    · exact Or.inr status
  · have before : run.status task.id = .blocked := by
      rw [status_refresh, Scheme.sweep_eq, if_neg cut, ParallelRun.headStatus,
        if_pos (by rw [steady.kept]; exact List.mem_map_of_mem planned), waitingStatus] at blocked
      split_ifs at blocked
      exact blocked
    rcases blames task (by rwa [steady.kept]) before with itself | ⟨dep, path, status⟩
    · exact Or.inl itself
    · rw [steady.kept] at path
      refine Or.inr ⟨dep, path, ?_⟩
      rwa [kept dep status]

theorem Blames.pass {own : JsString → Prop} (blames : Blames own run) (steady : Steady plan run)
    (known : KnownDependencies plan.tasks) (refused : JsString → Bool) (now : JsString) :
    Blames own (run.pass config refused now) := by
  obtain ⟨-, -, observed⟩ := steady.refresh
  have launched : Blames own (ParallelRun.launchReady config refused now run.refresh.readyTasks
      run.refresh) := by
    refine launchReady_kept (P := Blames own) (fun other task pending holds => ?_)
      (blames.refresh steady known)
    have status : (other.launch task (refused task.id) now).status =
        Function.update other.status task.id .running := status_transition other task.id _ []
    refine holds.mono rfl (fun _ itself => itself) (fun dep finished => ?_) fun later _ blocked => ?_
    · rw [status, Function.update_of_ne]
      rintro rfl
      rcases finished with finished | finished <;> rw [pending] at finished <;> cases finished
    · rw [status, Function.update_apply] at blocked
      split_ifs at blocked
      exact Or.inl blocked
  rw [ParallelRun.pass, if_neg (by rw [observed]; exact Bool.false_ne_true), ParallelRun.endPass]
  by_cases empty : (ParallelRun.launchReady config refused now run.refresh.readyTasks
      run.refresh).inFlight = []
  · rw [if_pos empty]
    exact launched
  · rw [if_neg empty]
    exact launched

theorem Undisturbed.blames_step (undisturbed : Undisturbed config plan run)
    (known : KnownDependencies plan.tasks) {own : JsString → Prop} (blames : Blames own run)
    {op : DriveOp} (quiet : op.Quiet) (steps : Steps config run op after) :
    Blames (fun id => own id ∨ SettlesBlocked run op id) after := by
  have unchanged : ∀ after : ParallelRun, after.plan = run.plan → after.status = run.status →
      Blames (fun id => own id ∨ SettlesBlocked run op id) after := by
    intro after plan status
    exact blames.mono plan (fun _ => Or.inl) (fun dep _ => by rw [status])
      fun _ _ blocked => Or.inl (by rwa [status] at blocked)
  cases steps with
  | pass driver =>
      refine (blames.pass undisturbed.steady known _ _).mono rfl (fun _ => Or.inl) (fun _ _ => rfl)
        fun _ _ blocked => Or.inl blocked
  | fails driver won => exact unchanged _ rfl rfl
  | @settle flight settlement now member executing =>
      cases settlement with
      | threw => exact unchanged _ rfl rfl
      | returned outcome patch applies =>
          obtain ⟨next, concludes, -⟩ :=
            settle_spec undisturbed.sound member executing outcome patch applies now
          have fits := undisturbed.sound.fits flight member
          rw [executing] at fits
          have status : ∀ id, id ≠ flight.task.id →
              (run.settle config flight (.returned outcome patch applies) now).status id =
                run.status id := by
            intro id different
            rw [ParallelRun.status, concludes.states, if_neg different]
            rfl
          refine blames.mono concludes.plan (fun _ => Or.inl) (fun dep finished => ?_)
            fun task _ blocked => ?_
          · refine status dep ?_
            rintro rfl
            rcases finished with finished | finished <;>
              rcases fits.1 with running | pending <;> simp_all [ParallelRun.status]
          · by_cases same : task.id = flight.task.id
            · rw [same] at blocked ⊢
              exact Or.inr (Or.inr ⟨flight, member, rfl, executing, outcome, patch, applies, now, rfl,
                settle_blocked blocked⟩)
            · exact Or.inl (by rwa [status task.id same] at blocked)
  | drain member draining => exact (undisturbed.unasked.not_draining member draining).elim
  | abandon member draining => exact (undisturbed.unasked.not_draining member draining).elim
  | replan member replanning => exact (undisturbed.sound.not_replanning member replanning).elim
  | finish driver => exact unchanged _ rfl rfl
  | release driver => exact unchanged _ rfl rfl

theorem Undisturbed.blames_act (undisturbed : Undisturbed config plan run)
    (known : KnownDependencies plan.tasks) {own : JsString → Prop} (blames : Blames own run)
    {op : DriveOp} (quiet : op.Quiet) :
    Blames (fun id => own id ∨ SettlesBlocked run op id) (run.act config op) :=
  act_induction (P := Blames fun id => own id ∨ SettlesBlocked run op id)
    (fun _ steps => undisturbed.blames_step known blames quiet steps)
    (blames.mono rfl (fun _ => Or.inl) (fun _ _ => rfl) fun _ _ blocked => Or.inl blocked)

end Head

/-! ## The calls -/

/-- A call of `driveRunParallel` for an acyclic plan: every task is pending, and nobody cancels the
run or asks for a replan. -/
structure DriveCall where
  config : DriveConfig
  start : DriveStart
  ops : List DriveOp
  acyclic : Acyclic start.plan.tasks
  known : KnownDependencies start.plan.tasks
  pending : ∀ task ∈ start.plan.tasks, start.run.status task.id = .pending
  quiet : ∀ op ∈ ops, op.Quiet

namespace DriveCall

/-- The run after the first steps. -/
def run (call : DriveCall) (before : List DriveOp) : ParallelRun :=
  History.run (ParallelRun.act call.config) before call.start.run

/-- The task was executed in one of the first steps, and ended as blocked. -/
def BlockedItself (call : DriveCall) (before : List DriveOp) (id : JsString) : Prop :=
  ∃ earlier op later, before = earlier ++ op :: later ∧ SettlesBlocked (call.run earlier) op id

/-- The call never ends in a deadlock, and in `done` only when every task is completed, failed, or
blocked for a cause. -/
def Completes (call : DriveCall) : Prop :=
  ∀ before, before <+: call.ops → (call.run before).outcome ≠ .deadlocked ∧
    ((call.run before).driver = .finishing → (call.run before).outcome = .done →
      ∀ task ∈ call.start.plan.tasks,
        ((call.run before).status task.id = .completed ∨ (call.run before).status task.id = .failed ∨
          (call.run before).status task.id = .blocked) ∧
        ((call.run before).status task.id = .blocked → call.BlockedItself before task.id ∨
          ∃ dep, Relation.TransGen (taskScheme.Needs call.start.plan.tasks) dep task.id ∧
            ((call.run before).status dep = .failed ∨ (call.run before).status dep = .blocked)))

theorem undisturbed_start (call : DriveCall) :
    Undisturbed call.config call.start.plan call.start.run where
  sound := ParallelRun.sound_start call.config call.start
  unasked := unasked_start call.start
  steady := ⟨rfl, fun task planned => Or.inl (call.pending task planned), rfl,
    fun finishing => by cases finishing⟩

theorem undisturbed_run (call : DriveCall) {before : List DriveOp} (part : before <+: call.ops) :
    Undisturbed call.config call.start.plan (call.run before) := by
  have quiet : EveryStep (ParallelRun.act call.config) (fun _ op => op.Quiet) before
      call.start.run :=
    everyStep_of_forall (fun op member => call.quiet op (part.subset member)) _
  exact quiet.invariant call.undisturbed_start fun _ _ quiet undisturbed => undisturbed.act quiet

theorem blames_run (call : DriveCall) {before : List DriveOp} (part : before <+: call.ops) :
    Blames (call.BlockedItself before) (call.run before) := by
  induction before using List.reverseRecOn with
  | nil =>
      intro task planned blocked
      have pending := call.pending task planned
      rw [show call.start.run.status task.id = _ from blocked] at pending
      cases pending
  | append_singleton before op inductionHypothesis =>
      have earlier : before <+: call.ops := (List.prefix_append before [op]).trans part
      have acted : call.run (before ++ [op]) = (call.run before).act call.config op :=
        History.run_append before [op] call.start.run
      rw [acted]
      refine ((call.undisturbed_run earlier).blames_act call.known (inductionHypothesis earlier)
        (call.quiet op (part.subset (by simp)))).mono rfl ?_ (fun _ _ => rfl)
        fun _ _ blocked => Or.inl blocked
      rintro id (⟨first, op', later, rfl, settles⟩ | settles)
      · exact ⟨first, op', later ++ [op], by simp, settles⟩
      · exact ⟨before, op, [], rfl, settles⟩

/-- A call completes when, before each of its passes, something is in flight or the order of the
plan hides no blocked task. -/
theorem completes_iff (call : DriveCall) :
    call.Completes ↔ EveryStep (ParallelRun.act call.config)
      (fun run op => Passes run op → RevealsOrFlies run) call.ops call.start.run := by
  constructor
  · intro completes
    by_contra fails
    obtain ⟨before, op, after, shape, -, failure⟩ := exists_first_failure fails
    obtain ⟨⟨⟨refused, now, rfl⟩, driver⟩, hides⟩ := Classical.not_imp.mp failure
    have earlier : before <+: call.ops := ⟨_, shape.symm⟩
    have next : before ++ [.wake refused now] <+: call.ops := ⟨after, by rw [shape]; simp⟩
    refine (completes _ next).1 ?_
    have acted : call.run (before ++ [.wake refused now]) =
        (call.run before).pass call.config refused now :=
      (History.run_append before _ call.start.run).trans (act_of_passes driver)
    rw [acted]
    exact ((call.undisturbed_run earlier).pass_deadlocked call.acyclic call.known
      (completes before earlier).1 refused now).mpr hides
  · intro reveals before part
    have undisturbed := call.undisturbed_run part
    refine ⟨?_, fun finishing done task planned => ⟨?_, fun blocked => ?_⟩⟩
    · induction before using List.reverseRecOn with
      | nil => exact SchedulerOutcome.noConfusion
      | append_singleton before op inductionHypothesis =>
          have earlier : before <+: call.ops := (List.prefix_append before [op]).trans part
          have acted : call.run (before ++ [op]) = (call.run before).act call.config op :=
            History.run_append before [op] call.start.run
          have here := ((everyStep_append before [op] call.start.run).mp (reveals.of_prefix part)).2.1
          rw [acted]
          exact (call.undisturbed_run earlier).act_deadlocked call.acyclic call.known
            (inductionHypothesis earlier (call.undisturbed_run earlier)) op here
    · obtain ⟨notPending, notRunning⟩ := (undisturbed.steady.ended finishing).2 done task planned
      exact ((undisturbed.steady.ordinary task planned).resolve_left notPending).resolve_left
        notRunning
    · have blames := call.blames_run part task (by rwa [undisturbed.steady.kept]) blocked
      rwa [undisturbed.steady.kept] at blames

end DriveCall

/-- Whether tasks are left over depends on their order in the plan: in both drivers, exactly when a
pass finds nothing to do and a blocked task that stands before what blocks it. -/
theorem schedulers_complete_iff (call : Sequential.SchedulerCall) (drive : DriveCall) :
    (call.Completes ↔ ∀ rounds, (call.run rounds).conclusion = none →
      OrderReveals call.tasks (call.run rounds).status) ∧
    (drive.Completes ↔ EveryStep (ParallelRun.act drive.config)
      (fun run op => Passes run op → RevealsOrFlies run) drive.ops drive.start.run) :=
  ⟨call.completes_iff, drive.completes_iff⟩

/-! ## A plan in the wrong order -/

/-- A task that depends on the given ones. -/
def dependent (id : JsString) (dependencies : List JsString) : Task :=
  ⟨id, id, .modify, id, some dependencies, none, none, none, none⟩

/-- The last task of the list has to be done first. -/
def backwards : List Task :=
  [dependent (js "T3") [js "T2"], dependent (js "T2") [js "T1"], dependent (js "T1") []]

/-- Whatever is executed fails. -/
def failing : Sequential.Answer :=
  ⟨false, js "now", some (⟨.failed, js "no", false, none⟩, none), .failed⟩

/-- How far a task is from one that depends on nothing. -/
def height (id : JsString) : Nat :=
  if id = js "T3" then 2 else if id = js "T2" then 1 else 0

theorem height_lt :
    ∀ task ∈ backwards, ∀ dep ∈ task.dependencies, height dep < height task.id := by
  decide

theorem backwards_acyclic : Acyclic backwards := by
  have climbs : ∀ dep id, Relation.TransGen (taskScheme.Needs backwards) dep id →
      height dep < height id := by
    intro dep id path
    induction path with
    | single needs =>
        obtain ⟨task, planned, rfl, needed⟩ := needs
        exact height_lt task planned _ needed
    | tail path needs inductionHypothesis =>
        obtain ⟨task, planned, rfl, needed⟩ := needs
        exact inductionHypothesis.trans (height_lt task planned _ needed)
  exact fun id path => lt_irrefl _ (climbs id id path)

theorem backwards_known : KnownDependencies backwards := by
  rw [KnownDependencies]
  decide

theorem failing_quiet : failing.Quiet := by
  refine ⟨rfl, fun outcome revision executed => ?_⟩
  cases executed
  exact OutcomeStatus.noConfusion

def backwardsCall : Sequential.SchedulerCall where
  config := ⟨0, 0⟩
  tasks := backwards
  states := fun _ => none
  replans := 0
  answers := fun _ => failing
  acyclic := backwards_acyclic
  known := backwards_known
  pending := fun _ _ => rfl
  quiet := fun _ => failing_quiet

/-- The first task fails, the pass goes by the third one before it blocks the second one, and the
run is deadlocked. -/
theorem not_schedulers_complete : ¬ ∀ call : Sequential.SchedulerCall, call.Completes := by
  intro completes
  have deadlocked : (backwardsCall.run 2).conclusion = some (.returned .deadlocked) := by
    decide +kernel
  exact (completes backwardsCall 2).1 deadlocked

end SpecAsCode.Runtime.Parallel
