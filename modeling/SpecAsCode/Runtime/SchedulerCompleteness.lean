import SpecAsCode.Lib.Unreachable
import SpecAsCode.Runtime.SchedulerRuns

/-!
# Completeness of the sequential scheduler

Whether a run ends with every task completed, failed or blocked.  The pass that blocks tasks goes
through the plan once, so a task that stands before what it depends on may be left over.
-/

namespace SpecAsCode.Runtime.Sequential

open SpecAsCode.Js
open SpecAsCode.Schema
open SpecAsCode.Unreachable
open SpecAsCode.Runtime.Parallel

/-! ## Tasks and their statuses -/

theorem isBlocking_apart (status : TaskStatus) (blocks : ParallelRun.isBlocking status = true) :
    (status == .pending) = false ∧ (status == .completed || status == .skipped) = false := by
  cases status with
  | failed => exact ⟨rfl, rfl⟩
  | blocked => exact ⟨rfl, rfl⟩
  | cancelled => exact ⟨rfl, rfl⟩
  | needsReplan => exact ⟨rfl, rfl⟩
  | pending => cases blocks
  | ready => cases blocks
  | running => cases blocks
  | completed => cases blocks
  | skipped => cases blocks

theorem finished_not_pending (status : TaskStatus)
    (finished : (status == .completed || status == .skipped) = true) :
    (status == .pending) = false := by
  rw [Bool.or_eq_true, beq_iff_eq, beq_iff_eq] at finished
  rcases finished with rfl | rfl <;> rfl

/-- Tasks wait for their dependencies. -/
def taskScheme : Scheme Task JsString TaskStatus where
  name := Task.id
  needs := Task.dependencies
  waits status := status == .pending
  blocks := ParallelRun.isBlocking
  finished status := status == .completed || status == .skipped
  mark := .blocked
  blocks_mark := rfl
  blocks_apart := isBlocking_apart
  finished_apart := finished_not_pending

/-- No task depends on itself, directly or through others. -/
def Acyclic (tasks : List Task) : Prop :=
  ∀ id, ¬ Relation.TransGen (taskScheme.Needs tasks) id id

/-- Every dependency is a task of the plan. -/
def KnownDependencies (tasks : List Task) : Prop :=
  ∀ task ∈ tasks, ∀ dep ∈ task.dependencies, ∃ other ∈ tasks, other.id = dep

/-- An interrupted task counts as pending. -/
def waitingStatus (status : TaskStatus) : TaskStatus :=
  if status = .running then .pending else status

theorem waitingStatus_waitingStatus (status : TaskStatus) :
    waitingStatus (waitingStatus status) = waitingStatus status := by
  rw [waitingStatus, waitingStatus]
  split_ifs with running again
  · rfl
  · rfl
  · rfl

/-- Before a pass: some task is ready that the pass does not block, or every pending task that
depends, through pending tasks, on one that blocks does so through tasks that stand before it. -/
def OrderReveals (tasks : List Task) (status : JsString → TaskStatus) : Prop :=
  (∃ task ∈ tasks, taskScheme.Ready status task ∧ ¬ taskScheme.Cut status tasks task.id) ∨
    ∀ id, taskScheme.Doomed status tasks id → taskScheme.Cut status tasks id

theorem not_orderReveals_iff {tasks : List Task} {status : JsString → TaskStatus} :
    ¬ OrderReveals tasks status ↔
      (∀ task ∈ tasks, taskScheme.Ready status task → taskScheme.Cut status tasks task.id) ∧
        ∃ id, taskScheme.Doomed status tasks id ∧ ¬ taskScheme.Cut status tasks id := by
  simp [OrderReveals]

/-- A round in which nobody cancels the run or asks for a replan. -/
def Answer.Quiet (answer : Answer) : Prop :=
  answer.cancelled = false ∧ ∀ outcome revision, answer.executed = some (outcome, revision) →
    outcome.status ≠ .needsReplan

namespace SchedulerRun

variable {config : SchedulerConfig} {run after : SchedulerRun} {tasks : List Task}

def status (run : SchedulerRun) (id : JsString) : TaskStatus :=
  (run.stateOf id).status

theorem status_transition (run : SchedulerRun) (id : JsString) (next : TaskState) :
    (run.transition id next).status = Function.update run.status id next.status := by
  funext other
  rw [status, transition_status, Function.update_apply]
  rfl

theorem statusIn_of_mem {task : Task} (planned : task ∈ run.tasks) :
    run.statusIn task.id = some (run.status task.id) :=
  if_pos (List.mem_map_of_mem planned)

theorem statusIn_of_known {dep : JsString} (known : ∃ other ∈ run.tasks, other.id = dep) :
    run.statusIn dep = some (run.status dep) := by
  obtain ⟨other, planned, rfl⟩ := known
  exact statusIn_of_mem planned

/-! ## The head of the loop -/

@[simp]
theorem resetRunning_tasks (run : SchedulerRun) (task : Task) :
    (run.resetRunning task).tasks = run.tasks := by
  rw [resetRunning]
  split_ifs <;> rfl

@[simp]
theorem blockUnreachable_tasks (run : SchedulerRun) (task : Task) :
    (run.blockUnreachable task).tasks = run.tasks := by
  rw [blockUnreachable]
  split_ifs <;> rfl

theorem status_resetRunning {task : Task} (planned : task ∈ run.tasks) :
    (run.resetRunning task).status =
      Function.update run.status task.id (waitingStatus (run.status task.id)) := by
  have looks : run.statusIn task.id = some .running ↔ run.status task.id = .running := by
    rw [statusIn_of_mem planned, Option.some_inj]
  rw [resetRunning, waitingStatus]
  by_cases running : run.status task.id = .running
  · rw [if_pos (looks.mpr running), if_pos running]
    exact status_transition run task.id _
  · rw [if_neg fun same => running (looks.mp same), if_neg running, Function.update_eq_self]

theorem status_blockUnreachable {task : Task} (planned : task ∈ run.tasks)
    (known : ∀ dep ∈ task.dependencies, ∃ other ∈ run.tasks, other.id = dep) :
    (run.blockUnreachable task).status = taskScheme.visit run.status task := by
  have looks : (run.statusIn task.id = some .pending ∧ (task.dependencies.any fun dep =>
      (run.statusIn dep).any ParallelRun.isBlocking) = true) ↔
      (taskScheme.waits (run.status task.id) = true ∧
        (task.dependencies.any fun dep => taskScheme.blocks (run.status dep)) = true) := by
    rw [statusIn_of_mem planned, Option.some_inj]
    refine and_congr beq_iff_eq.symm ?_
    rw [List.any_eq_true, List.any_eq_true]
    refine exists_congr fun dep => and_congr_right fun needed => ?_
    rw [statusIn_of_known (known dep needed), Option.any_some]
    rfl
  rw [blockUnreachable]
  by_cases marks : taskScheme.waits (run.status task.id) = true ∧
      (task.dependencies.any fun dep => taskScheme.blocks (run.status dep)) = true
  · rw [if_pos (looks.mpr marks), Scheme.visit]
    exact (status_transition run task.id _).trans (if_pos marks).symm
  · rw [if_neg fun same => marks (looks.mp same), Scheme.visit]
    exact (if_neg marks).symm

theorem tasks_foldl {act : SchedulerRun → Task → SchedulerRun}
    (kept : ∀ run task, (act run task).tasks = run.tasks) (list : List Task) (run : SchedulerRun) :
    (list.foldl act run).tasks = run.tasks := by
  induction list generalizing run with
  | nil => rfl
  | cons task list inductionHypothesis => rw [List.foldl_cons, inductionHypothesis, kept]

theorem status_resetAll {list : List Task} (planned : ∀ task ∈ list, task ∈ run.tasks)
    (id : JsString) :
    (list.foldl resetRunning run).status id =
      if id ∈ list.map Task.id then waitingStatus (run.status id) else run.status id := by
  induction list generalizing run with
  | nil => rfl
  | cons task list inductionHypothesis =>
      rw [List.forall_mem_cons] at planned
      rw [List.foldl_cons, inductionHypothesis (by simpa using planned.2),
        status_resetRunning planned.1, List.map_cons]
      by_cases here : id = task.id
      · subst here
        rw [Function.update_self, if_pos List.mem_cons_self, waitingStatus_waitingStatus, ite_self]
      · rw [Function.update_of_ne here]
        simp [here]

theorem status_blockAll {list : List Task} (planned : ∀ task ∈ list, task ∈ run.tasks)
    (known : KnownDependencies run.tasks) :
    (list.foldl blockUnreachable run).status = taskScheme.sweep list run.status := by
  induction list generalizing run with
  | nil => rfl
  | cons task list inductionHypothesis =>
      rw [List.forall_mem_cons] at planned
      rw [List.foldl_cons, inductionHypothesis (by simpa using planned.2) (by simpa using known),
        status_blockUnreachable planned.1 (known task planned.1)]
      rfl

/-! ## Stuck runs -/

/-- A pass ends in a deadlock when the tasks it leaves are stuck. -/
theorem decide_deadlocked (known : KnownDependencies run.tasks) (cancelled : Bool) :
    run.decide cancelled = .stop .deadlocked ↔ taskScheme.Stuck run.status run.tasks := by
  have pending : ∀ task, task ∈ run.pendingTasks ↔
      task ∈ run.tasks ∧ taskScheme.waits (run.status task.id) = true := by
    intro task
    rw [pendingTasks, List.mem_filter, decide_eq_true_iff]
    refine and_congr_right fun planned => ?_
    rw [statusIn_of_mem planned, Option.some_inj]
    exact beq_iff_eq.symm
  have ready : ∀ task, task ∈ run.readyTasks ↔
      task ∈ run.tasks ∧ taskScheme.Ready run.status task := by
    intro task
    rw [readyTasks, List.mem_filter, pending, and_assoc, List.all_eq_true]
    refine and_congr_right fun planned => and_congr_right fun _ => ?_
    refine forall₂_congr fun dep needed => ?_
    rw [isFinished, statusIn_of_known (known task planned dep needed)]
    simp [taskScheme]
  rw [decide, Scheme.Stuck]
  by_cases none : run.pendingTasks = []
  · rw [if_pos none]
    refine iff_of_false Decision.noConfusion ?_
    rintro ⟨⟨task, planned, waits⟩, -⟩
    have member := (pending task).mpr ⟨planned, waits⟩
    rw [none] at member
    cases member
  · rw [if_neg none]
    obtain ⟨waiting, inPending⟩ := List.exists_mem_of_ne_nil _ none
    cases found : run.readyTasks with
    | nil =>
        refine iff_of_true rfl ⟨⟨waiting, (pending waiting).mp inPending⟩, fun task planned isReady => ?_⟩
        have member := (ready task).mpr ⟨planned, isReady⟩
        rw [found] at member
        cases member
    | cons task rest =>
        have first : task ∈ run.readyTasks := by
          rw [found]
          exact List.mem_cons_self
        refine iff_of_false ?_ fun stuck => stuck.2 task ((ready task).mp first).1
          ((ready task).mp first).2
        dsimp only
        split_ifs <;> simp

/-- The task is blocked for a reason: it blocked itself, or something it depends on has failed or
is blocked. -/
def BlockedForCause (run : SchedulerRun) (id : JsString) : Prop :=
  (∃ attempt, .executed id attempt (some .blocked) ∈ run.log) ∨
    ∃ dep, Relation.TransGen (taskScheme.Needs run.tasks) dep id ∧
      (run.status dep = .failed ∨ run.status dep = .blocked)

/-- The statuses of a run in which no task asks for a replan. -/
structure Settling (tasks : List Task) (run : SchedulerRun) : Prop where
  plan : run.tasks = tasks
  statuses : ∀ task ∈ tasks, run.status task.id = .pending ∨ run.status task.id = .completed ∨
    run.status task.id = .failed ∨ run.status task.id = .blocked
  causes : ∀ task ∈ tasks, run.status task.id = .blocked → run.BlockedForCause task.id

theorem Settling.status_refresh (settling : Settling tasks run) (known : KnownDependencies tasks) :
    run.refresh.status = taskScheme.sweep tasks run.status := by
  have unchanged : (run.tasks.foldl resetRunning run).status = run.status := by
    funext id
    rw [status_resetAll fun _ planned => planned]
    split_ifs with named
    · obtain ⟨task, planned, rfl⟩ := List.mem_map.mp named
      rw [settling.plan] at planned
      rw [waitingStatus, if_neg]
      rcases settling.statuses task planned with status | status | status | status <;>
        rw [status] <;> exact TaskStatus.noConfusion
    · rfl
  have kept : (run.tasks.foldl resetRunning run).tasks = tasks :=
    (tasks_foldl resetRunning_tasks run.tasks run).trans settling.plan
  rw [refresh, status_blockAll (by rw [kept, settling.plan]; exact fun _ planned => planned)
    (by rw [kept]; exact known), unchanged, settling.plan]

/-! ## What rounds keep -/

/-- A cause stays one. -/
theorem BlockedForCause.mono {id : JsString} (cause : run.BlockedForCause id)
    (tasks : after.tasks = run.tasks) (log : run.log <+: after.log)
    (kept : ∀ dep, run.status dep = .failed ∨ run.status dep = .blocked →
      after.status dep = run.status dep) : after.BlockedForCause id := by
  obtain ⟨attempt, executed⟩ | ⟨dep, path, status⟩ := cause
  · exact Or.inl ⟨attempt, log.subset executed⟩
  · refine Or.inr ⟨dep, by rwa [tasks], ?_⟩
    rwa [kept dep status]

theorem log_refresh (run : SchedulerRun) : run.log <+: run.refresh.log :=
  refresh_induction (P := fun other => run.log <+: other.log) List.prefix_rfl
    fun _ _ _ _ _ grown => grown.trans (List.prefix_append _ _)

theorem Settling.refresh (settling : Settling tasks run) (known : KnownDependencies tasks) :
    Settling tasks run.refresh := by
  have plan : run.refresh.tasks = run.tasks := (refreshed run).tasks
  have head := settling.status_refresh known
  have kept : ∀ dep, run.status dep = .failed ∨ run.status dep = .blocked →
      run.refresh.status dep = run.status dep := by
    intro dep status
    rw [head, Scheme.sweep_eq, if_neg]
    intro cut
    have waits := cut.waits
    rcases status with status | status <;> rw [status] at waits <;> cases waits
  have statuses : ∀ task ∈ tasks, run.refresh.status task.id = .pending ∨
      run.refresh.status task.id = .completed ∨ run.refresh.status task.id = .failed ∨
      run.refresh.status task.id = .blocked := by
    intro task planned
    rw [head, Scheme.sweep_eq]
    split_ifs with cut
    · exact Or.inr (Or.inr (Or.inr rfl))
    · exact settling.statuses task planned
  refine ⟨plan.trans settling.plan, statuses, fun task planned blocked => ?_⟩
  · by_cases cut : taskScheme.Cut run.status tasks task.id
    · -- what the task needs blocks already, or is blocked by the same pass
      obtain ⟨need, needs, blocks⟩ := cut.exists_need
      refine Or.inr ⟨need, .single ?_, ?_⟩
      · rwa [plan, settling.plan]
      · obtain ⟨item, inTasks, -, needed⟩ := needs
        obtain ⟨other, planned, rfl⟩ := known item inTasks need needed
        rw [← head] at blocks
        rcases statuses other planned with status | status | status | status
        · rw [status] at blocks
          cases blocks
        · rw [status] at blocks
          cases blocks
        · exact Or.inl status
        · exact Or.inr status
    · rw [head, Scheme.sweep_eq, if_neg cut] at blocked
      exact (settling.causes task planned blocked).mono plan (log_refresh run) kept

theorem Settling.moves {base : SchedulerRun} (settling : Settling tasks base) {task : Task}
    {result : OutcomeStatus} {status : TaskStatus} (moves : Moves config base after task result status)
    (pending : base.status task.id = .pending)
    (closes : status = .completed ∨ status = .failed ∨ status = .blocked ∨
      (status = .pending ∧ (base.stateOf task.id).attempt < config.maxTaskRetries))
    (blocked : status = .blocked → result = .blocked) : Settling tasks after := by
  have other_status : ∀ other, other ≠ task.id → after.status other = base.status other :=
    fun other different => congrArg TaskState.status (moves.others other different)
  have log : base.log <+: after.log := by
    rw [moves.log]
    exact ⟨_, (List.append_assoc _ _ _).symm.trans (List.append_assoc _ _ _).symm⟩
  refine ⟨moves.tasks.trans settling.plan, fun other planned => ?_, fun other planned isBlocked => ?_⟩
  · by_cases same : other.id = task.id
    · rw [same, SchedulerRun.status, moves.status]
      rcases closes with closed | closed | closed | ⟨closed, -⟩
      · exact Or.inr (Or.inl closed)
      · exact Or.inr (Or.inr (Or.inl closed))
      · exact Or.inr (Or.inr (Or.inr closed))
      · exact Or.inl closed
    · rw [other_status other.id same]
      exact settling.statuses other planned
  · by_cases same : other.id = task.id
    · rw [same, SchedulerRun.status, moves.status] at isBlocked
      refine Or.inl ⟨(base.stateOf task.id).attempt + 1, ?_⟩
      rw [moves.log, blocked isBlocked, same]
      exact List.mem_append_left _ (List.mem_append_right _ List.mem_cons_self)
    · rw [other_status other.id same] at isBlocked
      refine (settling.causes other planned isBlocked).mono moves.tasks log fun dep status => ?_
      refine other_status dep fun here => ?_
      rw [here, pending] at status
      rcases status with status | status <;> cases status

/-- What is known of a run at any time. -/
structure Complete (tasks : List Task) (run : SchedulerRun) : Prop where
  settling : run.conclusion ≠ some .threw → Settling tasks run
  finished : run.conclusion = some (.returned .done) → ∀ task ∈ tasks, run.status task.id ≠ .pending

theorem decide_conclude {cancelled : Bool} (decided : run.decide cancelled = .conclude) :
    run.pendingTasks = [] := by
  rw [decide] at decided
  by_contra some
  rw [if_neg some] at decided
  cases found : run.readyTasks with
  | nil =>
      rw [found] at decided
      cases decided
  | cons first rest =>
      rw [found] at decided
      dsimp only at decided
      split_ifs at decided

theorem decide_ne_done (run : SchedulerRun) : run.decide false ≠ .stop .done := by
  intro decided
  rw [decide] at decided
  by_cases none : run.pendingTasks = []
  · rw [if_pos none] at decided
    cases decided
  · rw [if_neg none] at decided
    cases found : run.readyTasks with
    | nil =>
        rw [found] at decided
        cases decided
    | cons first rest =>
        rw [found] at decided
        cases decided

theorem Complete.act (complete : Complete tasks run) (known : KnownDependencies tasks)
    {answer : Answer} (quiet : answer.Quiet) : Complete tasks (run.act config answer) := by
  rw [SchedulerRun.act]
  split_ifs with finished
  · exact complete
  · have goesOn : run.conclusion = none := Option.not_isSome_iff_eq_none.mp finished
    have head := (complete.settling (by rw [goesOn]; exact (Option.some_ne_none _).symm)).refresh known
    rw [pass]
    cases decided : run.refresh.decide answer.cancelled with
    | conclude =>
        refine ⟨fun _ => ⟨head.plan, head.statuses, head.causes⟩, fun _ task planned pending => ?_⟩
        have none := decide_conclude decided
        have member : task ∈ run.refresh.pendingTasks := by
          rw [pendingTasks, List.mem_filter, decide_eq_true_iff]
          refine ⟨head.plan.symm ▸ planned, ?_⟩
          rw [statusIn_of_mem (head.plan.symm ▸ planned)]
          exact congrArg some pending
        rw [none] at member
        cases member
    | stop outcome =>
        refine ⟨fun _ => ⟨head.plan, head.statuses, head.causes⟩, fun done => ?_⟩
        cases Conclusion.returned.inj (Option.some.inj done)
        rw [quiet.1] at decided
        exact absurd decided (decide_ne_done run.refresh)
    | execute task =>
        obtain ⟨-, pending, -⟩ := decide_execute decided
        have conclusion : run.refresh.conclusion = none := (refreshed run).conclusion.trans goesOn
        have executes := executes config run.refresh task answer
        dsimp only
        generalize run.refresh.execute config task answer = after at executes ⊢
        cases executes with
        | threw => exact ⟨fun alive => absurd rfl alive, fun done => by cases done⟩
        | moves moves closes failed blocked =>
            refine ⟨fun _ => head.moves moves pending closes blocked, fun done => ?_⟩
            rw [moves.conclusion, conclusion] at done
            cases done
        | replans returned asks moves => exact absurd asks (quiet.2 _ _ returned)

/-- A run is deadlocked by the round in which the order of the plan hides a blocked task. -/
theorem deadlocked_act (complete : Complete tasks run) (acyclic : Acyclic tasks)
    (known : KnownDependencies tasks) {answer : Answer} (quiet : answer.Quiet)
    (goesOn : run.conclusion = none) :
    (run.act config answer).conclusion = some (.returned .deadlocked) ↔
      ¬ OrderReveals tasks run.status := by
  have settling := complete.settling (by rw [goesOn]; exact (Option.some_ne_none _).symm)
  have head := settling.refresh known
  have stuck : run.refresh.decide answer.cancelled = .stop .deadlocked ↔
      ¬ OrderReveals tasks run.status := by
    rw [decide_deadlocked (by rw [head.plan]; exact known), head.plan,
      settling.status_refresh known, not_orderReveals_iff]
    refine Scheme.stuck_sweep_iff (Scheme.wellFounded_needs acyclic) known fun task planned => ?_
    show (run.status task.id == .pending) = true ∨ ParallelRun.isBlocking (run.status task.id) = true ∨
      (run.status task.id == .completed || run.status task.id == .skipped) = true
    rcases settling.statuses task planned with status | status | status | status
    · exact Or.inl (by rw [status]; rfl)
    · exact Or.inr (Or.inr (by rw [status]; rfl))
    · exact Or.inr (Or.inl (by rw [status]; rfl))
    · exact Or.inr (Or.inl (by rw [status]; rfl))
  rw [← stuck, act, if_neg (by rw [goesOn]; exact Bool.false_ne_true), pass]
  cases decided : run.refresh.decide answer.cancelled with
  | conclude =>
      refine iff_of_false (fun deadlocked => ?_) Decision.noConfusion
      have same := Conclusion.returned.inj (Option.some.inj deadlocked)
      split_ifs at same
  | stop outcome =>
      show some (Conclusion.returned outcome) = some (.returned .deadlocked) ↔ _
      rw [Option.some_inj, Conclusion.returned.injEq, Decision.stop.injEq]
  | execute task =>
      refine iff_of_false (fun deadlocked => ?_) Decision.noConfusion
      have conclusion : run.refresh.conclusion = none := (refreshed run).conclusion.trans goesOn
      have executes := executes config run.refresh task answer
      dsimp only at deadlocked
      generalize run.refresh.execute config task answer = after at executes deadlocked
      cases executes with
      | threw => cases deadlocked
      | moves moves =>
          rw [moves.conclusion, conclusion] at deadlocked
          cases deadlocked
      | replans returned asks => exact absurd asks (quiet.2 _ _ returned)

end SchedulerRun

/-- A call of `runScheduler` for an acyclic plan: every task is pending, and nobody cancels the run
or asks for a replan. -/
structure SchedulerCall where
  config : SchedulerConfig
  tasks : List Task
  states : TaskStates
  replans : Nat
  answers : Nat → Answer
  acyclic : Acyclic tasks
  known : KnownDependencies tasks
  pending : ∀ task ∈ tasks, (stateIn states task.id).status = .pending
  quiet : ∀ round, (answers round).Quiet

namespace SchedulerCall

/-- The run after a number of rounds. -/
def run (call : SchedulerCall) (rounds : Nat) : SchedulerRun :=
  (schedulerStart call.tasks call.states call.replans).after call.config call.answers rounds

/-- The call never returns `deadlocked`, and `done` only when every task is completed, failed, or
blocked for a cause. -/
def Completes (call : SchedulerCall) : Prop :=
  ∀ rounds, (call.run rounds).conclusion ≠ some (.returned .deadlocked) ∧
    ((call.run rounds).conclusion = some (.returned .done) → ∀ task ∈ call.tasks,
      ((call.run rounds).status task.id = .completed ∨ (call.run rounds).status task.id = .failed ∨
        (call.run rounds).status task.id = .blocked) ∧
      ((call.run rounds).status task.id = .blocked → (call.run rounds).BlockedForCause task.id))

theorem complete (call : SchedulerCall) (rounds : Nat) :
    SchedulerRun.Complete call.tasks (call.run rounds) := by
  have initial : SchedulerRun.Complete call.tasks
      (schedulerStart call.tasks call.states call.replans) := by
    refine ⟨fun _ => ⟨rfl, fun task planned => Or.inl (call.pending task planned),
      fun task planned blocked => ?_⟩, fun done => by cases done⟩
    have pending := call.pending task planned
    rw [show (stateIn call.states task.id).status = _ from blocked] at pending
    cases pending
  exact Rounds.after_invariant initial
    (fun round run complete => complete.act call.known (call.quiet round)) rounds

/-- A call completes when, before each of its passes, the order of the plan hides no blocked
task. -/
theorem completes_iff (call : SchedulerCall) :
    call.Completes ↔ ∀ rounds, (call.run rounds).conclusion = none →
      OrderReveals call.tasks (call.run rounds).status := by
  constructor
  · intro completes rounds goesOn
    by_contra hides
    refine (completes (rounds + 1)).1 ?_
    exact (SchedulerRun.deadlocked_act (call.complete rounds) call.acyclic call.known
      (call.quiet rounds) goesOn).mpr hides
  · intro reveals rounds
    refine ⟨?_, fun done task planned => ?_⟩
    · induction rounds with
      | zero => exact fun deadlocked => by cases deadlocked
      | succ rounds inductionHypothesis =>
          intro deadlocked
          cases goesOn : (call.run rounds).conclusion with
          | none =>
              exact (SchedulerRun.deadlocked_act (call.complete rounds) call.acyclic call.known
                (call.quiet rounds) goesOn).mp deadlocked (reveals rounds goesOn)
          | some conclusion =>
              have finished : (call.run rounds).conclusion.isSome = true := by
                rw [goesOn]
                rfl
              have same : call.run (rounds + 1) = call.run rounds := if_pos finished
              rw [same] at deadlocked
              exact inductionHypothesis deadlocked
    · have complete := call.complete rounds
      have settling := complete.settling (by rw [done]; nofun)
      refine ⟨?_, settling.causes task planned⟩
      exact (settling.statuses task planned).resolve_left (complete.finished done task planned)

end SchedulerCall

end SpecAsCode.Runtime.Sequential
