import SpecAsCode.Lib.Rounds
import SpecAsCode.Runtime.ParallelDriver

/-!
# The sequential scheduler

`runScheduler` executes one ready task at a time, in the order of the plan.  A round is one pass of
its loop, with what the executor and the replanner answer in it.
-/

namespace SpecAsCode.Runtime.Sequential

open SpecAsCode.Js
open SpecAsCode.Schema
open SpecAsCode.Runtime.Parallel

structure SchedulerConfig where
  maxTaskRetries : Nat
  maxReplans : Nat

inductive SchedulerOutcome where
  | done
  | deadlocked
  | replanFailed
  | runnableWorkRemains
  deriving DecidableEq, Repr

/-- How the call ends: it returns, or `execute` or `onNeedsReplan` throws. -/
inductive Conclusion where
  | returned (outcome : SchedulerOutcome)
  | threw
  deriving DecidableEq, Repr

inductive SchedulerEvent where
  | transition (taskId : JsString) (status : TaskStatus) (attempt : Nat)
  /-- `io.execute` was called, and returned a status or threw. -/
  | executed (taskId : JsString) (attempt : Nat) (status : Option OutcomeStatus)
  | amended
  deriving DecidableEq, Repr

/-- The states of tasks, as `getTaskState` gives them. -/
abbrev TaskStates := JsString → Option TaskState

/-- `stateOf`. -/
def stateIn (states : TaskStates) (id : JsString) : TaskState :=
  (states id).getD (pendingState id)

/-- An amended plan that was applied: the tasks that are completed stay so, and no attempts are
forgotten. -/
structure Amendment where
  plan : ValidPlan
  states : TaskStates → TaskStates
  completed : ∀ before id, (stateIn before id).status = .completed →
    (stateIn (states before) id).status = .completed
  attempts : ∀ before id, (stateIn (states before) id).attempt = (stateIn before id).attempt

/-- What comes of a request for a replan. -/
inductive ReplanAnswer where
  | threw
  | failed
  | amended (amendment : Amendment)

/-- What a round is told. -/
structure Answer where
  cancelled : Bool
  now : JsString
  /-- The outcome of `execute`, when it does not throw, with the revision it records. -/
  executed : Option (ExecutionOutcome × Option JsString)
  replanned : ReplanAnswer

structure SchedulerRun where
  tasks : List Task
  states : TaskStates
  failedTasks : List JsString
  replans : Nat
  log : List SchedulerEvent
  conclusion : Option Conclusion

namespace SchedulerRun

def stateOf (run : SchedulerRun) (id : JsString) : TaskState :=
  stateIn run.states id

/-- `states.get(id)?.status`: the loop looks at the tasks of the plan only. -/
def statusIn (run : SchedulerRun) (id : JsString) : Option TaskStatus :=
  if id ∈ run.tasks.map Task.id then some (run.stateOf id).status else none

def setState (run : SchedulerRun) (id : JsString) (state : TaskState) : SchedulerRun :=
  { run with states := Function.update run.states id (some state) }

def record (run : SchedulerRun) (event : SchedulerEvent) : SchedulerRun :=
  { run with log := run.log ++ [event] }

/-- `io.transition`. -/
def transition (run : SchedulerRun) (taskId : JsString) (next : TaskState) : SchedulerRun :=
  (run.setState taskId (ParallelRun.nextState (run.states taskId) next)).record
    (.transition taskId next.status next.attempt)

def stop (run : SchedulerRun) (conclusion : Conclusion) : SchedulerRun :=
  { run with conclusion := some conclusion }

/-! ## The head of the loop -/

/-- A task that an interrupted run left running is tried again. -/
def resetRunning (run : SchedulerRun) (task : Task) : SchedulerRun :=
  if run.statusIn task.id = some .running then
    run.transition task.id { run.stateOf task.id with status := .pending }
  else
    run

/-- A pending task with a dependency that can never complete is blocked. -/
def blockUnreachable (run : SchedulerRun) (task : Task) : SchedulerRun :=
  if run.statusIn task.id = some .pending ∧
      (task.dependencies.any fun dep => (run.statusIn dep).any ParallelRun.isBlocking) = true then
    run.transition task.id { run.stateOf task.id with status := .blocked }
  else
    run

def refresh (run : SchedulerRun) : SchedulerRun :=
  run.tasks.foldl blockUnreachable (run.tasks.foldl resetRunning run)

def pendingTasks (run : SchedulerRun) : List Task :=
  run.tasks.filter fun task => run.statusIn task.id = some .pending

def isFinished (run : SchedulerRun) (id : JsString) : Bool :=
  run.statusIn id = some .completed || run.statusIn id = some .skipped

def readyTasks (run : SchedulerRun) : List Task :=
  run.pendingTasks.filter fun task => task.dependencies.all run.isFinished

/-- What the loop does next. -/
inductive Decision where
  /-- It is left, for the conclusion guard. -/
  | conclude
  | stop (outcome : SchedulerOutcome)
  | execute (task : Task)
  deriving DecidableEq

def decide (run : SchedulerRun) (cancelled : Bool) : Decision :=
  if run.pendingTasks = [] then
    .conclude
  else
    match run.readyTasks with
    | [] => .stop .deadlocked
    | task :: _ => if cancelled then .stop .done else .execute task

/-- The conclusion guard: a task that waits for a replan is work that remains. -/
def concluded (run : SchedulerRun) : SchedulerRun :=
  run.stop (.returned
    (if run.tasks.any fun task => (run.states task.id).map TaskState.status = some .needsReplan then
      .runnableWorkRemains
    else
      .done))

/-! ## A task -/

/-- The task is marked running. -/
def start (run : SchedulerRun) (task : Task) (now : JsString) : SchedulerRun :=
  let prior := run.stateOf task.id
  run.transition task.id { pendingState task.id with
    status := .running
    attempt := prior.attempt + 1
    startedAt := some now
    failure := prior.failure }

/-- A commit of the task's work is recorded with its state. -/
def recordRevision (run : SchedulerRun) (task : Task) (revision : Option JsString) :
    SchedulerRun :=
  match revision with
  | none => run
  | some revision => run.setState task.id { run.stateOf task.id with revision := some revision }

/-- `onNeedsReplan`, and what follows.  An amendment is asked for while the budget lasts. -/
def replan (config : SchedulerConfig) (run : SchedulerRun) (answer : ReplanAnswer) : SchedulerRun :=
  if config.maxReplans ≤ run.replans then
    run.stop (.returned .replanFailed)
  else
    match answer with
    | .threw => run.stop .threw
    | .failed => run.stop (.returned .replanFailed)
    | .amended amendment =>
        { run with
          tasks := amendment.plan.tasks
          states := amendment.states run.states
          replans := run.replans + 1 }.record .amended

/-- The branches of the switch.  `prior` is the state before the task was marked running. -/
def settle (config : SchedulerConfig) (run : SchedulerRun) (task : Task) (prior : TaskState)
    (outcome : ExecutionOutcome) (answer : Answer) : SchedulerRun :=
  let base := { pendingState task.id with attempt := prior.attempt + 1 }
  match outcome.status with
  | .completed =>
      run.transition task.id { base with
        status := .completed
        startedAt := some answer.now
        completedAt := some answer.now
        emptyDeltaAfterPriorFailure :=
          if prior.failure.isSome && !outcome.applied then some true else none }
  | .failed =>
      let failure := outcome.failure.getD ⟨js "TASK_FAILED", outcome.summary⟩
      if prior.attempt + 1 - 1 < config.maxTaskRetries then
        run.transition task.id { base with failure := some failure }
      else
        { run.transition task.id { base with status := .failed, failure := some failure } with
          failedTasks := run.failedTasks ++ [task.id] }
  | .blocked =>
      run.transition task.id { base with
        status := .blocked
        failure := some (outcome.failure.getD ⟨js "TASK_BLOCKED", outcome.summary⟩) }
  | .needsReplan =>
      replan config
        (run.transition task.id { base with status := .needsReplan, failure := outcome.failure })
        answer.replanned

/-- The first ready task is executed. -/
def execute (config : SchedulerConfig) (run : SchedulerRun) (task : Task) (answer : Answer) :
    SchedulerRun :=
  let attempt := (run.stateOf task.id).attempt + 1
  let started := run.start task answer.now
  match answer.executed with
  | none => (started.record (.executed task.id attempt none)).stop .threw
  | some (outcome, revision) =>
      settle config
        ((started.record (.executed task.id attempt (some outcome.status))).recordRevision task
          revision)
        task (run.stateOf task.id) outcome answer

/-! ## Rounds -/

/-- One pass of the loop. -/
def pass (config : SchedulerConfig) (answer : Answer) (run : SchedulerRun) : SchedulerRun :=
  match run.refresh.decide answer.cancelled with
  | .conclude => run.refresh.concluded
  | .stop outcome => run.refresh.stop (.returned outcome)
  | .execute task => run.refresh.execute config task answer

/-- Nothing happens after the end. -/
def act (config : SchedulerConfig) (answer : Answer) (run : SchedulerRun) : SchedulerRun :=
  if run.conclusion.isSome then run else run.pass config answer

/-- The run after a number of rounds. -/
def after (config : SchedulerConfig) (answers : Nat → Answer) (run : SchedulerRun)
    (rounds : Nat) : SchedulerRun :=
  Rounds.after (act config) answers run rounds

end SchedulerRun

/-- The call of `runScheduler`. -/
def schedulerStart (tasks : List Task) (states : TaskStates) (replans : Nat) : SchedulerRun where
  tasks := tasks
  states := states
  failedTasks := []
  replans := replans
  log := []
  conclusion := none

end SpecAsCode.Runtime.Sequential
