import Mathlib.Logic.Function.Basic
import SpecAsCode.Core.ValidatePlan
import SpecAsCode.Lib.History
import SpecAsCode.Lib.Races
import SpecAsCode.Schema.State

/-!
# The parallel driver

`driveRunParallel` launches the ready tasks of a plan, each in a worktree of its own, and waits
until one of them settles.  What it and the tasks do between two awaits is one step.
-/

namespace SpecAsCode.Runtime.Parallel

open SpecAsCode.Js
open SpecAsCode.Core
open SpecAsCode.Schema
open SpecAsCode.Races

/-- A plan that `validatePlan` reports without errors: plans are validated before a run, and
amended ones before they are applied. -/
structure ValidPlan where
  plan : Plan
  ir : SpecIR
  isDirectory : Option (JsString → Bool)
  accepted : planAccepted plan ir isDirectory = true

def ValidPlan.tasks (valid : ValidPlan) : List Task :=
  valid.plan.tasks

structure DriveConfig where
  parallelism : Nat
  maxTaskRetries : Nat

def DriveConfig.maxParallel (config : DriveConfig) : Nat :=
  max 1 config.parallelism

/-! ## Outcomes of tasks -/

inductive OutcomeStatus where
  | completed
  | failed
  | blocked
  | needsReplan
  deriving DecidableEq, Repr

/-- What `executeTaskInRun` returns, as far as the driver looks at it. -/
structure ExecutionOutcome where
  status : OutcomeStatus
  summary : JsString
  /-- `outcome.appliedChanges.length !== 0`. -/
  applied : Bool
  failure : Option TaskFailure
  deriving DecidableEq

def failedOutcome (code message : JsString) : ExecutionOutcome :=
  ⟨.failed, message, false, some ⟨code, message⟩⟩

/-- How the work of a task ends: with an exception, or with an outcome.  The patch is the commit
of `commitAll`, and the cherry-pick applies or refuses all of it. -/
inductive Settlement where
  | threw
  | returned (outcome : ExecutionOutcome) (patch : Option JsString) (applies : Bool)
  deriving DecidableEq

/-! ## The state of a run -/

/-- The events the driver appends. -/
inductive DriveEvent where
  | ready (taskId : JsString) (attempt : Nat)
  | started (taskId : JsString) (attempt : Nat)
  | completed (taskId : JsString) (attempt : Nat) (summary : JsString) (emptyDelta : Bool)
  | failed (taskId : JsString) (attempt : Nat) (error : TaskFailure)
  | blocked (taskId : JsString) (attempt : Nat) (error : TaskFailure)
  | needsReplan (taskId : JsString) (attempt : Nat)
  | executionConflict (taskId revision message : JsString)
  | patchMerged (taskId revision : JsString)
  | committed (taskId revision : JsString) (attempt : Nat)
  | replanRequested (taskId : JsString)
  | planAmended (removed added : List JsString)
  deriving DecidableEq

/-- Where the promise of a task is. -/
inductive FlightPhase where
  /-- The task is executed in its worktree. -/
  | executing
  /-- `replanFor` waits for the tasks in flight. -/
  | draining (race : Race)
  /-- `replanFor` waits for an amendment. -/
  | replanning
  /-- The launch threw.  Such a promise stays in the map. -/
  | rejected
  deriving DecidableEq

/-- A promise that is waited for settles. -/
def FlightPhase.settle (phase : FlightPhase) (promise : Nat) (fulfilled : Bool) : FlightPhase :=
  match phase with
  | .draining race => .draining (race.settle promise fulfilled)
  | phase => phase

theorem FlightPhase.settle_eq_rejected {phase : FlightPhase} {promise : Nat} {fulfilled : Bool} :
    phase.settle promise fulfilled = .rejected ↔ phase = .rejected := by
  cases phase <;> simp [FlightPhase.settle]

theorem FlightPhase.of_settle_draining {phase : FlightPhase} {promise : Nat} {fulfilled : Bool}
    {race : Race} (draining : phase.settle promise fulfilled = .draining race) :
    ∃ before, phase = .draining before ∧ race = before.settle promise fulfilled := by
  cases phase with
  | draining before => exact ⟨before, rfl, (FlightPhase.draining.inj draining).symm⟩
  | executing => cases draining
  | replanning => cases draining
  | rejected => cases draining

/-- An entry of `inFlight`, with the commits its worktree starts from. -/
structure Flight where
  promise : Nat
  task : Task
  attempt : Nat
  startPoint : List JsString
  phase : FlightPhase
  deriving DecidableEq

inductive DriverPhase where
  /-- The loop begins. -/
  | looping
  | racing (race : Race)
  /-- The loop has ended; `finishRun` is under way. -/
  | finishing
  | settled (returned : Bool)
  /-- The caller has released the workspace lock. -/
  | released
  deriving DecidableEq

def DriverPhase.settle (phase : DriverPhase) (promise : Nat) (fulfilled : Bool) : DriverPhase :=
  match phase with
  | .racing race => .racing (race.settle promise fulfilled)
  | phase => phase

theorem DriverPhase.of_settle_racing {phase : DriverPhase} {promise : Nat} {fulfilled : Bool}
    {race : Race} (racing : phase.settle promise fulfilled = .racing race) :
    ∃ before, phase = .racing before ∧ race = before.settle promise fulfilled := by
  cases phase with
  | racing before => exact ⟨before, rfl, (DriverPhase.racing.inj racing).symm⟩
  | looping => cases racing
  | finishing => cases racing
  | settled returned => cases racing
  | released => cases racing

inductive SchedulerOutcome where
  | done
  | deadlocked
  | replanFailed
  deriving DecidableEq, Repr

structure ParallelRun where
  plan : ValidPlan
  tasks : JsString → Option TaskState
  /-- The commits of the integration branch. -/
  branch : List JsString
  inFlight : List Flight
  /-- The number of promises so far. -/
  launched : Nat
  driver : DriverPhase
  outcome : SchedulerOutcome
  failedTasks : List JsString
  cancellationObserved : Bool
  replans : Nat
  events : List DriveEvent

/-- The state of a task that has none. -/
def pendingState (taskId : JsString) : TaskState :=
  ⟨taskId, .pending, 0, none, none, none, none, none⟩

namespace ParallelRun

/-- `stateOf`. -/
def stateOf (run : ParallelRun) (id : JsString) : TaskState :=
  (run.tasks id).getD (pendingState id)

def setTask (run : ParallelRun) (id : JsString) (state : TaskState) : ParallelRun :=
  { run with tasks := Function.update run.tasks id (some state) }

def append (run : ParallelRun) (events : List DriveEvent) : ParallelRun :=
  { run with events := run.events ++ events }

/-! ## Transitions -/

/-- The state that a transition writes: an earlier failure survives it, and a revision survives
the completion. -/
def nextState (previous : Option TaskState) (next : TaskState) : TaskState :=
  { next with
    failure := next.failure.or (previous.bind TaskState.failure)
    revision :=
      if next.status = .completed then (previous.bind TaskState.revision).or next.revision
      else next.revision }

def transitionEvents (taskId : JsString) (next : TaskState) (summary : JsString) :
    List DriveEvent :=
  match next.status with
  | .running => [.ready taskId next.attempt, .started taskId next.attempt]
  | .completed =>
      [.completed taskId next.attempt summary (next.emptyDeltaAfterPriorFailure.getD false)]
  | .failed =>
      [.failed taskId next.attempt (next.failure.getD ⟨js "TASK_FAILED", js "failed"⟩)]
  | .blocked =>
      [.blocked taskId next.attempt (next.failure.getD ⟨js "TASK_BLOCKED", js "blocked"⟩)]
  | .needsReplan => [.needsReplan taskId next.attempt]
  | _ => []

def transition (run : ParallelRun) (taskId : JsString) (next : TaskState) (summary : JsString) :
    ParallelRun :=
  let state := nextState (run.tasks taskId) next
  (run.setTask taskId state).append (transitionEvents taskId state summary)

/-! ## Promises -/

/-- A race between the promises in flight. -/
def race (run : ParallelRun) : Race :=
  .start (run.inFlight.map Flight.promise)
    ((run.inFlight.filter fun flight => flight.phase = .rejected).map Flight.promise)

/-- The promise leaves the map and settles. -/
def close (run : ParallelRun) (promise : Nat) (fulfilled : Bool) : ParallelRun :=
  { run with
    inFlight := (run.inFlight.filter fun flight => flight.promise ≠ promise).map fun flight =>
      { flight with phase := flight.phase.settle promise fulfilled }
    driver := run.driver.settle promise fulfilled }

def setPhase (run : ParallelRun) (promise : Nat) (phase : FlightPhase) : ParallelRun :=
  { run with
    inFlight := run.inFlight.map fun flight =>
      if flight.promise = promise then { flight with phase := phase } else flight }

/-- The head of the loop in `replanFor`. -/
def drain (run : ParallelRun) (flight : Flight) : ParallelRun :=
  if run.inFlight = [] then
    (run.setPhase flight.promise .replanning).append [.replanRequested flight.task.id]
  else
    run.setPhase flight.promise (.draining run.race)

/-! ## The end of a task -/

/-- The patch of a completed task is merged, or the task fails. -/
def merge (run : ParallelRun) (flight : Flight) (outcome : ExecutionOutcome)
    (patch : Option JsString) (applies : Bool) : ParallelRun × ExecutionOutcome :=
  match if outcome.status = .completed then patch else none with
  | none => (run, outcome)
  | some sha =>
      if applies then
        (({ run with branch := run.branch ++ [sha] }.setTask flight.task.id
            { (run.tasks flight.task.id).getD
                { pendingState flight.task.id with status := .running, attempt := flight.attempt }
              with revision := some sha }).append
            [.patchMerged flight.task.id sha, .committed flight.task.id sha flight.attempt],
          outcome)
      else
        (run.append [.executionConflict flight.task.id sha
            (js "task patch conflicted during deterministic merge")],
          failedOutcome (js "EXECUTION_CONFLICT")
            (js "task patch conflicted during deterministic merge"))

/-- `outcome.failure?.code === "REQUEST_RETIRED"`. -/
def observeCancellation (run : ParallelRun) (outcome : ExecutionOutcome) : ParallelRun :=
  { run with
    cancellationObserved := run.cancellationObserved ||
      outcome.failure.map TaskFailure.code == some (js "REQUEST_RETIRED") }

/-- The state of a task that completes.  It is marked when nothing was applied after a failure. -/
def completedState (run : ParallelRun) (flight : Flight) (outcome : ExecutionOutcome)
    (now : JsString) : TaskState :=
  let emptyDelta :=
    ((run.tasks flight.task.id).bind TaskState.failure).isSome && !outcome.applied
  { pendingState flight.task.id with
    status := .completed
    attempt := flight.attempt
    startedAt := some now
    completedAt := some now
    emptyDeltaAfterPriorFailure := if emptyDelta then some true else none }

/-- The branches of the switch on the outcome. -/
def conclude (config : DriveConfig) (run : ParallelRun) (flight : Flight)
    (outcome : ExecutionOutcome) (now : JsString) : ParallelRun :=
  let base := { pendingState flight.task.id with attempt := flight.attempt }
  match outcome.status with
  | .completed =>
      (run.transition flight.task.id (run.completedState flight outcome now) outcome.summary).close
        flight.promise true
  | .failed =>
      let failure := outcome.failure.getD ⟨js "TASK_FAILED", outcome.summary⟩
      if flight.attempt - 1 < config.maxTaskRetries then
        (run.transition flight.task.id { base with failure := some failure } []).close
          flight.promise true
      else
        { (run.transition flight.task.id { base with status := .failed, failure := some failure }
            []).close flight.promise true with
          failedTasks := run.failedTasks ++ [flight.task.id] }
  | .blocked =>
      (run.transition flight.task.id
        { base with
          status := .blocked
          failure := some (outcome.failure.getD ⟨js "TASK_BLOCKED", outcome.summary⟩) }
        []).close flight.promise true
  | .needsReplan =>
      (run.transition flight.task.id { base with status := .needsReplan } []).drain flight

/-- What `runOne` does after the task was executed. -/
def settle (config : DriveConfig) (run : ParallelRun) (flight : Flight) (settlement : Settlement)
    (now : JsString) : ParallelRun :=
  match settlement with
  | .threw => run.close flight.promise false
  | .returned outcome patch applies =>
      let merged := run.merge flight outcome patch applies
      (merged.1.observeCancellation merged.2).conclude config flight merged.2 now

/-- The tasks of an amended plan: those that are new begin, those that asked for it begin
again. -/
def amend (run : ParallelRun) (amended : ValidPlan) : ParallelRun :=
  let oldIds := run.plan.tasks.map Task.id
  let added := (amended.tasks.map Task.id).filter fun id => id ∉ oldIds
  let started := added.foldl (fun run id => run.setTask id (pendingState id)) run
  let reset := amended.tasks.foldl (fun (run : ParallelRun) task =>
    match run.tasks task.id with
    | some prior =>
        if prior.status = .needsReplan then
          (run.setTask task.id { prior with status := .pending }).append
            [.ready task.id prior.attempt]
        else run
    | none => run) started
  { reset.append [.planAmended (oldIds.filter fun id => id ∉ amended.tasks.map Task.id) added] with
    plan := amended
    replans := run.replans + 1 }

/-- What `runOne` does after the amendment. -/
def replanned (run : ParallelRun) (flight : Flight) : Option ValidPlan → ParallelRun
  | none => { run.close flight.promise true with outcome := .replanFailed }
  | some amended => (run.amend amended).close flight.promise true

/-! ## A pass of the loop -/

/-- A task that is still marked running becomes pending, also when it is in flight. -/
def resetRunning (run : ParallelRun) (task : Task) : ParallelRun :=
  if (run.stateOf task.id).status = .running then
    run.transition task.id { run.stateOf task.id with status := .pending } []
  else
    run

/-- The statuses of a dependency that block a task. -/
def isBlocking : TaskStatus → Bool
  | .failed | .blocked | .cancelled | .needsReplan => true
  | _ => false

def blockUnreachable (run : ParallelRun) (task : Task) : ParallelRun :=
  if (run.stateOf task.id).status = .pending ∧
      (task.dependencies.any fun dep => isBlocking (run.stateOf dep).status) = true then
    run.transition task.id { run.stateOf task.id with status := .blocked } []
  else
    run

def isFinished (run : ParallelRun) (id : JsString) : Bool :=
  (run.stateOf id).status == .completed || (run.stateOf id).status == .skipped

/-- The task waits and has no promise. -/
def isPending (run : ParallelRun) (task : Task) : Bool :=
  (run.stateOf task.id).status == .pending &&
    run.inFlight.all fun flight => flight.task.id ≠ task.id

/-- The tasks that may be launched. -/
def readyTasks (run : ParallelRun) : List Task :=
  (run.plan.tasks.filter run.isPending).filter fun task => task.dependencies.all run.isFinished

/-- Some task in flight writes where the task writes.  A launch that threw has left no write
targets. -/
def overlaps (run : ParallelRun) (task : Task) : Bool :=
  run.inFlight.any fun flight =>
    flight.phase ≠ .rejected && writesOverlap task.writes flight.task.writes

/-- What `runOne` does before its first await. -/
def launch (run : ParallelRun) (task : Task) (refused : Bool) (now : JsString) : ParallelRun :=
  let prior := run.tasks task.id
  let attempt := (prior.map TaskState.attempt).getD 0 + 1
  let started := run.transition task.id
    { pendingState task.id with
      status := .running
      attempt := attempt
      startedAt := some now
      failure := prior.bind TaskState.failure } []
  { started with
    launched := run.launched + 1
    inFlight := run.inFlight ++
      [⟨run.launched, task, attempt, run.branch, if refused then .rejected else .executing⟩] }

/-- The loop over the ready tasks. -/
def launchReady (config : DriveConfig) (refused : JsString → Bool) (now : JsString) :
    List Task → ParallelRun → ParallelRun
  | [], run => run
  | task :: rest, run =>
      if config.maxParallel ≤ run.inFlight.length then
        run
      else if run.overlaps task then
        launchReady config refused now rest run
      else
        launchReady config refused now rest (run.launch task (refused task.id) now)

/-- The statuses at the head of the loop. -/
def refresh (run : ParallelRun) : ParallelRun :=
  run.plan.tasks.foldl blockUnreachable (run.plan.tasks.foldl resetRunning run)

/-- The end of a pass: the loop ends when nothing is in flight.  There is then nothing left to
wait for after the loop. -/
def endPass (run : ParallelRun) (deadlocked : Bool) : ParallelRun :=
  if run.inFlight = [] then
    { run with
      driver := .finishing
      outcome := if deadlocked then .deadlocked else run.outcome }
  else
    { run with driver := .racing run.race }

/-- One pass of the loop.  `refused` are the tasks whose launch throws. -/
def pass (config : DriveConfig) (refused : JsString → Bool) (now : JsString) (run : ParallelRun) :
    ParallelRun :=
  let run := run.refresh
  if run.cancellationObserved then
    run.endPass false
  else
    (launchReady config refused now run.readyTasks run).endPass
      (run.plan.tasks.filter run.isPending ≠ [])

end ParallelRun

/-! ## Steps -/

/-- A step of the run. -/
inductive DriveOp where
  /-- The driver begins, or goes on after a race. -/
  | wake (refused : JsString → Bool) (now : JsString)
  | settle (promise : Nat) (settlement : Settlement) (now : JsString)
  /-- A task goes on after a race in `replanFor`. -/
  | resume (promise : Nat)
  | replan (promise : Nat) (amended : Option ValidPlan)
  | finish (returned : Bool)
  | release

namespace ParallelRun

def flight? (run : ParallelRun) (promise : Nat) : Option Flight :=
  run.inFlight.find? fun flight => flight.promise = promise

def wake (config : DriveConfig) (refused : JsString → Bool) (now : JsString)
    (run : ParallelRun) : Option ParallelRun :=
  match run.driver with
  | .looping => some (run.pass config refused now)
  | .racing race =>
      race.won.map fun fulfilled =>
        if fulfilled then run.pass config refused now else { run with driver := .settled false }
  | _ => none

def resume (run : ParallelRun) (flight : Flight) : Option ParallelRun :=
  match flight.phase with
  | .draining race =>
      race.won.map fun fulfilled =>
        if fulfilled then run.drain flight else run.close flight.promise false
  | _ => none

/-- What a step does, if it can be made. -/
def step (config : DriveConfig) (op : DriveOp) (run : ParallelRun) : Option ParallelRun :=
  match op with
  | .wake refused now => run.wake config refused now
  | .settle promise settlement now =>
      (run.flight? promise).bind fun flight =>
        if flight.phase = .executing then some (run.settle config flight settlement now) else none
  | .resume promise => (run.flight? promise).bind run.resume
  | .replan promise amended =>
      (run.flight? promise).bind fun flight =>
        if flight.phase = .replanning then some (run.replanned flight amended) else none
  | .finish returned =>
      if run.driver = .finishing then some { run with driver := .settled returned } else none
  | .release =>
      match run.driver with
      | .settled _ => some { run with driver := .released }
      | _ => none

/-- A step that cannot be made does nothing. -/
def act (config : DriveConfig) (op : DriveOp) (run : ParallelRun) : ParallelRun :=
  (run.step config op).getD run

end ParallelRun

/-- The beginning of a drive.  What earlier drives of the run completed is on the branch. -/
structure DriveStart where
  plan : ValidPlan
  tasks : JsString → Option TaskState
  branch : List JsString
  replans : Nat
  recorded : ∀ id state revision, tasks id = some state → state.status = .completed →
    state.revision = some revision → revision ∈ branch

def DriveStart.run (start : DriveStart) : ParallelRun where
  plan := start.plan
  tasks := start.tasks
  branch := start.branch
  inFlight := []
  launched := 0
  driver := .looping
  outcome := .done
  failedTasks := []
  cancellationObserved := false
  replans := start.replans
  events := []

/-- The beginning of a new run. -/
def DriveStart.fresh (plan : ValidPlan) : DriveStart where
  plan := plan
  tasks := fun _ => none
  branch := []
  replans := 0
  recorded := by
    intro id state revision found
    cases found

end SpecAsCode.Runtime.Parallel
