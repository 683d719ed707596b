import SpecAsCode.Runtime.RunActors

/-!
# What a cancellation reports

A cancellation that reports success says that the driver has stopped: it executes no task and
appends neither an event of a task nor a terminal event any more.
-/

namespace SpecAsCode.Runtime

open SpecAsCode.Js
open SpecAsCode.Schema
open SpecAsCode.History

/-- The events of tasks, and those that end a run. -/
def EventType.isTaskOrEnd : EventType → Bool
  | .taskReady => true
  | .taskStarted => true
  | .taskCompleted => true
  | .taskCommitted => true
  | .taskFailed => true
  | .taskStageRejected => true
  | .taskSubmissionRefused => true
  | .taskBlocked => true
  | .taskNeedsReplan => true
  | .runCompleted => true
  | .runFailed => true
  | _ => false

/-- The driver has appended its terminal event or is gone. -/
def DriverPhase.Quiet : DriverPhase → Prop
  | .claimed => False
  | .driving _ => False
  | .cleared _ => False
  | _ => True

theorem DriverPhase.quiet_of_not_alive {phase : DriverPhase} (gone : ¬ phase.Alive) :
    phase.Quiet := by
  cases phase with
  | returned => trivial
  | died => trivial
  | _ => exact absurd ⟨DriverPhase.noConfusion, DriverPhase.noConfusion⟩ gone

/-- `finalizeCancelled` has been called and has not failed. -/
def CancelPhase.Ends : CancelPhase → Prop
  | .finalizing _ => True
  | .ended _ => True
  | .persisted _ => True
  | .attesting _ => True
  | .returned status => status = .cancelled
  | _ => False

variable {Canceller : Type} [DecidableEq Canceller]

/-- The events of the driver that a cancellation is about. -/
def RunWorld.told (world : RunWorld Canceller) : List EventType :=
  world.appended.filter EventType.isTaskOrEnd

/-- From the moment a cancellation has returned that the run is cancelled, the driver executes
no task, and it appends none of those events. -/
structure CancelTruthful (sha256Hex : JsString → JsString) (runId : JsString)
    (start : RunWorld Canceller) (ops : List (EndOp Canceller)) : Prop where
  idle : ∀ before after, ops = before ++ after → ∀ canceller,
    (run (RunWorld.act sha256Hex runId) before start).cancels canceller = .returned .cancelled →
      (run (RunWorld.act sha256Hex runId) before start).driver ≠ .driving true
  silent : ∀ before after, ops = before ++ after → ∀ canceller,
    (run (RunWorld.act sha256Hex runId) before start).cancels canceller = .returned .cancelled →
      (run (RunWorld.act sha256Hex runId) ops start).told =
        (run (RunWorld.act sha256Hex runId) before start).told

/-- The branches on which a cancellation ends the run itself are taken only when the driver has
appended its terminal event or is gone: the one without a record of the run, and the one behind
the wait that follows the signal. -/
def RunWorld.StopsFirst (runId : JsString) (world : RunWorld Canceller) : EndOp Canceller → Prop
  | .cancel canceller _ =>
      match world.cancels canceller with
      | .found _ => (∀ record, world.disk.intent = some record → record.runId ≠ runId) →
          world.driver.Quiet
      | .stopping _ => world.driver.Quiet
      | _ => True
  | _ => True

/-- A final state and a cancellation that ends the run tell that the driver is quiet. -/
structure RunWorld.Honest (world : RunWorld Canceller) : Prop where
  final : ∀ state, world.disk.state = some state → state.status ≠ .running → world.driver.Quiet
  ends : ∀ canceller, (world.cancels canceller).Ends → world.driver.Quiet

section Steps

variable {sha256Hex : JsString → JsString} {runId : JsString} {world : RunWorld Canceller}

/-- A quiet driver stays quiet and appends none of those events. -/
theorem DriverMove.quiet {disk : EndDisk} {before after : DriverPhase} {write : Option EndWrite}
    (move : DriverMove sha256Hex runId disk before after write) (quiet : before.Quiet) :
    after.Quiet ∧
      (write.bind EndWrite.eventType).toList.filter EventType.isTaskOrEnd = [] := by
  cases move with
  | stay => exact ⟨quiet, rfl⟩
  | die => exact ⟨trivial, rfl⟩
  | persist state same => exact ⟨trivial, rfl⟩
  | attest status attestation => exact ⟨trivial, rfl⟩
  | attestEvent attestation id timestamp => exact ⟨trivial, rfl⟩
  | restore => exact ⟨trivial, rfl⟩
  | _ => exact quiet.elim

theorem RunWorld.quiet_act (quiet : world.driver.Quiet) (op : EndOp Canceller) :
    (world.act sha256Hex runId op).driver.Quiet ∧
      (world.act sha256Hex runId op).told = world.told := by
  cases op with
  | driver step =>
      obtain ⟨stays, nothing⟩ :=
        (driverStep_move sha256Hex runId world.disk world.driver step).quiet quiet
      refine ⟨stays, ?_⟩
      show List.filter _ (world.appended ++ ((driverStep sha256Hex runId world.disk world.driver
        step).2.bind EndWrite.eventType).toList) = List.filter _ world.appended
      rw [List.filter_append, nothing, List.append_nil]
  | cancel canceller surroundings => exact ⟨quiet, rfl⟩
  | recover times attempt =>
      rw [RunWorld.act]
      split
      next => exact ⟨quiet, rfl⟩
      next => exact ⟨quiet, rfl⟩

/-- The steps of a driver leave what is told of it true. -/
theorem RunWorld.Honest.driver (honest : world.Honest) (step : DriverStep) :
    (world.act sha256Hex runId (.driver step)).Honest := by
  obtain ⟨disk, driver, cancels, recovery, launched, named, writtenBack, appended⟩ := world
  obtain ⟨final, ends⟩ := honest
  have move := driverStep_move sha256Hex runId disk driver step
  simp only [RunWorld.act]
  generalize driverStep sha256Hex runId disk driver step = result at move ⊢
  obtain ⟨after, write⟩ := result
  simp only at move final ends
  refine ⟨fun state found ended => ?_, fun canceller ending => (move.quiet (ends canceller ending)).1⟩
  cases move with
  | save executing written running =>
      cases found
      exact absurd running ended
  | persist written same => trivial
  | complete status resultRevision requirements id timestamp => trivial
  | die => trivial
  | restore => trivial
  | attest status attestation => trivial
  | attestEvent attestation id timestamp => trivial
  | _ => exact final state found ended

theorem RunWorld.Honest.cancel (honest : world.Honest) {canceller : Canceller}
    {surroundings : CancelSurroundings}
    (stopsFirst : world.StopsFirst runId (.cancel canceller surroundings)) :
    (world.act sha256Hex runId (.cancel canceller surroundings)).Honest := by
  obtain ⟨disk, driver, cancels, recovery, launched, named, writtenBack, appended⟩ := world
  obtain ⟨final, ends⟩ := honest
  have move := cancelStep_move sha256Hex runId surroundings disk (cancels canceller)
  have ending := ends canceller
  simp only [RunWorld.StopsFirst] at stopsFirst
  simp only [RunWorld.act]
  generalize cancelStep sha256Hex runId surroundings disk (cancels canceller) = result at move ⊢
  obtain ⟨after, write⟩ := result
  simp only at move final ends ending
  -- the new phase and the new state decide
  have step : (after.Ends → driver.Quiet) →
      (∀ state, (disk.writes sha256Hex write).state = some state → state.status ≠ .running →
        driver.Quiet) →
      RunWorld.Honest ⟨disk.writes sha256Hex write, driver,
        Function.update cancels canceller after, recovery, launched, named,
        writtenBack || (disk.intent.isNone && (disk.writes sha256Hex write).intent.isSome),
        appended⟩ := by
    intro new states
    refine ⟨states, fun other => ?_⟩
    simp only [Function.update_apply]
    split
    next => exact new
    next => exact ends other
  generalize cancels canceller = before at move ending stopsFirst
  cases move with
  | refuse can refused => exact step (fun same => absurd same refused) final
  | legacy state other => exact step (fun _ => stopsFirst other) final
  | stopped state => exact step (fun _ => stopsFirst) final
  | observe state there ended => exact step (fun _ => final _ there ended) final
  | complete state tasks id timestamp => exact step (fun _ => ending trivial) final
  | persist state written cancelled =>
      exact step (fun _ => ending trivial) fun _ _ _ => ending trivial
  | attest state attestation => exact step (fun _ => ending trivial) final
  | attestEvent attestation id timestamp => exact step (fun _ => ending trivial) final
  | stay status => exact step ending final
  | record state escalates record =>
      refine step (fun ended => ?_) final
      cases escalates <;> exact ended.elim
  | _ => exact step (fun ended => ended.elim) final

theorem RunWorld.Honest.recover (honest : world.Honest) (times : EndTimes)
    (attempt : RecoveryAttempt) :
    (world.act sha256Hex runId (.recover times attempt)).Honest := by
  rw [RunWorld.act]
  split
  next => exact honest
  next gone =>
    have quiet := DriverPhase.quiet_of_not_alive gone
    exact ⟨fun _ _ _ => quiet, fun _ _ => quiet⟩

theorem RunWorld.Honest.act (honest : world.Honest) {op : EndOp Canceller}
    (stopsFirst : world.StopsFirst runId op) : (world.act sha256Hex runId op).Honest := by
  cases op with
  | driver step => exact honest.driver step
  | cancel canceller surroundings => exact honest.cancel stopsFirst
  | recover times attempt => exact honest.recover times attempt

omit [DecidableEq Canceller] in
theorem RunWorld.honest_start {events : EventStore} {state : Option RunState}
    (startable : Startable events state) (evidence : EvidenceStore) (record : ExecutionIntent) :
    (RunWorld.start runId events evidence state record : RunWorld Canceller).Honest :=
  ⟨fun persisted found ended => absurd (startable.running persisted found) ended,
    fun _ ends => ends.elim⟩

/-- What is told of a quiet driver does not change any more. -/
theorem RunWorld.quiet_run (ops : List (EndOp Canceller)) :
    ∀ {world : RunWorld Canceller}, world.driver.Quiet →
      (run (RunWorld.act sha256Hex runId) ops world).told = world.told := by
  induction ops with
  | nil => exact fun _ => rfl
  | cons op ops inductionHypothesis =>
      intro world quiet
      obtain ⟨stays, told⟩ := @RunWorld.quiet_act Canceller _ sha256Hex runId world quiet op
      exact (inductionHypothesis stays).trans told

end Steps

/-- A cancellation that gets the arbitration lock and does not wait long. -/
def promptCancel : CancelSurroundings where
  arbitration := true
  expired := false
  linux := true
  tasks _ := .null
  times := recoveryTimes

/-- The run of `executedState` with a record that names it. -/
def startedRun : RunWorld Unit :=
  .start (js "run-1") (EventStore.fresh (js "run-1")) HashChain.Log.empty none
    { cancelledIntent with cause := .none }

theorem startable_fresh (runId : JsString) : Startable (EventStore.fresh runId) none :=
  ⟨fun _ member => absurd member List.not_mem_nil, fun _ found => by cases found⟩

/-- The driver finishes while the cancellation waits. -/
def cooperativeRun : List (EndOp Unit) :=
  [.driver (.name true), .driver (.save executedState), .cancel () promptCancel,
    .cancel () promptCancel, .cancel () promptCancel, .cancel () promptCancel,
    .driver (.finalize .cancelled), .driver (.complete none .null recoveryTimes),
    .driver (.persist executedState), .cancel () promptCancel]

/-- A cancellation that finds no record, because `finalize` has just cleared it. -/
def cancelledInFinalize : List (EndOp Unit) :=
  [.driver (.name true), .driver (.save executedState), .driver .launch, .driver .settle,
    .cancel () promptCancel, .driver (.finalize .succeeded), .cancel () promptCancel,
    .cancel () promptCancel, .cancel () promptCancel, .cancel () promptCancel,
    .cancel () promptCancel]

end SpecAsCode.Runtime
