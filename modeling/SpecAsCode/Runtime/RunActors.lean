import Mathlib.Logic.Function.Basic
import SpecAsCode.Lib.History
import SpecAsCode.Runtime.RecoveryCrash

/-!
# The processes that end a run

The driver of a run, cancellations of it and a recovery take turns.  Each step of a process
looks at the disk and makes at most one write.
-/

namespace SpecAsCode.Runtime

open SpecAsCode.Js
open SpecAsCode.Schema
open SpecAsCode.Verifier
open SpecAsCode.History

/-! ## The driver -/

/-- Where the driver of a run is. -/
inductive DriverPhase where
  /-- `initializeIntent` has written the record. -/
  | claimed
  /-- Tasks are launched, or one is being executed. -/
  | driving (executing : Bool)
  /-- `finalize` has cleared the record. -/
  | cleared (status : RunStatus)
  /-- `RUN_COMPLETED` is appended. -/
  | ended (status : RunStatus)
  /-- The state is persisted. -/
  | persisted (status : RunStatus)
  /-- `attestation.json` is written. -/
  | attesting (attestation : EndAttestation)
  /-- `RUN_ATTESTED` is appended. -/
  | attested
  /-- The original branch is restored, and the workspace lock is released. -/
  | returned
  | died
  deriving DecidableEq

/-- The process is there and holds the workspace lock. -/
def DriverPhase.Alive (phase : DriverPhase) : Prop :=
  phase ≠ .returned ∧ phase ≠ .died

instance (phase : DriverPhase) : Decidable phase.Alive :=
  inferInstanceAs (Decidable (phase ≠ .returned ∧ phase ≠ .died))

/-- A step of the driver. -/
inductive DriverStep where
  /-- The id of the run is written into the record, if that succeeds. -/
  | name (written : Bool)
  | launch
  | settle
  /-- Any event but those that end a run. -/
  | record (input : EventStore.Input)
  /-- `persistState` while the run is executed. -/
  | save (state : RunState)
  | finalize (status : RunStatus)
  | reportDirty (input : EventStore.Input)
  | complete (resultRevision : Option JsString) (requirements : Json) (times : EndTimes)
  | persist (state : RunState)
  | attest (specId : JsString) (resultRevision : Option JsString) (times : EndTimes)
  | attestEvent (times : EndTimes)
  | restore
  | die

/-- An event that the end of a run does not append. -/
def Ordinary (type : EventType) : Prop :=
  type ≠ .runCompleted ∧ type ≠ .runFailed ∧ type ≠ .runAttested

instance (type : EventType) : Decidable (Ordinary type) :=
  inferInstanceAs (Decidable (type ≠ .runCompleted ∧ type ≠ .runFailed ∧ type ≠ .runAttested))

section Driver

variable (sha256Hex : JsString → JsString) (runId : JsString)

/-- What a step of the driver does: the phase after it and the write.  A step that its phase
does not allow does nothing. -/
def driverStep (disk : EndDisk) (phase : DriverPhase) (step : DriverStep) :
    DriverPhase × Option EndWrite :=
  match phase, step with
  | .returned, _ => (.returned, none)
  | .died, _ => (.died, none)
  | _, .die => (.died, none)
  | .claimed, .name written =>
      (.driving false, if written then
        some (.intent (disk.intent.map fun record => { record with runId := runId })) else none)
  | .driving _, .launch => (.driving true, none)
  | .driving _, .settle => (.driving false, none)
  | .driving executing, .record input =>
      (.driving executing, if Ordinary input.type then some (.record input) else none)
  | .driving executing, .save state =>
      (.driving executing, some (.state { state with status := .running }))
  | .driving false, .finalize status => (.cleared status, some (.intent none))
  | .cleared status, .reportDirty input =>
      (.cleared status, if input.type = .runEndedDirty then some (.record input) else none)
  | .cleared status, .complete resultRevision requirements times =>
      (.ended status, some (.event (.completed status resultRevision requirements)
        times.completedId times.completedAt))
  | .ended status, .persist state =>
      (.persisted status, some (.state { state with status := status }))
  | .persisted status, .attest specId resultRevision times =>
      let attestation := disk.attest sha256Hex runId specId status.text resultRevision
        times.attestedAt
      (.attesting attestation, some (.attestation attestation))
  | .attesting attestation, .attestEvent times =>
      (.attested, some (.event (.attested attestation) times.attestedId times.attestedEventAt))
  | .attested, .restore => (.returned, none)
  | phase, _ => (phase, none)

end Driver

/-! ## A cancellation -/

inductive CancelStatus where
  | cancelled
  | incomplete
  | notFound
  | alreadyFinished
  deriving DecidableEq, Repr

/-- Where a call of `cancelRun` is; most places carry the state that was read first. -/
inductive CancelPhase where
  | idle
  | found (state : RunState)
  /-- `transitionCause` is called, from `NONE` or, when it escalates, from
  `CANCEL_REQUESTED`. -/
  | arbitrating (state : RunState) (escalates : Bool)
  /-- The record is read under the arbitration lock and about to be written. -/
  | recording (state : RunState) (escalates : Bool) (record : ExecutionIntent)
  /-- The cooperative wait. -/
  | waiting (state : RunState)
  | escalating (state : RunState)
  | signalling (state : RunState)
  /-- The wait after the signal. -/
  | stopping (state : RunState)
  /-- `finalizeCancelled` is called. -/
  | finalizing (state : RunState)
  /-- `RUN_COMPLETED` is appended. -/
  | ended (state : RunState)
  | persisted (state : RunState)
  | attesting (attestation : EndAttestation)
  | returned (status : CancelStatus)

/-- What a step of a cancellation finds outside of the disk: whether it gets the arbitration
lock, whether the grace period has expired, the platform, the statuses of the tasks as the
event prints them, and the times. -/
structure CancelSurroundings where
  arbitration : Bool
  expired : Bool
  linux : Bool
  tasks : RunState → Json
  times : EndTimes

/-- The cause that a transition starts from. -/
def causeBefore (escalates : Bool) : InterruptionCause :=
  if escalates then .cancelRequested else .none

/-- The cause that a transition leads to. -/
def causeAfter (escalates : Bool) : InterruptionCause :=
  if escalates then .cancelEscalated else .cancelRequested

section Cancel

variable (sha256Hex : JsString → JsString) (runId : JsString)

/-- `cancelRun` after the state was read as running. -/
def chooseCancel (disk : EndDisk) (state : RunState) : CancelPhase :=
  match disk.intent with
  | none => .finalizing state
  | some record =>
      if record.runId = runId then
        match record.cause with
        | .none => .arbitrating state false
        | .cancelRequested => .waiting state
        | .cancelEscalated => .escalating state
      else
        .finalizing state

/-- The end of the cooperative wait without a final state. -/
def expireCancel (surroundings : CancelSurroundings) (disk : EndDisk) (state : RunState) :
    CancelPhase :=
  match disk.intent with
  | none => .returned .incomplete
  | some record =>
      if record.runId = runId ∧ surroundings.linux then
        .escalating state
      else
        .returned .incomplete

/-- What a step of a cancellation does: the phase after it and the write. -/
def cancelStep (surroundings : CancelSurroundings) (disk : EndDisk) :
    CancelPhase → CancelPhase × Option EndWrite
  | .idle =>
      match disk.state with
      | none => (.returned .notFound, none)
      | some state =>
          if state.status = .running then (.found state, none)
          else (.returned .alreadyFinished, none)
  | .found state => (chooseCancel runId disk state, none)
  | .arbitrating state escalates =>
      match disk.intent with
      | none => (.returned .incomplete, none)
      | some record =>
          if surroundings.arbitration ∧ record.cause = causeBefore escalates then
            (.recording state escalates record, none)
          else
            (.returned .incomplete, none)
  | .recording state escalates record =>
      (if escalates then .signalling state else .waiting state,
        some (.intent (some { record with cause := causeAfter escalates })))
  | .waiting state =>
      if surroundings.expired then
        (expireCancel runId surroundings disk state, none)
      else if (disk.state.map RunState.status).getD .running = .running then
        (.waiting state, none)
      else
        (.returned .cancelled, none)
  | .escalating state =>
      if (disk.intent.map ExecutionIntent.cause) = some .cancelRequested then
        (.arbitrating state true, none)
      else
        (.signalling state, none)
  | .signalling state => (.stopping state, none)
  | .stopping state => (.finalizing state, none)
  | .finalizing state =>
      (.ended state, some (.event (.cancelled (surroundings.tasks state))
        surroundings.times.completedId surroundings.times.completedAt))
  | .ended state =>
      (.persisted state, some (.state
        { state with status := .cancelled, updatedAt := surroundings.times.updatedAt }))
  | .persisted state =>
      let attestation := disk.attest sha256Hex runId state.specId RunStatus.cancelled.text none
        surroundings.times.attestedAt
      (.attesting attestation, some (.attestation attestation))
  | .attesting attestation =>
      (.returned .cancelled, some (.event (.attested attestation)
        surroundings.times.attestedId surroundings.times.attestedEventAt))
  | .returned status => (.returned status, none)

end Cancel

/-! ## A recovery -/

/-- Where a recovery is that holds the workspace lock, or how the last one ended. -/
inductive RecoveryPhase where
  | idle
  /-- The workers are verified but for some, about whom the caller has confirmed. -/
  | verified (record : ExecutionIntent) (unverified : List ProcessId)
  /-- The log is loaded and has no terminal event. -/
  | finalizing (record : ExecutionIntent) (unverified : List ProcessId)
  /-- `RUN_COMPLETED` is appended. -/
  | ended (record : ExecutionIntent)
  /-- `writeTerminalEvent` has returned. -/
  | settled (record : ExecutionIntent)
  | attesting (record : ExecutionIntent) (attestation : EndAttestation)
  | attested (record : ExecutionIntent)
  /-- The check of the workspace has written its file. -/
  | checking (record : ExecutionIntent)
  /-- The check of the workspace has passed. -/
  | clearing (record : ExecutionIntent)
  | returned (status : RecoveryStatus)

section Recover

variable (sha256Hex : JsString → JsString) (times : EndTimes) (attempt : RecoveryAttempt)

/-- What a step of a recovery does: the phase after it and the write.  One that has returned may
be followed by another. -/
def recoveryStep (disk : EndDisk) : RecoveryPhase → RecoveryPhase × Option EndWrite
  | .idle =>
      match disk.intent with
      | none => (.returned .noBlock, none)
      | some record =>
          if verifyWorkers attempt record.workers ≠ [] ∧ ¬ attempt.confirmed then
            (.returned .incomplete, none)
          else
            (.verified record (verifyWorkers attempt record.workers), none)
  | .verified record unverified =>
      if ¬ disk.runDir then (.returned .incomplete, none)
      else if disk.ended then (.settled record, none)
      else (.finalizing record unverified, none)
  | .finalizing record unverified =>
      (.ended record, some (.event (.recovered (deriveTerminalOutcome record.cause) record.cause
        unverified) times.completedId times.completedAt))
  | .ended record =>
      (.settled record, disk.state.map fun state => .state
        { state with status := .cancelled, updatedAt := times.updatedAt })
  | .settled record =>
      (.attesting record (recoveryAttestation sha256Hex times record disk),
        some (.attestation (recoveryAttestation sha256Hex times record disk)))
  | .attesting record attestation =>
      (.attested record, some (.event (.attested attestation) times.attestedId
        times.attestedEventAt))
  | .attested record =>
      if attempt.writable then (.checking record, some (.recoveryCheck true))
      else (.returned .incomplete, none)
  | .checking record => (.clearing record, some (.recoveryCheck false))
  | .clearing _ => (.returned .recovered, some (.intent none))
  | .returned _ => (.idle, none)

end Recover

/-! ## All of them -/

/-- A step of one of the processes. -/
inductive EndOp (Canceller : Type) where
  | driver (step : DriverStep)
  | cancel (canceller : Canceller) (surroundings : CancelSurroundings)
  | recover (times : EndTimes) (attempt : RecoveryAttempt)

/-- The disk and the processes.  The last four fields are kept for the statements only: whether
a task was launched, whether the record has been given the id of the run, whether a
cancellation has written a record after it was cleared, and the types of the events that the
driver has appended. -/
structure RunWorld (Canceller : Type) where
  disk : EndDisk
  driver : DriverPhase
  cancels : Canceller → CancelPhase
  recovery : RecoveryPhase
  launched : Bool
  named : Bool
  writtenBack : Bool
  appended : List EventType

/-- The type of the event that a write appends. -/
def EndWrite.eventType : EndWrite → Option EventType
  | .event ending _ _ => some ending.type
  | .record input => some input.type
  | _ => none

section Act

variable {Canceller : Type} [DecidableEq Canceller] (sha256Hex : JsString → JsString)
  (runId : JsString)

/-- A run after `initializeIntent`. -/
def RunWorld.start (events : EventStore) (evidence : EvidenceStore) (state : Option RunState)
    (record : ExecutionIntent) : RunWorld Canceller where
  disk := ⟨true, events, evidence, state, none, some record, false⟩
  driver := .claimed
  cancels _ := .idle
  recovery := .idle
  launched := false
  named := record.runId = runId
  writtenBack := false
  appended := []

/-- What a driver starts from.  A new run has neither events nor a state, and `resumeRun`
refuses a run whose log does not replay as running. -/
structure Startable (events : EventStore) (state : Option RunState) : Prop where
  unended : ∀ event ∈ events.log.records, event.type ≠ .runCompleted ∧ event.type ≠ .runFailed
  running : ∀ persisted, state = some persisted → persisted.status = .running

/-- A write, if one is made. -/
def EndDisk.writes (disk : EndDisk) (write : Option EndWrite) : EndDisk :=
  write.elim disk fun write => write.apply sha256Hex disk

/-- One step.  A recovery takes the lock only from a driver that is gone. -/
def RunWorld.act (op : EndOp Canceller) (world : RunWorld Canceller) : RunWorld Canceller :=
  match op with
  | .driver step =>
      let (phase, write) := driverStep sha256Hex runId world.disk world.driver step
      { world with
        disk := world.disk.writes sha256Hex write
        driver := phase
        launched := world.launched || phase = .driving true
        named := world.named || (world.driver = .claimed && write.isSome)
        appended := world.appended ++ (write.bind EndWrite.eventType).toList }
  | .cancel canceller surroundings =>
      let (phase, write) :=
        cancelStep sha256Hex runId surroundings world.disk (world.cancels canceller)
      { world with
        disk := world.disk.writes sha256Hex write
        cancels := Function.update world.cancels canceller phase
        writtenBack := world.writtenBack ||
          (world.disk.intent.isNone && (world.disk.writes sha256Hex write).intent.isSome) }
  | .recover times attempt =>
      if world.driver.Alive then
        world
      else
        let (phase, write) := recoveryStep sha256Hex times attempt world.disk world.recovery
        { world with disk := world.disk.writes sha256Hex write, recovery := phase }

end Act

/-! ## What a step can do -/

/-- The moves of the driver. -/
inductive DriverMove (sha256Hex : JsString → JsString) (runId : JsString) (disk : EndDisk) :
    DriverPhase → DriverPhase → Option EndWrite → Prop where
  | stay (phase : DriverPhase) : DriverMove sha256Hex runId disk phase phase none
  | die {phase : DriverPhase} (alive : phase.Alive) :
      DriverMove sha256Hex runId disk phase .died none
  | name : DriverMove sha256Hex runId disk .claimed (.driving false)
      (some (.intent (disk.intent.map fun record => { record with runId := runId })))
  | unnamed : DriverMove sha256Hex runId disk .claimed (.driving false) none
  | execute (before after : Bool) :
      DriverMove sha256Hex runId disk (.driving before) (.driving after) none
  | record (executing : Bool) {input : EventStore.Input} (ordinary : Ordinary input.type) :
      DriverMove sha256Hex runId disk (.driving executing) (.driving executing)
        (some (.record input))
  | save (executing : Bool) (state : RunState) (running : state.status = .running) :
      DriverMove sha256Hex runId disk (.driving executing) (.driving executing)
        (some (.state state))
  | finalize (status : RunStatus) :
      DriverMove sha256Hex runId disk (.driving false) (.cleared status) (some (.intent none))
  | report (status : RunStatus) {input : EventStore.Input} (dirty : input.type = .runEndedDirty) :
      DriverMove sha256Hex runId disk (.cleared status) (.cleared status) (some (.record input))
  | complete (status : RunStatus) (resultRevision : Option JsString) (requirements : Json)
      (id timestamp : Stamp) :
      DriverMove sha256Hex runId disk (.cleared status) (.ended status)
        (some (.event (.completed status resultRevision requirements) id timestamp))
  | persist {status : RunStatus} (state : RunState) (same : state.status = status) :
      DriverMove sha256Hex runId disk (.ended status) (.persisted status) (some (.state state))
  | attest (status : RunStatus) (attestation : EndAttestation) :
      DriverMove sha256Hex runId disk (.persisted status) (.attesting attestation)
        (some (.attestation attestation))
  | attestEvent (attestation : EndAttestation) (id timestamp : Stamp) :
      DriverMove sha256Hex runId disk (.attesting attestation) .attested
        (some (.event (.attested attestation) id timestamp))
  | restore : DriverMove sha256Hex runId disk .attested .returned none

/-- Every step of the driver is one of its moves. -/
theorem driverStep_move (sha256Hex : JsString → JsString) (runId : JsString) (disk : EndDisk)
    (phase : DriverPhase) (step : DriverStep) :
    DriverMove sha256Hex runId disk phase (driverStep sha256Hex runId disk phase step).1
      (driverStep sha256Hex runId disk phase step).2 := by
  unfold driverStep
  split
  next => exact .stay _
  next => exact .stay _
  next gone dead => exact .die ⟨gone, dead⟩
  next written =>
    cases written with
    | false => exact .unnamed
    | true => exact .name
  next => exact .execute _ _
  next => exact .execute _ _
  next executing input =>
    by_cases ordinary : Ordinary input.type
    · rw [if_pos ordinary]
      exact .record executing ordinary
    · rw [if_neg ordinary]
      exact .stay _
  next executing state => exact .save executing _ rfl
  next status => exact .finalize status
  next status input =>
    by_cases dirty : input.type = .runEndedDirty
    · rw [if_pos dirty]
      exact .report status dirty
    · rw [if_neg dirty]
      exact .stay _
  next status resultRevision requirements times => exact .complete status _ _ _ _
  next status state => exact .persist _ rfl
  next status specId resultRevision times => exact .attest status _
  next attestation times => exact .attestEvent attestation _ _
  next => exact .restore
  next => exact .stay _

/-- The driver dies in a step of its own only. -/
theorem driverStep_died {sha256Hex : JsString → JsString} {runId : JsString} {disk : EndDisk}
    {phase : DriverPhase} {step : DriverStep}
    (died : (driverStep sha256Hex runId disk phase step).1 = .died) :
    phase = .died ∨ step = .die := by
  unfold driverStep at died
  split at died
  case h_2 => exact Or.inl rfl
  case h_3 => exact Or.inr rfl
  case h_16 => exact Or.inl died
  all_goals cases died

/-- A cancellation that may still fail or be incomplete. -/
def CancelPhase.CanRefuse : CancelPhase → Prop
  | .idle => True
  | .arbitrating _ _ => True
  | .waiting _ => True
  | _ => False

/-- A recovery that may still be incomplete or find no record. -/
def RecoveryPhase.CanRefuse : RecoveryPhase → Prop
  | .idle => True
  | .verified _ _ => True
  | .attested _ => True
  | _ => False

/-- The moves of a cancellation. -/
inductive CancelMove (runId : JsString) (disk : EndDisk) :
    CancelPhase → CancelPhase → Option EndWrite → Prop where
  | refuse {phase : CancelPhase} (can : phase.CanRefuse) {status : CancelStatus}
      (refused : status ≠ .cancelled) : CancelMove runId disk phase (.returned status) none
  | stay (status : CancelStatus) :
      CancelMove runId disk (.returned status) (.returned status) none
  | find {state : RunState} (persisted : disk.state = some state)
      (running : state.status = .running) : CancelMove runId disk .idle (.found state) none
  /-- The record is not there, or is the one of another run. -/
  | legacy (state : RunState)
      (other : ∀ record, disk.intent = some record → record.runId ≠ runId) :
      CancelMove runId disk (.found state) (.finalizing state) none
  | request {record : ExecutionIntent} (state : RunState) (intent : disk.intent = some record)
      (same : record.runId = runId) :
      CancelMove runId disk (.found state) (.arbitrating state false) none
  | rejoin (state : RunState) : CancelMove runId disk (.found state) (.waiting state) none
  | resume {record : ExecutionIntent} (state : RunState) (intent : disk.intent = some record)
      (same : record.runId = runId) :
      CancelMove runId disk (.found state) (.escalating state) none
  | arbitrate (state : RunState) (escalates : Bool) {record : ExecutionIntent}
      (intent : disk.intent = some record) :
      CancelMove runId disk (.arbitrating state escalates) (.recording state escalates record) none
  | record (state : RunState) (escalates : Bool) (record : ExecutionIntent) :
      CancelMove runId disk (.recording state escalates record)
        (if escalates then .signalling state else .waiting state)
        (some (.intent (some { record with cause := causeAfter escalates })))
  | wait (state : RunState) : CancelMove runId disk (.waiting state) (.waiting state) none
  | observe (state : RunState) {persisted : RunState} (there : disk.state = some persisted)
      (final : persisted.status ≠ .running) :
      CancelMove runId disk (.waiting state) (.returned .cancelled) none
  | expire {record : ExecutionIntent} (state : RunState) (intent : disk.intent = some record)
      (same : record.runId = runId) :
      CancelMove runId disk (.waiting state) (.escalating state) none
  | escalate {record : ExecutionIntent} (state : RunState) (intent : disk.intent = some record) :
      CancelMove runId disk (.escalating state) (.arbitrating state true) none
  | signal (state : RunState) :
      CancelMove runId disk (.escalating state) (.signalling state) none
  | signalled (state : RunState) :
      CancelMove runId disk (.signalling state) (.stopping state) none
  | stopped (state : RunState) :
      CancelMove runId disk (.stopping state) (.finalizing state) none
  | complete (state : RunState) (tasks : Json) (id timestamp : Stamp) :
      CancelMove runId disk (.finalizing state) (.ended state)
        (some (.event (.cancelled tasks) id timestamp))
  | persist (state : RunState) (written : RunState) (cancelled : written.status = .cancelled) :
      CancelMove runId disk (.ended state) (.persisted state) (some (.state written))
  | attest (state : RunState) (attestation : EndAttestation) :
      CancelMove runId disk (.persisted state) (.attesting attestation)
        (some (.attestation attestation))
  | attestEvent (attestation : EndAttestation) (id timestamp : Stamp) :
      CancelMove runId disk (.attesting attestation) (.returned .cancelled)
        (some (.event (.attested attestation) id timestamp))

/-- Every step of a cancellation is one of its moves. -/
theorem cancelStep_move (sha256Hex : JsString → JsString) (runId : JsString)
    (surroundings : CancelSurroundings) (disk : EndDisk) (phase : CancelPhase) :
    CancelMove runId disk phase (cancelStep sha256Hex runId surroundings disk phase).1
      (cancelStep sha256Hex runId surroundings disk phase).2 := by
  cases phase with
  | idle =>
      rw [cancelStep]
      split
      next => exact .refuse (by trivial) CancelStatus.noConfusion
      next state persisted =>
        split
        next running => exact .find persisted running
        next => exact .refuse (by trivial) CancelStatus.noConfusion
  | found state =>
      rw [cancelStep, chooseCancel]
      split
      next absent =>
        refine .legacy state fun record present => ?_
        rw [absent] at present
        cases present
      next record intent =>
        by_cases same : record.runId = runId
        · rw [if_pos same]
          cases record.cause with
          | none => exact .request state intent same
          | cancelRequested => exact .rejoin state
          | cancelEscalated => exact .resume state intent same
        · rw [if_neg same]
          refine .legacy state fun other present => ?_
          rw [intent] at present
          cases present
          exact same
  | arbitrating state escalates =>
      rw [cancelStep]
      split
      next => exact .refuse (by trivial) CancelStatus.noConfusion
      next record intent =>
        split
        next => exact .arbitrate state escalates intent
        next => exact .refuse (by trivial) CancelStatus.noConfusion
  | recording state escalates record => exact .record state escalates record
  | waiting state =>
      rw [cancelStep]
      split
      next =>
        rw [expireCancel]
        split
        next => exact .refuse (by trivial) CancelStatus.noConfusion
        next record intent =>
          split
          next same => exact .expire state intent same.1
          next => exact .refuse (by trivial) CancelStatus.noConfusion
      next =>
        split
        next => exact .wait state
        next final =>
          cases persisted : disk.state with
          | none =>
              rw [persisted] at final
              exact absurd rfl final
          | some written =>
              rw [persisted] at final
              exact .observe state persisted final
  | escalating state =>
      rw [cancelStep]
      split
      next requested =>
        obtain ⟨record, intent, -⟩ := Option.map_eq_some_iff.mp requested
        exact .escalate state intent
      next => exact .signal state
  | signalling state => exact .signalled state
  | stopping state => exact .stopped state
  | finalizing state => exact .complete state _ _ _
  | ended state => exact .persist state _ rfl
  | persisted state => exact .attest state _
  | attesting attestation => exact .attestEvent attestation _ _
  | returned status => exact .stay status

/-- The moves of a recovery. -/
inductive RecoveryMove (disk : EndDisk) :
    RecoveryPhase → RecoveryPhase → Option EndWrite → Prop where
  | refuse {phase : RecoveryPhase} (can : phase.CanRefuse) (status : RecoveryStatus) :
      RecoveryMove disk phase (.returned status) none
  | verify {record : ExecutionIntent} (intent : disk.intent = some record)
      (unverified : List ProcessId) : RecoveryMove disk .idle (.verified record unverified) none
  | known (record : ExecutionIntent) (unverified : List ProcessId) (ended : disk.ended = true) :
      RecoveryMove disk (.verified record unverified) (.settled record) none
  | unknown (record : ExecutionIntent) (unverified : List ProcessId) (running : disk.ended = false) :
      RecoveryMove disk (.verified record unverified) (.finalizing record unverified) none
  | complete (record : ExecutionIntent) (unverified : List ProcessId) (id timestamp : Stamp) :
      RecoveryMove disk (.finalizing record unverified) (.ended record)
        (some (.event (.recovered (deriveTerminalOutcome record.cause) record.cause unverified) id
          timestamp))
  | persist (record : ExecutionIntent) (state : RunState) (cancelled : state.status = .cancelled) :
      RecoveryMove disk (.ended record) (.settled record) (some (.state state))
  | pass (record : ExecutionIntent) (absent : disk.state = none) :
      RecoveryMove disk (.ended record) (.settled record) none
  | attest (record : ExecutionIntent) (attestation : EndAttestation) :
      RecoveryMove disk (.settled record) (.attesting record attestation)
        (some (.attestation attestation))
  | attestEvent (record : ExecutionIntent) (attestation : EndAttestation) (id timestamp : Stamp) :
      RecoveryMove disk (.attesting record attestation) (.attested record)
        (some (.event (.attested attestation) id timestamp))
  | check (record : ExecutionIntent) :
      RecoveryMove disk (.attested record) (.checking record) (some (.recoveryCheck true))
  | checked (record : ExecutionIntent) :
      RecoveryMove disk (.checking record) (.clearing record) (some (.recoveryCheck false))
  | clear (record : ExecutionIntent) :
      RecoveryMove disk (.clearing record) (.returned .recovered) (some (.intent none))
  | again (status : RecoveryStatus) : RecoveryMove disk (.returned status) .idle none

/-- Every step of a recovery is one of its moves. -/
theorem recoveryStep_move (sha256Hex : JsString → JsString) (times : EndTimes)
    (attempt : RecoveryAttempt) (disk : EndDisk) (phase : RecoveryPhase) :
    RecoveryMove disk phase (recoveryStep sha256Hex times attempt disk phase).1
      (recoveryStep sha256Hex times attempt disk phase).2 := by
  cases phase with
  | idle =>
      rw [recoveryStep]
      split
      next => exact .refuse (by trivial) _
      next record intent =>
        split
        next => exact .refuse (by trivial) _
        next => exact .verify intent _
  | verified record unverified =>
      rw [recoveryStep]
      split
      next => exact .refuse (by trivial) _
      next =>
        by_cases ended : disk.ended = true
        · rw [if_pos ended]
          exact .known record unverified ended
        · rw [if_neg ended]
          exact .unknown record unverified (Bool.eq_false_of_not_eq_true ended)
  | finalizing record unverified => exact .complete record unverified _ _
  | ended record =>
      rw [recoveryStep]
      cases persisted : disk.state with
      | none => exact .pass record persisted
      | some state => exact .persist record _ rfl
  | settled record => exact .attest record _
  | attesting record attestation => exact .attestEvent record attestation _ _
  | attested record =>
      rw [recoveryStep]
      split
      next => exact .check record
      next => exact .refuse (by trivial) _
  | checking record => exact .checked record
  | clearing record => exact .clear record
  | returned status => exact .again status

/-- A step of a recovery that is left alone. -/
def recoveryTurn (sha256Hex : JsString → JsString) (times : EndTimes) (attempt : RecoveryAttempt)
    (before : EndDisk × RecoveryPhase) : EndDisk × RecoveryPhase :=
  let (phase, write) := recoveryStep sha256Hex times attempt before.1 before.2
  (before.1.writes sha256Hex write, phase)

section Alone

variable {sha256Hex : JsString → JsString} {times : EndTimes} {attempt : RecoveryAttempt}

/-- The steps of `writeTerminalEvent`. -/
theorem recoveryTurn_ended {disk : EndDisk} (record : ExecutionIntent) (runDir : disk.runDir = true) :
    ∃ count, (recoveryTurn sha256Hex times attempt)^[count]
        (disk, .verified record (verifyWorkers attempt record.workers)) =
      (endedDisk sha256Hex times attempt record disk, .settled record) := by
  by_cases ended : disk.ended = true
  · refine ⟨1, ?_⟩
    rw [Function.iterate_one, recoveryTurn, recoveryStep, endedDisk_of_ended ended]
    simp only [runDir, ended, not_true_eq_false, if_false, if_true]
    rfl
  · have running := Bool.eq_false_of_not_eq_true ended
    have first : recoveryTurn sha256Hex times attempt
        (disk, .verified record (verifyWorkers attempt record.workers)) =
        (disk, .finalizing record (verifyWorkers attempt record.workers)) := by
      rw [recoveryTurn, recoveryStep]
      simp only [runDir, running, not_true_eq_false, if_false, Bool.false_eq_true]
      rfl
    refine ⟨3, ?_⟩
    rw [Function.iterate_succ_apply, first, endedDisk, terminalWrites, if_neg ended]
    obtain ⟨there, events, evidence, state, attestation, intent, check⟩ := disk
    cases state with
    | none => rfl
    | some persisted => rfl

/-- The steps after it. -/
theorem recoveryTurn_finished (record : ExecutionIntent) (disk : EndDisk) :
    ∃ count, (recoveryTurn sha256Hex times attempt)^[count] (disk, .settled record) =
      if attempt.writable then
        (CrashPoints.perform (EndWrite.apply sha256Hex)
          (finishingWrites sha256Hex times record disk) disk, .returned .recovered)
      else
        (CrashPoints.perform (EndWrite.apply sha256Hex)
          (attestationWrites sha256Hex times record disk) disk, .returned .incomplete) := by
  by_cases writable : attempt.writable = true
  · refine ⟨5, ?_⟩
    simp only [Function.iterate_succ_apply, Function.iterate_zero_apply, recoveryTurn,
      recoveryStep, writable, if_true]
    rfl
  · refine ⟨3, ?_⟩
    simp only [Function.iterate_succ_apply, Function.iterate_zero_apply, recoveryTurn,
      recoveryStep, writable, if_false, Bool.false_eq_true]
    rfl

/-- A recovery that is left alone makes the writes of `runRecovery` and returns its status. -/
theorem recoveryTurn_alone (disk : EndDisk) :
    ∃ count, (recoveryTurn sha256Hex times attempt)^[count] (disk, .idle) =
      (afterRecovery sha256Hex times attempt disk,
        .returned (runRecovery sha256Hex times attempt disk).1) := by
  rw [afterRecovery, CrashPoints.completed, recoveryWrites, runRecovery]
  cases intent : disk.intent with
  | none =>
      refine ⟨1, ?_⟩
      rw [Function.iterate_one, recoveryTurn, recoveryStep, intent]
      rfl
  | some record =>
      by_cases refused : verifyWorkers attempt record.workers ≠ [] ∧ ¬ attempt.confirmed = true
      · refine ⟨1, ?_⟩
        rw [Function.iterate_one, recoveryTurn, recoveryStep, intent]
        simp only [if_pos refused]
        rfl
      · have verified : recoveryTurn sha256Hex times attempt (disk, .idle) =
            (disk, .verified record (verifyWorkers attempt record.workers)) := by
          rw [recoveryTurn, recoveryStep, intent]
          simp only [if_neg refused]
          rfl
        simp only [if_neg refused]
        by_cases runDir : disk.runDir = true
        · obtain ⟨first, ended⟩ := @recoveryTurn_ended sha256Hex times attempt disk record runDir
          obtain ⟨second, finished⟩ := @recoveryTurn_finished sha256Hex times attempt record
            (endedDisk sha256Hex times attempt record disk)
          refine ⟨second + first + 1, ?_⟩
          rw [Function.iterate_succ_apply, verified, Function.iterate_add_apply, ended, finished]
          simp only [runDir, not_true_eq_false, if_false]
          by_cases writable : attempt.writable = true
          · simp only [if_pos writable, CrashPoints.perform_append]
            rfl
          · simp only [if_neg writable, CrashPoints.perform_append]
            rfl
        · refine ⟨2, ?_⟩
          rw [Function.iterate_succ_apply, verified, Function.iterate_one, recoveryTurn,
            recoveryStep]
          simp only [runDir, Bool.false_eq_true, not_false_eq_true, if_true]
          rfl

end Alone

end SpecAsCode.Runtime
