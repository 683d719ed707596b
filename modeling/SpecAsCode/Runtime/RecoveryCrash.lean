import SpecAsCode.Lib.CrashPoints
import SpecAsCode.Runtime.RunEnding

/-!
# Interrupted recoveries

A recovery ends an interrupted run in steps, each of which is to be idempotent: the terminal
event and the state, the attestation, the check of the workspace, and at last the safety
block.
-/

namespace SpecAsCode.Runtime

open SpecAsCode.Js
open SpecAsCode.Schema
open SpecAsCode.Verifier
open SpecAsCode.CrashPoints

/-- What a recovery finds outside of the disk: the host it runs on, which workers survive their
termination, whether the caller confirms, and whether the workspace can be written. -/
structure RecoveryAttempt where
  host : JsString
  survives : WorkerIdentity → Bool
  confirmed : Bool
  writable : Bool

inductive RecoveryStatus where
  | recovered
  | incomplete
  | noBlock
  deriving DecidableEq, Repr

/-- `deriveTerminalOutcome`. -/
def deriveTerminalOutcome : InterruptionCause → JsString
  | .none => js "recovered"
  | .cancelRequested => js "cancelled"
  | .cancelEscalated => js "cancelled"

/-- `verifyWorkers`: the workers that are alive or belong to another host. -/
def verifyWorkers (attempt : RecoveryAttempt) (workers : List WorkerIdentity) : List ProcessId :=
  (workers.filter fun worker => attempt.survives worker || worker.host != attempt.host).map
    fun worker => worker.pid

section Recovery

variable (sha256Hex : JsString → JsString) (times : EndTimes) (attempt : RecoveryAttempt)

/-- `writeTerminalEvent`. -/
def terminalWrites (record : ExecutionIntent) (disk : EndDisk) : List EndWrite :=
  if disk.ended then
    []
  else
    .event (.recovered (deriveTerminalOutcome record.cause) record.cause
        (verifyWorkers attempt record.workers)) times.completedId times.completedAt ::
      (disk.state.map fun state => EndWrite.state
        { state with status := .cancelled, updatedAt := times.updatedAt }).toList

/-- The disk after the steps of `writeTerminalEvent`. -/
def endedDisk (record : ExecutionIntent) (disk : EndDisk) : EndDisk :=
  perform (EndWrite.apply sha256Hex) (terminalWrites times attempt record disk) disk

/-- The attestation of a recovery. -/
def recoveryAttestation (record : ExecutionIntent) (disk : EndDisk) : EndAttestation :=
  disk.attest sha256Hex record.runId ((disk.state.map RunState.specId).getD [])
    (deriveTerminalOutcome record.cause) none times.attestedAt

/-- `persistRecoveryAttestation`. -/
def attestationWrites (record : ExecutionIntent) (disk : EndDisk) : List EndWrite :=
  [.attestation (recoveryAttestation sha256Hex times record disk),
    .event (.attested (recoveryAttestation sha256Hex times record disk)) times.attestedId
      times.attestedEventAt]

/-- The steps after `writeTerminalEvent`.  The branch restoration of a recovery accepts what it
finds. -/
def finishingWrites (record : ExecutionIntent) (disk : EndDisk) : List EndWrite :=
  attestationWrites sha256Hex times record disk ++
    [.recoveryCheck true, .recoveryCheck false, .intent none]

/-- `runRecovery` under the lock: its status and its writes. -/
def runRecovery (disk : EndDisk) : RecoveryStatus × List EndWrite :=
  match disk.intent with
  | none => (.noBlock, [])
  | some record =>
      if verifyWorkers attempt record.workers ≠ [] ∧ ¬ attempt.confirmed then
        (.incomplete, [])
      else if ¬ disk.runDir then
        (.incomplete, [])
      else
        let terminal := terminalWrites times attempt record disk
        let ended := endedDisk sha256Hex times attempt record disk
        if attempt.writable then
          (.recovered, terminal ++ finishingWrites sha256Hex times record ended)
        else
          -- the check of the workspace fails
          (.incomplete, terminal ++ attestationWrites sha256Hex times record ended)

/-- The writes of a recovery. -/
def recoveryWrites (disk : EndDisk) : List EndWrite :=
  (runRecovery sha256Hex times attempt disk).2

/-- The disk after a recovery. -/
def afterRecovery (disk : EndDisk) : EndDisk :=
  completed (EndWrite.apply sha256Hex) (recoveryWrites sha256Hex times attempt) disk

/-- The disk after a recovery that crashed after some writes. -/
def interruptedRecovery (count : Nat) (disk : EndDisk) : EndDisk :=
  crashed (EndWrite.apply sha256Hex) (recoveryWrites sha256Hex times attempt) count disk

end Recovery

/-! ## What a recovery leaves -/

/-- What recoveries at different times are compared in: the payloads of the terminal events, the
state but for the time of its last change, the attestation but for its time and for the digest
of the last event, which has an identifier and a time of its own, and the safety block. -/
structure RecoveryOutcome where
  terminal : List Members
  state : Option RunState
  attestation : Option EndAttestation
  intent : Option ExecutionIntent

def EndDisk.outcome (disk : EndDisk) : RecoveryOutcome where
  terminal := disk.terminal.map Event.payload
  state := disk.state.map fun state => { state with updatedAt := [] }
  attestation := disk.attestation.map fun attestation =>
    { attestation with eventChainHead := [], attestedAt := [] }
  intent := disk.intent

/-- The state is terminal and has the status of the log. -/
def EndDisk.Settled (disk : EndDisk) : Prop :=
  ∀ state, disk.state = some state →
    state.status ≠ .running ∧ state.status.text = disk.replayed

/-- A retry leaves what one recovery would have left: the same outcome, a settled state and no
safety block. -/
structure Restarted (retried uninterrupted : EndDisk) : Prop where
  outcome : retried.outcome = uninterrupted.outcome
  settled : retried.Settled
  cleared : retried.intent = none

/-- The steps of `writeTerminalEvent`. -/
def EndDisk.terminalSteps (disk : EndDisk) : Nat :=
  if disk.ended then 0 else if disk.state.isSome then 2 else 1

/-- Where a recovery may be interrupted on which disks. -/
structure RestartsCleanly (disk : EndDisk) (record : ExecutionIntent) (count : Nat) : Prop where
  /-- With a terminal event the state is settled already; else the cause is a cancellation, or
  there is no state. -/
  settled : if disk.ended then disk.Settled else disk.state.isSome → record.cause ≠ .none
  /-- Not between the terminal event and the state, unless the state is cancelled already. -/
  persisted : disk.ended = false → count = 1 → ∀ state, disk.state = some state →
    state.status = .cancelled
  /-- Not between the event `RUN_ATTESTED` and the end. -/
  attested : count < disk.terminalSteps + 2 ∨ disk.terminalSteps + 5 ≤ count

/-- A recovery runs to its end. -/
structure Recoverable (attempt : RecoveryAttempt) (disk : EndDisk) (record : ExecutionIntent) :
    Prop where
  intent : disk.intent = some record
  workers : verifyWorkers attempt record.workers = [] ∨ attempt.confirmed = true
  runDir : disk.runDir = true
  writable : attempt.writable = true

section Proofs

variable {sha256Hex : JsString → JsString} {times : EndTimes} {attempt : RecoveryAttempt}
  {disk : EndDisk} {record : ExecutionIntent}

theorem runRecovery_of_recoverable (recoverable : Recoverable attempt disk record) :
    runRecovery sha256Hex times attempt disk = (.recovered,
      terminalWrites times attempt record disk ++ finishingWrites sha256Hex times record
        (endedDisk sha256Hex times attempt record disk)) := by
  have verified : ¬ (verifyWorkers attempt record.workers ≠ [] ∧ ¬ attempt.confirmed = true) := by
    rintro ⟨unverified, unconfirmed⟩
    exact recoverable.workers.elim unverified unconfirmed
  rw [runRecovery, recoverable.intent]
  simp only [if_neg verified, recoverable.runDir, recoverable.writable, not_true_eq_false,
    if_false, if_true]

/-- A recovery reports success exactly when it runs to its end. -/
theorem runRecovery_recovered_iff :
    (runRecovery sha256Hex times attempt disk).1 = .recovered ↔
      ∃ record, Recoverable attempt disk record := by
  constructor
  · intro recovered
    rw [runRecovery] at recovered
    split at recovered
    next => cases recovered
    next record intent =>
      split at recovered
      next => cases recovered
      next verified =>
        split at recovered
        next => cases recovered
        next runDir =>
          simp only at recovered
          split at recovered
          next writable =>
            refine ⟨record, intent, ?_, by simpa using runDir, writable⟩
            by_contra failed
            exact verified (not_or.mp failed)
          next => cases recovered
  · rintro ⟨record, recoverable⟩
    rw [runRecovery_of_recoverable recoverable]

/-! ## The steps of a recovery -/

theorem terminalWrites_length :
    (terminalWrites times attempt record disk).length = disk.terminalSteps := by
  rw [terminalWrites, EndDisk.terminalSteps]
  by_cases ended : disk.ended = true
  · rw [if_pos ended, if_pos ended]
    rfl
  · rw [if_neg ended, if_neg ended]
    cases disk.state <;> rfl

theorem endedDisk_of_ended (ended : disk.ended = true) :
    endedDisk sha256Hex times attempt record disk = disk := by
  rw [endedDisk, terminalWrites, if_pos ended, perform_nil]

/-- What the terminal event and the state of a recovery leave. -/
structure EndsWith (record : ExecutionIntent) (unverified : List ProcessId) (disk after : EndDisk) :
    Prop where
  terminal : after.terminal.map Event.payload = disk.terminal.map Event.payload ++
    [fieldMembers (EndEvent.recovered (deriveTerminalOutcome record.cause) record.cause
      unverified).fields]
  ended : after.ended = true
  replayed : after.replayed = deriveTerminalOutcome record.cause
  length : after.events.log.records.length = disk.events.log.records.length + 1
  evidence : after.evidence = disk.evidence
  intent : after.intent = disk.intent
  runDir : after.runDir = disk.runDir

theorem endsWith_event (id timestamp : Stamp) (unverified : List ProcessId) :
    EndsWith record unverified disk (EndWrite.apply sha256Hex
      (.event (.recovered (deriveTerminalOutcome record.cause) record.cause unverified) id
        timestamp) disk) := by
  obtain ⟨terminal, ended, replayed⟩ := @EndDisk.terminal_event sha256Hex disk
    (.recovered (deriveTerminalOutcome record.cause) record.cause unverified) _ rfl rfl id timestamp
  exact ⟨terminal, ended, replayed, List.length_append, rfl, rfl, rfl⟩

theorem endsWith_endedDisk (running : disk.ended = false) :
    EndsWith record (verifyWorkers attempt record.workers) disk
        (endedDisk sha256Hex times attempt record disk) ∧
      (endedDisk sha256Hex times attempt record disk).state = disk.state.map fun state =>
        { state with status := .cancelled, updatedAt := times.updatedAt } := by
  have step := @endsWith_event sha256Hex disk record times.completedId times.completedAt
    (verifyWorkers attempt record.workers)
  rw [endedDisk, terminalWrites, running, if_neg Bool.false_ne_true, perform_cons]
  obtain ⟨terminal, ended, replayed, length, evidence, intent, runDir⟩ := step
  cases state : disk.state with
  | none => exact ⟨⟨terminal, ended, replayed, length, evidence, intent, runDir⟩, state⟩
  | some persisted => exact ⟨⟨terminal, ended, replayed, length, evidence, intent, runDir⟩, rfl⟩

/-- What the first steps after the terminal event leave. -/
structure Finishing (attestation : EndAttestation) (count : Nat) (disk after : EndDisk) :
    Prop where
  terminal : after.terminal = disk.terminal
  ended : after.ended = disk.ended
  replayed : after.replayed = disk.replayed
  length : after.events.log.records.length =
    disk.events.log.records.length + if 2 ≤ count then 1 else 0
  evidence : after.evidence = disk.evidence
  state : after.state = disk.state
  attestation : after.attestation = if 1 ≤ count then some attestation else disk.attestation
  intent : after.intent = if 5 ≤ count then none else disk.intent
  runDir : after.runDir = disk.runDir

theorem finishing_take (count : Nat) :
    Finishing (recoveryAttestation sha256Hex times record disk) count disk
      (perform (EndWrite.apply sha256Hex)
        ((finishingWrites sha256Hex times record disk).take count) disk) := by
  obtain ⟨terminal, ended, replayed⟩ := @EndDisk.attested_event sha256Hex
    (EndWrite.apply sha256Hex (.attestation (recoveryAttestation sha256Hex times record disk)) disk)
    (recoveryAttestation sha256Hex times record disk) times.attestedId times.attestedEventAt
  match count with
  | 0 => exact ⟨rfl, rfl, rfl, rfl, rfl, rfl, rfl, rfl, rfl⟩
  | 1 => exact ⟨rfl, rfl, rfl, rfl, rfl, rfl, rfl, rfl, rfl⟩
  | 2 => exact ⟨terminal, ended, replayed, List.length_append, rfl, rfl, rfl, rfl, rfl⟩
  | 3 => exact ⟨terminal, ended, replayed, List.length_append, rfl, rfl, rfl, rfl, rfl⟩
  | 4 => exact ⟨terminal, ended, replayed, List.length_append, rfl, rfl, rfl, rfl, rfl⟩
  | later + 5 =>
      have all : (finishingWrites sha256Hex times record disk).take (later + 5) =
          finishingWrites sha256Hex times record disk := List.take_of_length_le (by
        show 5 ≤ later + 5
        omega)
      rw [all]
      refine ⟨terminal, ended, replayed, ?_, rfl, rfl, ?_, ?_, rfl⟩
      · rw [if_pos (by omega)]
        exact List.length_append
      · rw [if_pos (by omega)]
        rfl
      · rw [if_pos (by omega)]
        rfl

/-! ## The retry -/

theorem ended_endedDisk : (endedDisk sha256Hex times attempt record disk).ended = true := by
  by_cases ended : disk.ended = true
  · rw [endedDisk_of_ended ended, ended]
  · exact (endsWith_endedDisk (Bool.eq_false_of_not_eq_true ended)).1.ended

/-- The intent and the directory of the run are left to the later steps. -/
theorem kept_endedDisk :
    (endedDisk sha256Hex times attempt record disk).intent = disk.intent ∧
      (endedDisk sha256Hex times attempt record disk).runDir = disk.runDir := by
  by_cases ended : disk.ended = true
  · rw [endedDisk_of_ended ended]
    exact ⟨rfl, rfl⟩
  · have leaves := (@endsWith_endedDisk sha256Hex times attempt disk record
      (Bool.eq_false_of_not_eq_true ended)).1
    exact ⟨leaves.intent, leaves.runDir⟩

theorem afterRecovery_eq (recoverable : Recoverable attempt disk record) :
    Finishing (recoveryAttestation sha256Hex times record
        (endedDisk sha256Hex times attempt record disk)) 5
      (endedDisk sha256Hex times attempt record disk)
      (afterRecovery sha256Hex times attempt disk) := by
  have step := @finishing_take sha256Hex times
    (endedDisk sha256Hex times attempt record disk) record 5
  rw [afterRecovery, completed, recoveryWrites, runRecovery_of_recoverable recoverable,
    perform_append]
  exact step

/-- The outcome of a recovery, without the times at which it was made. -/
def recoveredOutcome (sha256Hex : JsString → JsString) (record : ExecutionIntent)
    (ended : EndDisk) : RecoveryOutcome where
  terminal := ended.terminal.map Event.payload
  state := ended.state.map fun state => { state with updatedAt := [] }
  attestation := some
    { runId := record.runId
      specId := (ended.state.map RunState.specId).getD []
      status := deriveTerminalOutcome record.cause
      eventCount := ended.events.log.records.length
      eventChainHead := []
      evidenceHead := (evidenceHeadOf sha256Hex ended.evidence.records).toOption.getD []
      resultRevision := none
      attestedAt := [] }
  intent := none

theorem outcome_of_finishing {ended after : EndDisk}
    (finishing : Finishing (recoveryAttestation sha256Hex times record ended) 5 ended after) :
    after.outcome = recoveredOutcome sha256Hex record ended := by
  rw [EndDisk.outcome, finishing.terminal, finishing.state, finishing.attestation,
    finishing.intent]
  rfl

/-- The outcome of a recovery does not depend on its times. -/
theorem outcome_times (recoverable : Recoverable attempt disk record) (again : EndTimes) :
    (afterRecovery sha256Hex again attempt disk).outcome =
      (afterRecovery sha256Hex times attempt disk).outcome := by
  rw [outcome_of_finishing (afterRecovery_eq recoverable),
    outcome_of_finishing (afterRecovery_eq recoverable)]
  by_cases ended : disk.ended = true
  · rw [endedDisk_of_ended ended, endedDisk_of_ended ended]
  · have running := Bool.eq_false_of_not_eq_true ended
    obtain ⟨first, firstState⟩ :=
      @endsWith_endedDisk sha256Hex again attempt disk record running
    obtain ⟨second, secondState⟩ :=
      @endsWith_endedDisk sha256Hex times attempt disk record running
    rw [recoveredOutcome, recoveredOutcome, first.terminal, second.terminal, first.length,
      second.length, first.evidence, second.evidence, firstState, secondState]
    cases disk.state <;> rfl

theorem settled_of_finishing {attestation : EndAttestation} {count : Nat} {ended after : EndDisk}
    (finishing : Finishing attestation count ended after) : after.Settled ↔ ended.Settled := by
  rw [EndDisk.Settled, EndDisk.Settled, finishing.state, finishing.replayed]

theorem deriveTerminalOutcome_eq_cancelled (cause : InterruptionCause) :
    RunStatus.cancelled.text = deriveTerminalOutcome cause ↔ cause ≠ .none := by
  cases cause <;> decide

/-- When the terminal event and the state agree. -/
theorem settled_endedDisk :
    (endedDisk sha256Hex times attempt record disk).Settled ↔
      if disk.ended then disk.Settled else disk.state.isSome → record.cause ≠ .none := by
  by_cases ended : disk.ended = true
  · rw [endedDisk_of_ended ended, if_pos ended]
  · rw [if_neg ended]
    obtain ⟨leaves, state⟩ := @endsWith_endedDisk sha256Hex times attempt disk record
      (Bool.eq_false_of_not_eq_true ended)
    rw [EndDisk.Settled, state, leaves.replayed]
    cases disk.state with
    | none => simp
    | some persisted =>
        rw [← deriveTerminalOutcome_eq_cancelled]
        constructor
        · exact fun settled _ => (settled _ rfl).2
        · intro agrees written found
          cases found
          exact ⟨RunStatus.noConfusion, agrees rfl⟩

/-- A crash after the terminal event and the state were written. -/
theorem interrupted_late (recoverable : Recoverable attempt disk record) {count : Nat}
    (late : disk.terminalSteps ≤ count) :
    interruptedRecovery sha256Hex times attempt count disk =
      perform (EndWrite.apply sha256Hex)
        ((finishingWrites sha256Hex times record
          (endedDisk sha256Hex times attempt record disk)).take (count - disk.terminalSteps))
        (endedDisk sha256Hex times attempt record disk) := by
  have past : (terminalWrites times attempt record disk).length ≤ count := by
    rwa [terminalWrites_length]
  rw [interruptedRecovery, crashed, recoveryWrites, runRecovery_of_recoverable recoverable,
    List.take_append, List.take_of_length_le past, perform_append, terminalWrites_length]
  rfl

/-- Once the block is cleared, the retry finds nothing to do. -/
theorem restarted_cleared (recoverable : Recoverable attempt disk record) (again : EndTimes)
    {count : Nat} (cleared : disk.terminalSteps + 5 ≤ count) :
    Restarted (afterRecovery sha256Hex again attempt
        (interruptedRecovery sha256Hex times attempt count disk))
        (afterRecovery sha256Hex times attempt disk) ↔
      (endedDisk sha256Hex times attempt record disk).Settled := by
  have reference := @afterRecovery_eq sha256Hex times attempt disk record recoverable
  have all : interruptedRecovery sha256Hex times attempt count disk =
      afterRecovery sha256Hex times attempt disk := by
    rw [interruptedRecovery, afterRecovery]
    apply crashed_all
    rw [recoveryWrites, runRecovery_of_recoverable recoverable, List.length_append,
      terminalWrites_length]
    exact cleared
  have intent : (afterRecovery sha256Hex times attempt disk).intent = none := reference.intent
  have idle : afterRecovery sha256Hex again attempt (afterRecovery sha256Hex times attempt disk) =
      afterRecovery sha256Hex times attempt disk := by
    apply completed_of_plan_nil
    rw [recoveryWrites, runRecovery, intent]
  rw [all, idle]
  constructor
  · exact fun restarted => (settled_of_finishing reference).mp restarted.settled
  · exact fun settled => ⟨rfl, (settled_of_finishing reference).mpr settled, intent⟩

/-- While the block stands, the retry counts the event of an attestation that was written. -/
theorem outcome_retried {crashedDisk ended after reference : EndDisk} {again : EndTimes}
    {attestation : EndAttestation} {count : Nat}
    (crash : Finishing attestation count ended crashedDisk)
    (retry : Finishing (recoveryAttestation sha256Hex again record crashedDisk) 5 crashedDisk after)
    (whole : Finishing (recoveryAttestation sha256Hex times record ended) 5 ended reference) :
    after.outcome = reference.outcome ↔ count < 2 := by
  rw [outcome_of_finishing retry, outcome_of_finishing whole, recoveredOutcome,
    recoveredOutcome, crash.terminal, crash.state, crash.length, crash.evidence]
  by_cases early : count < 2
  · rw [if_neg (by omega)]
    exact iff_of_true rfl early
  · rw [if_pos (by omega)]
    refine iff_of_false (fun same => ?_) early
    have counts := congrArg (fun outcome => outcome.attestation.map EndAttestation.eventCount) same
    exact absurd (Option.some.inj counts) (Nat.succ_ne_self _)

/-- The retry after such a crash. -/
theorem restarted_late (recoverable : Recoverable attempt disk record) (again : EndTimes)
    {count : Nat} (late : disk.terminalSteps ≤ count) :
    Restarted (afterRecovery sha256Hex again attempt
        (interruptedRecovery sha256Hex times attempt count disk))
        (afterRecovery sha256Hex times attempt disk) ↔
      (endedDisk sha256Hex times attempt record disk).Settled ∧
        (count < disk.terminalSteps + 2 ∨ disk.terminalSteps + 5 ≤ count) := by
  by_cases cleared : disk.terminalSteps + 5 ≤ count
  · rw [restarted_cleared recoverable again cleared]
    exact (and_iff_left (Or.inr cleared)).symm
  · have crash := @finishing_take sha256Hex times
      (endedDisk sha256Hex times attempt record disk) record (count - disk.terminalSteps)
    rw [← interrupted_late recoverable late] at crash
    obtain ⟨keptIntent, keptDir⟩ := @kept_endedDisk sha256Hex times attempt disk record
    have intent : (interruptedRecovery sha256Hex times attempt count disk).intent =
        some record := by
      rw [crash.intent, if_neg (by omega), keptIntent, recoverable.intent]
    have runDir : (interruptedRecovery sha256Hex times attempt count disk).runDir = true := by
      rw [crash.runDir, keptDir, recoverable.runDir]
    have retry := @afterRecovery_eq sha256Hex again attempt
      (interruptedRecovery sha256Hex times attempt count disk) record
      ⟨intent, recoverable.workers, runDir, recoverable.writable⟩
    rw [endedDisk_of_ended (crash.ended.trans ended_endedDisk)] at retry
    have outcome := outcome_retried crash retry (afterRecovery_eq recoverable)
    have settled := (settled_of_finishing retry).trans (settled_of_finishing crash)
    constructor
    · intro restarted
      have early := outcome.mp restarted.outcome
      exact ⟨settled.mp restarted.settled, Or.inl (by omega)⟩
    · rintro ⟨agrees, early | all⟩
      · exact ⟨outcome.mpr (by omega), settled.mpr agrees, retry.intent⟩
      · exact absurd all cleared

/-- The retry after a crash between the terminal event and the state. -/
theorem restarted_between (recoverable : Recoverable attempt disk record) (again : EndTimes)
    (running : disk.ended = false) {state : RunState} (persisted : disk.state = some state) :
    Restarted (afterRecovery sha256Hex again attempt
        (interruptedRecovery sha256Hex times attempt 1 disk))
        (afterRecovery sha256Hex times attempt disk) ↔
      state.status = .cancelled ∧ record.cause ≠ .none := by
  have reference := @afterRecovery_eq sha256Hex times attempt disk record recoverable
  obtain ⟨leaves, leftState⟩ := @endsWith_endedDisk sha256Hex times attempt disk record running
  have crash := @endsWith_event sha256Hex disk record times.completedId times.completedAt
    (verifyWorkers attempt record.workers)
  have interrupted : interruptedRecovery sha256Hex times attempt 1 disk =
      EndWrite.apply sha256Hex (.event (.recovered (deriveTerminalOutcome record.cause)
        record.cause (verifyWorkers attempt record.workers)) times.completedId
        times.completedAt) disk := by
    rw [interruptedRecovery, crashed, recoveryWrites, runRecovery_of_recoverable recoverable,
      terminalWrites, running]
    rfl
  have stays : (interruptedRecovery sha256Hex times attempt 1 disk).state = some state := by
    rw [interrupted]
    exact persisted
  rw [← interrupted] at crash
  have retry := @afterRecovery_eq sha256Hex again attempt
    (interruptedRecovery sha256Hex times attempt 1 disk) record
    ⟨crash.intent.trans recoverable.intent, recoverable.workers,
      crash.runDir.trans recoverable.runDir, recoverable.writable⟩
  rw [endedDisk_of_ended crash.ended] at retry
  have settled : (interruptedRecovery sha256Hex times attempt 1 disk).Settled ↔
      state.status ≠ .running ∧ state.status.text = deriveTerminalOutcome record.cause := by
    rw [EndDisk.Settled, stays, crash.replayed]
    exact ⟨fun all => all state rfl, fun one other found => Option.some.inj found ▸ one⟩
  constructor
  · intro restarted
    have states := congrArg (fun outcome => outcome.state.map RunState.status) restarted.outcome
    rw [outcome_of_finishing retry, outcome_of_finishing reference, recoveredOutcome,
      recoveredOutcome, stays, leftState, persisted] at states
    have cancelled : state.status = .cancelled := Option.some.inj states
    have agrees := (settled.mp ((settled_of_finishing retry).mp restarted.settled)).2
    rw [cancelled, deriveTerminalOutcome_eq_cancelled] at agrees
    exact ⟨cancelled, agrees⟩
  · rintro ⟨cancelled, cause⟩
    refine ⟨?_, (settled_of_finishing retry).mpr (settled.mpr ?_), retry.intent⟩
    · rw [outcome_of_finishing retry, outcome_of_finishing reference, recoveredOutcome,
        recoveredOutcome, crash.terminal, leaves.terminal, crash.length, leaves.length,
        crash.evidence, leaves.evidence, stays, leftState, persisted]
      simp only [Option.map_some, cancelled]
    · rw [cancelled, deriveTerminalOutcome_eq_cancelled]
      exact ⟨RunStatus.noConfusion, cause⟩

/-- The retry after a crash before the first write. -/
theorem restarted_unbegun (recoverable : Recoverable attempt disk record) (again : EndTimes) :
    Restarted (afterRecovery sha256Hex again attempt
        (interruptedRecovery sha256Hex times attempt 0 disk))
        (afterRecovery sha256Hex times attempt disk) ↔
      if disk.ended then disk.Settled else disk.state.isSome → record.cause ≠ .none := by
  have retry := @afterRecovery_eq sha256Hex again attempt disk record recoverable
  rw [← @settled_endedDisk sha256Hex again attempt disk record, ← settled_of_finishing retry]
  exact ⟨fun restarted => restarted.settled,
    fun settled => ⟨outcome_times recoverable again, settled, retry.intent⟩⟩

theorem restarted_iff (recoverable : Recoverable attempt disk record) (again : EndTimes)
    (count : Nat) :
    Restarted (afterRecovery sha256Hex again attempt
        (interruptedRecovery sha256Hex times attempt count disk))
        (afterRecovery sha256Hex times attempt disk) ↔
      RestartsCleanly disk record count := by
  by_cases late : disk.terminalSteps ≤ count
  · rw [restarted_late recoverable again late, settled_endedDisk]
    refine ⟨fun clean => ⟨clean.1, fun running one state persisted => ?_, clean.2⟩,
      fun clean => ⟨clean.settled, clean.attested⟩⟩
    -- with a state on the disk the first crash point is an early one
    rw [EndDisk.terminalSteps, running, persisted, one] at late
    exact absurd (show 2 ≤ 1 from late) (by decide)
  · have running : disk.ended = false := by
      by_contra ended
      rw [EndDisk.terminalSteps, if_pos (Bool.eq_true_of_not_eq_false ended)] at late
      exact late (Nat.zero_le _)
    by_cases unbegun : count = 0
    · subst unbegun
      rw [restarted_unbegun recoverable again]
      exact ⟨fun settled => ⟨settled, fun _ one => absurd one Nat.zero_ne_one, Or.inl (by omega)⟩,
        fun clean => clean.settled⟩
    · obtain ⟨state, persisted⟩ : ∃ state, disk.state = some state := by
        rw [← Option.isSome_iff_exists]
        by_contra absent
        rw [EndDisk.terminalSteps, running, if_neg Bool.false_ne_true, if_neg absent] at late
        omega
      have steps : disk.terminalSteps = 2 := by
        rw [EndDisk.terminalSteps, running, persisted]
        rfl
      obtain rfl : count = 1 := by omega
      rw [restarted_between recoverable again running persisted]
      constructor
      · rintro ⟨cancelled, cause⟩
        refine ⟨?_, fun _ _ other found => Option.some.inj (persisted.symm.trans found) ▸ cancelled,
          Or.inl (by omega)⟩
        rw [running]
        exact fun _ => cause
      · intro clean
        have settled := clean.settled
        rw [running] at settled
        exact ⟨clean.persisted running rfl state persisted,
          settled (Option.isSome_iff_exists.mpr ⟨state, persisted⟩)⟩

end Proofs

/-- A recovery that reports success can be interrupted and made again exactly when the disk and
the crash point are clean ones. -/
theorem recovery_restart_iff (sha256Hex : JsString → JsString) (times again : EndTimes)
    (attempt : RecoveryAttempt) (count : Nat) (disk : EndDisk) :
    ((runRecovery sha256Hex times attempt disk).1 = .recovered →
        Restarted (afterRecovery sha256Hex again attempt
          (interruptedRecovery sha256Hex times attempt count disk))
          (afterRecovery sha256Hex times attempt disk)) ↔
      ∀ record, Recoverable attempt disk record → RestartsCleanly disk record count := by
  constructor
  · intro restarts record recoverable
    exact (restarted_iff recoverable again count).mp
      (restarts (runRecovery_recovered_iff.mpr ⟨record, recoverable⟩))
  · intro clean recovered
    obtain ⟨record, recoverable⟩ := runRecovery_recovered_iff.mp recovered
    exact (restarted_iff recoverable again count).mpr (clean record recoverable)

theorem pid_lt : 4711 < 2 ^ 32 := by
  decide

/-- The record of a run that was asked to stop. -/
def cancelledIntent : ExecutionIntent where
  cause := .cancelRequested
  coordinator := ⟨⟨4711, pid_lt⟩, js "2026-01-01T00:00:00.000Z", js "host"⟩
  workers := []
  startedAt := js "2026-01-01T00:00:01.000Z"
  runId := js "run-1"
  planId := js "PLAN-1"
  restoration := ⟨js "main", js "0a1b2c", js "main"⟩

/-- The state of a run that is executed. -/
def executedState : RunState where
  runId := js "run-1"
  kind := .apply
  specId := js "spec"
  specDigest := js "sha256:1"
  planId := some (js "PLAN-1")
  planDigest := some (js "sha256:2")
  status := .running
  baseRevision := some (js "0a1b2c")
  resultRevision := none
  branch := none
  worktree := none
  createdAt := js "t"
  updatedAt := js "t"
  modelCalls := 0
  replans := 0
  tasks := OrderedMap.empty
  requirements := OrderedMap.empty

/-- The disk of a run whose coordinator died. -/
def abandonedRun : EndDisk where
  runDir := true
  events := EventStore.fresh (js "run-1")
  evidence := HashChain.Log.empty
  state := some executedState
  attestation := none
  intent := some cancelledIntent
  recoveryCheck := false

def writableWorkspace : RecoveryAttempt where
  host := js "host"
  survives _ := false
  confirmed := false
  writable := true

theorem firstEvent_ne_nil : js "e1" ≠ [] := by
  decide

theorem secondEvent_ne_nil : js "e2" ≠ [] := by
  decide

theorem eventTime_ne_nil : js "t" ≠ [] := by
  decide

def recoveryTimes : EndTimes where
  completedId := ⟨js "e1", firstEvent_ne_nil⟩
  completedAt := ⟨js "t", eventTime_ne_nil⟩
  attestedId := ⟨js "e2", secondEvent_ne_nil⟩
  attestedEventAt := ⟨js "t", eventTime_ne_nil⟩
  updatedAt := js "t"
  attestedAt := js "t"

/-- A recovery that dies after the terminal event is not completed by the next one: the state
stays the one of a run that is executed. -/
theorem recovery_interrupted_after_event :
    ¬ ((runRecovery id recoveryTimes writableWorkspace abandonedRun).1 = .recovered →
        Restarted (afterRecovery id recoveryTimes writableWorkspace
          (interruptedRecovery id recoveryTimes writableWorkspace 1 abandonedRun))
          (afterRecovery id recoveryTimes writableWorkspace abandonedRun)) := by
  have recoverable : Recoverable writableWorkspace abandonedRun cancelledIntent :=
    ⟨rfl, Or.inl rfl, rfl, rfl⟩
  intro restarts
  have restarted := restarts (runRecovery_recovered_iff.mpr ⟨_, recoverable⟩)
  have states := ((restarted_between recoverable recoveryTimes rfl rfl).mp restarted).1
  cases states

end SpecAsCode.Runtime
