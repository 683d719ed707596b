import SpecAsCode.Runtime.CancelTruth

/-!
# One terminal event

The driver, cancellations and recoveries each append a terminal event of their own.  A run is
to have one of them, with a status of a run, and the state is to have that status.
-/

namespace SpecAsCode.Runtime

open SpecAsCode.Js
open SpecAsCode.Schema
open SpecAsCode.Verifier
open SpecAsCode.History

/-- About to append `RUN_COMPLETED`. -/
def CancelPhase.Finalizing : CancelPhase → Prop
  | .finalizing _ => True
  | _ => False

/-- About to append `RUN_COMPLETED`. -/
def RecoveryPhase.Finalizing : RecoveryPhase → Prop
  | .finalizing _ _ => True
  | _ => False

/-- A recovery that does not append has no cause to tell. -/
theorem RecoveryPhase.cause_of_calm {phase : RecoveryPhase} (calm : ¬ phase.Finalizing)
    (record : ExecutionIntent) (unverified : List ProcessId)
    (finalizing : phase = .finalizing record unverified) : record.cause ≠ .none := by
  rw [finalizing] at calm
  exact absurd trivial calm

/-- `RUN_COMPLETED` is appended, and the state is about to be persisted. -/
def CancelPhase.Ended : CancelPhase → Prop
  | .ended _ => True
  | _ => False

theorem CancelPhase.CanRefuse.not_ended {phase : CancelPhase} (can : phase.CanRefuse) :
    ¬ phase.Ended := by
  cases phase with
  | ended state => exact can.elim
  | _ => exact not_false

/-- `RUN_COMPLETED` is appended, and the state is about to be persisted. -/
def RecoveryPhase.Ended : RecoveryPhase → Prop
  | .ended _ => True
  | _ => False

theorem RecoveryPhase.CanRefuse.not_ended {phase : RecoveryPhase} (can : phase.CanRefuse) :
    ¬ phase.Ended := by
  cases phase with
  | ended record => exact can.elim
  | _ => exact not_false

variable {Canceller : Type} [DecidableEq Canceller]

/-- A process that has appended `RUN_COMPLETED` is about to persist this status. -/
inductive RunWorld.Pending (world : RunWorld Canceller) : RunStatus → Prop where
  | driver {status : RunStatus} (phase : world.driver = .ended status) : Pending world status
  | cancel (canceller : Canceller) (phase : (world.cancels canceller).Ended) :
      Pending world .cancelled
  | recover (phase : world.recovery.Ended) : Pending world .cancelled

/-- The log has at most one terminal event, with a status of a run, and unless a process is
between its terminal event and its state, the state has the status of the log. -/
structure RunWorld.EndedOnce (world : RunWorld Canceller) : Prop where
  once : world.disk.terminal.length ≤ 1
  known : ∀ event ∈ world.disk.terminal, ∃ status : RunStatus,
    payloadText event (js "status") = some status.text
  agrees : (∀ status, ¬ world.Pending status) → ∀ persisted, world.disk.state = some persisted →
    persisted.status.text = world.disk.replayed

/-- A cancellation ends the run itself only after the driver has died without a terminal event
in the log, and while no other process is about to append one.  A recovery does so for a cause
other than `NONE`, and while no cancellation is about to.  And the driver does not die between
its terminal event and its state. -/
def RunWorld.EndsAlone (runId : JsString) (world : RunWorld Canceller) : EndOp Canceller → Prop
  | .driver .die => ∀ status, world.driver ≠ .ended status
  | .driver _ => True
  | .cancel canceller _ =>
      let alone := world.driver = .died ∧ world.disk.ended = false ∧
        (∀ other, ¬ (world.cancels other).Finalizing) ∧ ¬ world.recovery.Finalizing
      match world.cancels canceller with
      | .found _ => (∀ record, world.disk.intent = some record → record.runId ≠ runId) → alone
      | .stopping _ => alone
      | _ => True
  | .recover _ _ =>
      match world.recovery with
      | .verified record _ => world.disk.ended = false →
          record.cause ≠ .none ∧ ∀ other, ¬ (world.cancels other).Finalizing
      | _ => True

/-! ## The invariant -/

/-- Before the end of the run. -/
structure RunWorld.Open (world : RunWorld Canceller) : Prop where
  terminal : world.disk.terminal = []
  replayed : world.disk.replayed = RunStatus.running.text
  pending : ∀ status, ¬ world.Pending status
  state : ∀ persisted, world.disk.state = some persisted → persisted.status = .running

/-- After the end of the run, with this status. -/
structure RunWorld.Closed (world : RunWorld Canceller) (status : RunStatus) : Prop where
  terminal : ∃ event, world.disk.terminal = [event] ∧
    payloadText event (js "status") = some status.text
  replayed : world.disk.replayed = status.text
  pending : ∀ other, world.Pending other → other = status
  state : (∃ other, world.Pending other) ∨
    ∀ persisted, world.disk.state = some persisted → persisted.status = status

/-- Who may append a terminal event: nobody after the first one, and only one at a time. -/
structure RunWorld.Single (world : RunWorld Canceller) : Prop where
  driver : ¬ world.driver.Quiet → world.disk.ended = false ∧
    (∀ canceller, ¬ (world.cancels canceller).Finalizing) ∧ ¬ world.recovery.Finalizing
  cancel : ∀ canceller, (world.cancels canceller).Finalizing → world.disk.ended = false ∧
    (∀ other, (world.cancels other).Finalizing → other = canceller) ∧ ¬ world.recovery.Finalizing
  recovery : world.recovery.Finalizing → world.disk.ended = false
  cause : ∀ record unverified, world.recovery = .finalizing record unverified →
    record.cause ≠ .none

/-- The invariant. -/
structure RunWorld.Orderly (world : RunWorld Canceller) : Prop where
  single : world.Single
  recorded : world.Open ∨ ∃ status, world.Closed status

section Proofs

variable {sha256Hex : JsString → JsString} {runId : JsString} {world : RunWorld Canceller}

omit [DecidableEq Canceller] in
theorem RunWorld.Orderly.endedOnce (orderly : world.Orderly) : world.EndedOnce := by
  rcases orderly.recorded with ⟨terminal, replayed, pending, state⟩ |
    ⟨status, ⟨event, terminal, carries⟩, replayed, pending, state⟩
  · refine ⟨by simp [terminal], by simp [terminal], fun _ persisted found => ?_⟩
    rw [state persisted found, replayed]
  · refine ⟨by simp [terminal], fun other member => ?_, fun settled persisted found => ?_⟩
    · rw [terminal, List.mem_singleton] at member
      exact ⟨status, member ▸ carries⟩
    · rcases state with ⟨other, unsettled⟩ | same
      · exact absurd unsettled (settled other)
      · rw [same persisted found, replayed]

theorem EndDisk.ended_iff (disk : EndDisk) : disk.ended = false ↔ disk.terminal = [] := by
  simp [EndDisk.ended, EndDisk.terminal, List.filter_eq_nil_iff]

omit [DecidableEq Canceller] in
theorem RunWorld.orderly_start {events : EventStore} {state : Option RunState}
    (startable : Startable events state) (evidence : EvidenceStore) (record : ExecutionIntent) :
    (RunWorld.start runId events evidence state record : RunWorld Canceller).Orderly := by
  have unended : (RunWorld.start runId events evidence state record :
      RunWorld Canceller).disk.ended = false := by
    rw [EndDisk.ended, List.any_eq_false]
    exact fun event member => by simpa using (startable.unended event member).1
  have running : ∀ (events : List Event) (status : JsString),
      (∀ event ∈ events, event.type ≠ .runCompleted ∧ event.type ≠ .runFailed) →
      events.foldl statusAfter status = status := by
    intro events
    induction events with
    | nil => exact fun _ _ => rfl
    | cons event events inductionHypothesis =>
        intro status none
        obtain ⟨first, rest⟩ := List.forall_mem_cons.mp none
        rw [List.foldl_cons, statusAfter, if_neg (not_or.mpr first)]
        exact inductionHypothesis status rest
  refine ⟨⟨fun _ => ⟨unended, fun _ => not_false, not_false⟩, fun _ finalizing => finalizing.elim,
    fun finalizing => finalizing.elim, RecoveryPhase.cause_of_calm not_false⟩,
    Or.inl ⟨(EndDisk.ended_iff _).mp unended, running _ _ startable.unended, ?_, startable.running⟩⟩
  rintro status (⟨⟨⟩⟩ | ⟨canceller, ⟨⟩⟩ | ⟨⟨⟩⟩)

/-! ## What a step leaves -/

omit [DecidableEq Canceller] in
theorem RunWorld.pending_congr {after : RunWorld Canceller}
    (driver : ∀ status, after.driver = .ended status ↔ world.driver = .ended status)
    (cancel : ∀ canceller, (after.cancels canceller).Ended ↔ (world.cancels canceller).Ended)
    (recover : after.recovery.Ended ↔ world.recovery.Ended) (status : RunStatus) :
    after.Pending status ↔ world.Pending status := by
  constructor
  · rintro (phase | ⟨canceller, phase⟩ | phase)
    · exact .driver ((driver _).mp phase)
    · exact .cancel canceller ((cancel canceller).mp phase)
    · exact .recover (recover.mp phase)
  · rintro (phase | ⟨canceller, phase⟩ | phase)
    · exact .driver ((driver _).mpr phase)
    · exact .cancel canceller ((cancel canceller).mpr phase)
    · exact .recover (recover.mpr phase)

/-- The log ends alike, and the state is the same. -/
structure EndDisk.Alike (disk after : EndDisk) : Prop where
  terminal : after.terminal = disk.terminal
  ended : after.ended = disk.ended
  replayed : after.replayed = disk.replayed
  state : after.state = disk.state

theorem EndDisk.Alike.refl (disk : EndDisk) : disk.Alike disk :=
  ⟨rfl, rfl, rfl, rfl⟩

theorem EndDisk.alike_record (disk : EndDisk) {input : EventStore.Input}
    (notCompleted : input.type ≠ .runCompleted) (notFailed : input.type ≠ .runFailed) :
    disk.Alike (EndWrite.apply sha256Hex (.record input) disk) := by
  obtain ⟨terminal, ended, replayed⟩ :=
    @EndDisk.record_event sha256Hex disk input notCompleted notFailed
  exact ⟨terminal, ended, replayed, rfl⟩

theorem EndDisk.alike_attested (disk : EndDisk) (attestation : EndAttestation)
    (id timestamp : Stamp) :
    disk.Alike (EndWrite.apply sha256Hex (.event (.attested attestation) id timestamp) disk) := by
  obtain ⟨terminal, ended, replayed⟩ :=
    @EndDisk.attested_event sha256Hex disk attestation id timestamp
  exact ⟨terminal, ended, replayed, rfl⟩

omit [DecidableEq Canceller] in
/-- What is recorded of the end of a run does not change on a disk that is alike. -/
theorem RunWorld.recorded_alike {after : RunWorld Canceller}
    (recorded : world.Open ∨ ∃ status, world.Closed status) (alike : world.disk.Alike after.disk)
    (pending : ∀ status, after.Pending status ↔ world.Pending status) :
    after.Open ∨ ∃ status, after.Closed status := by
  rcases recorded with ⟨terminal, replayed, settled, state⟩ |
    ⟨status, terminal, replayed, same, state⟩
  · refine Or.inl ⟨alike.terminal.trans terminal, alike.replayed.trans replayed,
      fun status unsettled => settled status ((pending status).mp unsettled), ?_⟩
    rw [alike.state]
    exact state
  · refine Or.inr ⟨status, ?_, alike.replayed.trans replayed,
      fun other unsettled => same other ((pending other).mp unsettled), ?_⟩
    · rw [alike.terminal]
      exact terminal
    · rw [alike.state]
      exact state.imp_left fun ⟨other, unsettled⟩ => ⟨other, (pending other).mpr unsettled⟩

omit [DecidableEq Canceller] in
/-- A terminal event closes a run that is open. -/
theorem RunWorld.recorded_append {after : RunWorld Canceller}
    (recorded : world.Open ∨ ∃ status, world.Closed status) (running : world.disk.ended = false)
    {ending : EndEvent} {status : RunStatus} {id timestamp : Stamp}
    (terminal : ending.type = .runCompleted) (carries : ending.status = some status.text)
    (written : after.disk = EndWrite.apply sha256Hex (.event ending id timestamp) world.disk)
    (pending : ∀ other, after.Pending other ↔ world.Pending other ∨ other = status) :
    after.Open ∨ ∃ status, after.Closed status := by
  have empty := (EndDisk.ended_iff _).mp running
  rcases recorded with isOpen | ⟨other, closed⟩
  · obtain ⟨payloads, -, replayed⟩ :=
      @EndDisk.terminal_event sha256Hex world.disk ending _ terminal carries id timestamp
    rw [empty, ← written] at payloads
    obtain ⟨event, one, payload⟩ := List.map_eq_singleton_iff.mp payloads
    obtain ⟨known, same, value⟩ := ending.status_eq_some terminal
    rw [carries] at same
    cases same
    refine Or.inr ⟨status, ⟨event, one, ?_⟩, written ▸ replayed, fun other unsettled => ?_,
      Or.inl ⟨status, (pending status).mpr (Or.inr rfl)⟩⟩
    · rw [payloadText, payload, value]
      rfl
    · exact ((pending other).mp unsettled).resolve_left (isOpen.pending other)
  · obtain ⟨event, one, -⟩ := closed.terminal
    rw [empty] at one
    cases one

omit [DecidableEq Canceller] in
/-- A process that persists the status of its terminal event settles the state. -/
theorem RunWorld.recorded_persist {after : RunWorld Canceller}
    (recorded : world.Open ∨ ∃ status, world.Closed status) {status : RunStatus}
    (unsettled : world.Pending status)
    (alike : after.disk.terminal = world.disk.terminal ∧ after.disk.replayed = world.disk.replayed)
    (state : ∀ persisted, after.disk.state = some persisted → persisted.status = status)
    (pending : ∀ other, after.Pending other → world.Pending other) :
    after.Open ∨ ∃ status, after.Closed status := by
  rcases recorded with isOpen | ⟨other, closed⟩
  · exact absurd unsettled (isOpen.pending status)
  · have same := closed.pending status unsettled
    refine Or.inr ⟨other, ?_, alike.2.trans closed.replayed,
      fun more waiting => closed.pending more (pending more waiting),
      Or.inr fun persisted found => (state persisted found).trans same⟩
    rw [alike.1]
    exact closed.terminal

/-! ## The steps -/

theorem RunWorld.Orderly.driver (orderly : world.Orderly) {step : DriverStep}
    (alone : world.EndsAlone runId (.driver step)) :
    (world.act sha256Hex runId (.driver step)).Orderly := by
  obtain ⟨disk, driver, cancels, recovery, launched, named, writtenBack, appended⟩ := world
  obtain ⟨⟨single, cancel, recover, cause⟩, recorded⟩ := orderly
  have move := driverStep_move sha256Hex runId disk driver step
  have died := @driverStep_died sha256Hex runId disk driver step
  have survives : step = .die → ∀ status, driver ≠ .ended status := by
    rintro rfl
    exact alone
  simp only [RunWorld.act]
  generalize driverStep sha256Hex runId disk driver step = result at move died ⊢
  obtain ⟨after, write⟩ := result
  simp only at move died single cancel recover cause recorded survives
  -- most moves leave the end of the log and the state as they are
  have keep : disk.Alike (disk.writes sha256Hex write) →
      (∀ status, after = .ended status ↔ driver = .ended status) →
      (¬ after.Quiet → ¬ driver.Quiet) →
      RunWorld.Orderly ⟨disk.writes sha256Hex write, after, cancels, recovery,
        launched || after = .driving true, named || (driver = .claimed && write.isSome),
        writtenBack, appended ++ (write.bind EndWrite.eventType).toList⟩ := by
    intro alike same unquiet
    have single' := fun loud => single (unquiet loud)
    rw [← alike.ended] at single' cancel recover
    exact ⟨⟨single', cancel, recover, cause⟩, RunWorld.recorded_alike recorded alike
      (RunWorld.pending_congr same (fun _ => Iff.rfl) Iff.rfl)⟩
  cases move with
  | stay => exact keep (.refl _) (fun _ => Iff.rfl) id
  | die alive =>
      have lives : ∀ status, driver ≠ .ended status := by
        rcases died rfl with dead | dies
        · exact absurd dead alive.2
        · exact survives dies
      exact keep (.refl _) (fun status => iff_of_false DriverPhase.noConfusion (lives status))
        fun loud => absurd trivial loud
  | name => exact keep ⟨rfl, rfl, rfl, rfl⟩ (fun _ => by simp) fun _ => id
  | unnamed => exact keep (.refl _) (fun _ => by simp) fun _ => id
  | execute before now => exact keep (.refl _) (fun _ => by simp) fun _ => id
  | record executing ordinary =>
      exact keep (disk.alike_record ordinary.1 ordinary.2.1) (fun _ => Iff.rfl) id
  | save executing state running =>
      obtain ⟨unended, -⟩ := single not_false
      rcases recorded with ⟨terminal, replayed, settled, -⟩ | ⟨status, closed⟩
      · refine ⟨⟨single, cancel, recover, cause⟩, Or.inl ⟨terminal, replayed, ?_,
          fun persisted found => ?_⟩⟩
        · rintro status (phase | ⟨canceller, phase⟩ | phase)
          · cases phase
          · exact settled _ (.cancel canceller phase)
          · exact settled _ (.recover phase)
        · cases found
          exact running
      · obtain ⟨event, one, -⟩ := closed.terminal
        rw [(EndDisk.ended_iff disk).mp unended] at one
        cases one
  | finalize status => exact keep ⟨rfl, rfl, rfl, rfl⟩ (fun _ => by simp) fun _ => id
  | report status dirty =>
      refine keep (disk.alike_record ?_ ?_) (fun _ => Iff.rfl) id
      · rw [dirty]
        exact EventType.noConfusion
      · rw [dirty]
        exact EventType.noConfusion
  | complete status resultRevision requirements id timestamp =>
      obtain ⟨unended, cancels_idle, recovery_idle⟩ := single not_false
      refine ⟨⟨fun loud => absurd trivial loud, fun canceller finalizing =>
        absurd finalizing (cancels_idle canceller), fun finalizing =>
        absurd finalizing recovery_idle, cause⟩, ?_⟩
      refine RunWorld.recorded_append recorded unended rfl rfl rfl fun other => ?_
      constructor
      · rintro (phase | ⟨canceller, phase⟩ | phase)
        · exact Or.inr (DriverPhase.ended.inj phase).symm
        · exact Or.inl (.cancel canceller phase)
        · exact Or.inl (.recover phase)
      · rintro ((phase | ⟨canceller, phase⟩ | phase) | rfl)
        · cases phase
        · exact .cancel canceller phase
        · exact .recover phase
        · exact .driver rfl
  | @persist status state same =>
      refine ⟨⟨fun loud => absurd trivial loud, cancel, recover, cause⟩, ?_⟩
      refine RunWorld.recorded_persist recorded (.driver rfl) ⟨rfl, rfl⟩ (fun persisted found => ?_) ?_
      · cases found
        exact same
      · rintro other (phase | ⟨canceller, phase⟩ | phase)
        · cases phase
        · exact .cancel canceller phase
        · exact .recover phase
  | attest status attestation =>
      exact keep ⟨rfl, rfl, rfl, rfl⟩ (fun _ => by simp) fun loud => absurd trivial loud
  | attestEvent attestation id timestamp =>
      exact keep (disk.alike_attested attestation id timestamp) (fun _ => by simp)
        fun loud => absurd trivial loud
  | restore => exact keep (.refl _) (fun _ => by simp) fun loud => absurd trivial loud

theorem finalizing_update {cancels : Canceller → CancelPhase} {canceller other : Canceller}
    {phase : CancelPhase} (finalizing : (Function.update cancels canceller phase other).Finalizing) :
    other = canceller ∧ phase.Finalizing ∨ other ≠ canceller ∧ (cancels other).Finalizing := by
  rw [Function.update_apply] at finalizing
  split at finalizing
  next same => exact Or.inl ⟨same, finalizing⟩
  next different => exact Or.inr ⟨different, finalizing⟩

theorem ended_update {cancels : Canceller → CancelPhase} {canceller : Canceller}
    {phase : CancelPhase} (same : phase.Ended ↔ (cancels canceller).Ended) (other : Canceller) :
    (Function.update cancels canceller phase other).Ended ↔ (cancels other).Ended := by
  rw [Function.update_apply]
  split
  next equal =>
    rw [equal]
    exact same
  next => exact Iff.rfl

theorem RunWorld.Orderly.cancel (orderly : world.Orderly) {canceller : Canceller}
    {surroundings : CancelSurroundings}
    (alone : world.EndsAlone runId (.cancel canceller surroundings)) :
    (world.act sha256Hex runId (.cancel canceller surroundings)).Orderly := by
  obtain ⟨disk, driver, cancels, recovery, launched, named, writtenBack, appended⟩ := world
  obtain ⟨⟨single, cancel, recover, cause⟩, recorded⟩ := orderly
  have move := cancelStep_move sha256Hex runId surroundings disk (cancels canceller)
  simp only [RunWorld.EndsAlone] at alone
  simp only [RunWorld.act]
  generalize cancelStep sha256Hex runId surroundings disk (cancels canceller) = result at move ⊢
  obtain ⟨after, write⟩ := result
  simp only at move single cancel recover cause recorded
  -- moves that neither lead to the end nor make a part of it
  have keep : disk.Alike (disk.writes sha256Hex write) → ¬ after.Finalizing →
      (after.Ended ↔ (cancels canceller).Ended) →
      RunWorld.Orderly ⟨disk.writes sha256Hex write, driver,
        Function.update cancels canceller after, recovery, launched, named,
        writtenBack || (disk.intent.isNone && (disk.writes sha256Hex write).intent.isSome),
        appended⟩ := by
    intro alike calm same
    have others : ∀ other, (Function.update cancels canceller after other).Finalizing →
        (cancels other).Finalizing := fun other finalizing =>
      ((finalizing_update finalizing).resolve_left fun changed => calm changed.2).2
    rw [← alike.ended] at single cancel recover
    refine ⟨⟨fun loud => ?_, fun other finalizing => ?_, recover, cause⟩,
      RunWorld.recorded_alike recorded alike
        (RunWorld.pending_congr (fun _ => Iff.rfl) (ended_update same) Iff.rfl)⟩
    · obtain ⟨unended, idle, quiet⟩ := single loud
      exact ⟨unended, fun other finalizing => idle other (others other finalizing), quiet⟩
    · obtain ⟨unended, unique, quiet⟩ := cancel other (others other finalizing)
      exact ⟨unended, fun more waiting => unique more (others more waiting), quiet⟩
  -- moves that lead to the end
  have enter : disk.Alike (disk.writes sha256Hex write) → ¬ after.Ended →
      ¬ (cancels canceller).Ended →
      driver = .died ∧ disk.ended = false ∧ (∀ other, ¬ (cancels other).Finalizing) ∧
        ¬ recovery.Finalizing →
      RunWorld.Orderly ⟨disk.writes sha256Hex write, driver,
        Function.update cancels canceller after, recovery, launched, named,
        writtenBack || (disk.intent.isNone && (disk.writes sha256Hex write).intent.isSome),
        appended⟩ := by
    rintro alike calm before ⟨rfl, unended, idle, quiet⟩
    have self : ∀ other, (Function.update cancels canceller after other).Finalizing →
        other = canceller := fun other finalizing =>
      ((finalizing_update finalizing).resolve_right fun old => idle other old.2).1
    rw [← alike.ended] at unended
    refine ⟨⟨fun loud => absurd trivial loud, fun other finalizing => ⟨unended, fun more waiting =>
      (self more waiting).trans (self other finalizing).symm, quiet⟩,
      fun finalizing => absurd finalizing quiet, cause⟩,
      RunWorld.recorded_alike recorded alike
        (RunWorld.pending_congr (fun _ => Iff.rfl) (ended_update (iff_of_false calm before)) Iff.rfl)⟩
  generalize known : cancels canceller = before at move alone keep enter
  cases move with
  | refuse can refused => exact keep (.refl _) not_false (iff_of_false not_false can.not_ended)
  | legacy state other => exact enter (.refl _) not_false not_false (alone other)
  | stopped state => exact enter (.refl _) not_false not_false alone
  | record state escalates record =>
      refine keep ⟨rfl, rfl, rfl, rfl⟩ ?_ (iff_of_false ?_ not_false)
      · cases escalates <;> exact not_false
      · cases escalates <;> exact not_false
  | complete state tasks id timestamp =>
      have finalizing : (cancels canceller).Finalizing := by
        rw [known]
        trivial
      obtain ⟨unended, unique, quiet⟩ := cancel canceller finalizing
      have nobody : ∀ other,
          ¬ (Function.update cancels canceller (.ended state) other).Finalizing := by
        intro other waiting
        rcases finalizing_update waiting with ⟨-, impossible⟩ | ⟨different, old⟩
        · exact impossible
        · exact different (unique other old)
      refine ⟨⟨fun loud => absurd finalizing ((single loud).2.1 canceller),
        fun other waiting => absurd waiting (nobody other),
        fun waiting => absurd waiting quiet, cause⟩, ?_⟩
      have carries : (EndEvent.cancelled tasks).status = some RunStatus.cancelled.text := rfl
      refine RunWorld.recorded_append recorded unended rfl carries rfl fun other => ?_
      constructor
      · rintro (phase | ⟨who, phase⟩ | phase)
        · exact Or.inl (.driver phase)
        · exact Or.inr rfl
        · exact Or.inr rfl
      · rintro ((phase | ⟨who, phase⟩ | phase) | rfl)
        · exact .driver phase
        · refine .cancel canceller ?_
          simp only [Function.update_self]
          trivial
        · exact .recover phase
        · refine .cancel canceller ?_
          simp only [Function.update_self]
          trivial
  | persist state written cancelled =>
      have ended : (cancels canceller).Ended := by
        rw [known]
        trivial
      have others : ∀ other,
          (Function.update cancels canceller (.persisted state) other).Finalizing →
          (cancels other).Finalizing := fun other finalizing =>
        ((finalizing_update finalizing).resolve_left fun changed => changed.2).2
      refine ⟨⟨fun loud => ?_, fun other finalizing => ?_, recover, cause⟩, ?_⟩
      · obtain ⟨unended, idle, quiet⟩ := single loud
        exact ⟨unended, fun other finalizing => idle other (others other finalizing), quiet⟩
      · obtain ⟨unended, unique, quiet⟩ := cancel other (others other finalizing)
        exact ⟨unended, fun more waiting => unique more (others more waiting), quiet⟩
      · refine RunWorld.recorded_persist recorded (.cancel canceller ended) ⟨rfl, rfl⟩
          (fun persisted found => ?_) ?_
        · cases found
          exact cancelled
        · rintro other (phase | ⟨who, phase⟩ | phase)
          · exact .driver phase
          · exact .cancel canceller ended
          · exact .recover phase
  | attestEvent attestation id timestamp =>
      exact keep (disk.alike_attested attestation id timestamp) not_false Iff.rfl
  | attest state attestation => exact keep ⟨rfl, rfl, rfl, rfl⟩ not_false Iff.rfl
  | _ => exact keep (.refl _) not_false Iff.rfl

theorem RunWorld.Orderly.recover (orderly : world.Orderly) {times : EndTimes}
    {attempt : RecoveryAttempt} (alone : world.EndsAlone runId (.recover times attempt)) :
    (world.act sha256Hex runId (.recover times attempt)).Orderly := by
  rw [RunWorld.act]
  split
  next => exact orderly
  next gone =>
  obtain ⟨disk, driver, cancels, recovery, launched, named, writtenBack, appended⟩ := world
  obtain ⟨⟨single, cancel, recover, cause⟩, recorded⟩ := orderly
  have quiet : driver.Quiet := DriverPhase.quiet_of_not_alive gone
  have move := recoveryStep_move sha256Hex times attempt disk recovery
  simp only [RunWorld.EndsAlone] at alone
  simp only at move single cancel recover cause recorded
  generalize recoveryStep sha256Hex times attempt disk recovery = result at move ⊢
  obtain ⟨after, write⟩ := result
  simp only at move ⊢
  have keep : disk.Alike (disk.writes sha256Hex write) → ¬ after.Finalizing →
      (after.Ended ↔ recovery.Ended) →
      RunWorld.Orderly ⟨disk.writes sha256Hex write, driver, cancels, after, launched, named,
        writtenBack, appended⟩ := by
    intro alike calm same
    rw [← alike.ended] at cancel
    refine ⟨⟨fun loud => absurd quiet loud, fun canceller finalizing => ?_,
      fun finalizing => absurd finalizing calm, RecoveryPhase.cause_of_calm calm⟩,
      RunWorld.recorded_alike recorded alike
        (RunWorld.pending_congr (fun _ => Iff.rfl) (fun _ => Iff.rfl) same)⟩
    obtain ⟨unended, unique, -⟩ := cancel canceller finalizing
    exact ⟨unended, unique, calm⟩
  cases move with
  | refuse can status => exact keep (.refl _) not_false (iff_of_false not_false can.not_ended)
  | unknown record unverified running =>
      obtain ⟨requested, idle⟩ := alone running
      refine ⟨⟨fun loud => absurd quiet loud, fun canceller finalizing =>
        absurd finalizing (idle canceller), fun _ => running, ?_⟩,
        RunWorld.recorded_alike recorded (.refl _)
          (RunWorld.pending_congr (fun _ => Iff.rfl) (fun _ => Iff.rfl) Iff.rfl)⟩
      rintro other workers same
      cases same
      exact requested
  | complete record unverified id timestamp =>
      have unended : disk.ended = false := recover trivial
      have carries : (EndEvent.recovered (deriveTerminalOutcome record.cause) record.cause
          unverified).status = some RunStatus.cancelled.text :=
        congrArg some ((deriveTerminalOutcome_eq_cancelled _).mpr (cause record unverified rfl)).symm
      refine ⟨⟨fun loud => absurd quiet loud, fun canceller finalizing =>
        absurd trivial (cancel canceller finalizing).2.2, fun finalizing => finalizing.elim,
        RecoveryPhase.cause_of_calm not_false⟩, ?_⟩
      refine RunWorld.recorded_append recorded unended rfl carries rfl fun other => ?_
      constructor
      · rintro (phase | ⟨who, phase⟩ | phase)
        · exact Or.inl (.driver phase)
        · exact Or.inl (.cancel who phase)
        · exact Or.inr rfl
      · rintro ((phase | ⟨who, phase⟩ | phase) | rfl)
        · exact .driver phase
        · exact .cancel who phase
        · exact phase.elim
        · exact .recover trivial
  | persist record state cancelled =>
      refine ⟨⟨single, fun canceller finalizing => cancel canceller finalizing,
        fun finalizing => finalizing.elim, RecoveryPhase.cause_of_calm not_false⟩, ?_⟩
      refine RunWorld.recorded_persist recorded (.recover trivial) ⟨rfl, rfl⟩
        (fun persisted found => ?_) ?_
      · cases found
        exact cancelled
      · rintro other (phase | ⟨who, phase⟩ | phase)
        · exact .driver phase
        · exact .cancel who phase
        · exact phase.elim
  | pass record absent =>
      refine ⟨⟨single, fun canceller finalizing => cancel canceller finalizing,
        fun finalizing => finalizing.elim, RecoveryPhase.cause_of_calm not_false⟩, ?_⟩
      refine RunWorld.recorded_persist recorded (.recover trivial) ⟨rfl, rfl⟩
        (fun persisted found => ?_) ?_
      · rw [show disk.state = some persisted from found] at absent
        cases absent
      · rintro other (phase | ⟨who, phase⟩ | phase)
        · exact .driver phase
        · exact .cancel who phase
        · exact phase.elim
  | attestEvent record attestation id timestamp =>
      exact keep (disk.alike_attested attestation id timestamp) not_false Iff.rfl
  | attest record attestation => exact keep ⟨rfl, rfl, rfl, rfl⟩ not_false Iff.rfl
  | check record => exact keep ⟨rfl, rfl, rfl, rfl⟩ not_false Iff.rfl
  | checked record => exact keep ⟨rfl, rfl, rfl, rfl⟩ not_false Iff.rfl
  | clear record => exact keep ⟨rfl, rfl, rfl, rfl⟩ not_false Iff.rfl
  | _ => exact keep (.refl _) not_false Iff.rfl

theorem RunWorld.Orderly.act (orderly : world.Orderly) {op : EndOp Canceller}
    (alone : world.EndsAlone runId op) : (world.act sha256Hex runId op).Orderly := by
  cases op with
  | driver step => exact orderly.driver alone
  | cancel canceller surroundings => exact orderly.cancel alone
  | recover times attempt => exact orderly.recover alone

end Proofs

/-- A cancellation whose waits expire. -/
def lateCancel : CancelSurroundings :=
  { promptCancel with expired := true }

/-- The driver hangs in a task, and the signal kills it. -/
def escalatedRun : List (EndOp Unit) :=
  [.driver (.name true), .driver (.save executedState), .driver .launch] ++
    List.replicate 9 (.cancel () lateCancel) ++ .driver .die ::
    List.replicate 5 (.cancel () lateCancel)

end SpecAsCode.Runtime
