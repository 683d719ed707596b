import SpecAsCode.Runtime.ApplyOwnership
import SpecAsCode.Runtime.RunActors

/-!
# The window of the safety block

The record of a run is to be on the disk from the launch of its first task until the run is
persisted and attested and the original branch is restored.
-/

namespace SpecAsCode.Runtime

open SpecAsCode.Js
open SpecAsCode.Schema
open SpecAsCode.History

variable {Canceller : Type} [DecidableEq Canceller]

/-- The record of this run is on the disk, and no apply is granted as long as it is. -/
structure RunWorld.Protected (runId : JsString) (world : RunWorld Canceller) : Prop where
  there : ∃ record, world.disk.intent = some record ∧ record.runId = runId
  blocks : ∀ record, world.disk.intent = some record → ∀ surroundings owner handle,
    acquireOwnership surroundings owner (writeIntent record) ≠ .ok handle

/-- The driver dies after a task may have been launched and before all is done. -/
def RunWorld.CrashInWindow (world : RunWorld Canceller) : EndOp Canceller → Prop
  | .driver .die => world.launched = true ∧ world.driver.Alive
  | _ => False

/-- `finalize` has not begun and the record has been given the id of the run, or else a
cancellation has put the record back that it had read before `finalize` cleared it. -/
def RunWorld.BeforeClear (world : RunWorld Canceller) : Prop :=
  (∃ executing, world.driver = .driving executing) ∧ world.named = true ∨
    world.writtenBack = true

/-! ## Who has the record -/

/-- Whether the driver has cleared the record. -/
inductive DriverStage where
  | holding
  | finishing
  | gone

def DriverPhase.stage : DriverPhase → DriverStage
  | .claimed => .holding
  | .driving _ => .holding
  | .returned => .gone
  | .died => .gone
  | _ => .finishing

/-- A cancellation that has found the record of the run. -/
def CancelPhase.Requests (runId : JsString) (named : Bool) : CancelPhase → Prop
  | .arbitrating _ _ => named = true
  | .escalating _ => named = true
  | .recording _ _ record => named = true ∧ record.runId = runId
  | _ => True

/-- What holds of the record at any time: whose it is, when it is there, and what cancellations
know of it. -/
structure RecordKnown (runId : JsString) (intent : Option ExecutionIntent) (stage : DriverStage)
    (cancels : Canceller → CancelPhase) (named writtenBack : Bool) : Prop where
  whose : ∀ record, intent = some record → (record.runId = runId ↔ named = true)
  requested : ∀ canceller, (cancels canceller).Requests runId named
  holding : stage = .holding → intent.isSome = true ∧ writtenBack = false
  finishing : stage = .finishing → (intent.isSome = true ↔ writtenBack = true)
  requestedBack : writtenBack = true → named = true

/-- `RecordKnown` of a world. -/
def RunWorld.Known (runId : JsString) (world : RunWorld Canceller) : Prop :=
  RecordKnown runId world.disk.intent world.driver.stage world.cancels world.named
    world.writtenBack

section Steps

variable {sha256Hex : JsString → JsString} {runId : JsString} {world : RunWorld Canceller}

omit [DecidableEq Canceller] in
theorem RunWorld.known_start (events : EventStore) (evidence : EvidenceStore)
    (state : Option RunState) (record : ExecutionIntent) :
    (RunWorld.start runId events evidence state record : RunWorld Canceller).Known runId := by
  refine ⟨fun other found => ?_, fun _ => trivial, fun _ => ⟨rfl, rfl⟩, nofun, nofun⟩
  cases found
  exact decide_eq_true_iff.symm

omit [DecidableEq Canceller] in
theorem CancelPhase.Requests.mono {phase : CancelPhase} {named : Bool}
    (requests : phase.Requests runId named) : phase.Requests runId true := by
  cases phase with
  | arbitrating state escalates => rfl
  | escalating state => rfl
  | recording state escalates record => exact ⟨rfl, requests.2⟩
  | _ => trivial

theorem RunWorld.Known.driver (known : world.Known runId) (step : DriverStep) :
    (world.act sha256Hex runId (.driver step)).Known runId := by
  obtain ⟨disk, phase, cancels, recovery, launched, named, writtenBack, appended⟩ := world
  have move := driverStep_move sha256Hex runId disk phase step
  simp only [RunWorld.act]
  generalize driverStep sha256Hex runId disk phase step = result at move ⊢
  obtain ⟨after, write⟩ := result
  obtain ⟨whose, requested, holding, finishing, back⟩ := known
  cases move with
  | name =>
      obtain ⟨there, fresh⟩ := holding rfl
      refine ⟨fun record found => ?_, fun canceller => ?_, fun _ => ⟨?_, fresh⟩, nofun, fun _ => ?_⟩
      · obtain ⟨old, -, rfl⟩ := Option.map_eq_some_iff.mp found
        simp
      · simpa using (requested canceller).mono
      · exact Option.isSome_map.trans there
      · simp
  | stay =>
      simp only [RunWorld.Known, Option.isSome_none, Bool.and_false, Bool.or_false]
      exact ⟨whose, requested, holding, finishing, back⟩
  | die =>
      simp only [RunWorld.Known, Option.isSome_none, Bool.and_false, Bool.or_false]
      exact ⟨whose, requested, nofun, nofun, back⟩
  | unnamed =>
      simp only [RunWorld.Known, Option.isSome_none, Bool.and_false, Bool.or_false]
      exact ⟨whose, requested, holding, nofun, back⟩
  | finalize status =>
      obtain ⟨-, fresh⟩ := holding rfl
      simp only [RunWorld.Known, reduceCtorEq, decide_false, Bool.false_and, Bool.or_false]
      refine ⟨nofun, requested, nofun, fun _ => ?_, back⟩
      simp only at fresh
      rw [fresh]
      exact iff_of_false Bool.false_ne_true Bool.false_ne_true
  | restore =>
      simp only [RunWorld.Known, Option.isSome_none, Bool.and_false, Bool.or_false]
      exact ⟨whose, requested, nofun, nofun, back⟩
  | _ =>
      simp only [RunWorld.Known, reduceCtorEq, decide_false, Bool.false_and, Bool.or_false]
      exact ⟨whose, requested, holding, finishing, back⟩

theorem requests_update {cancels : Canceller → CancelPhase} {named : Bool}
    (requested : ∀ canceller, (cancels canceller).Requests runId named) (canceller : Canceller)
    {phase : CancelPhase} (requests : phase.Requests runId named) (other : Canceller) :
    (Function.update cancels canceller phase other).Requests runId named := by
  rw [Function.update_apply]
  split
  next => exact requests
  next => exact requested other

theorem RunWorld.Known.cancel (known : world.Known runId) (canceller : Canceller)
    (surroundings : CancelSurroundings) :
    (world.act sha256Hex runId (.cancel canceller surroundings)).Known runId := by
  obtain ⟨disk, driver, cancels, recovery, launched, named, writtenBack, appended⟩ := world
  obtain ⟨whose, requested, holding, finishing, back⟩ := known
  have move := cancelStep_move sha256Hex runId surroundings disk (cancels canceller)
  have requests := requested canceller
  simp only [RunWorld.act]
  generalize cancelStep sha256Hex runId surroundings disk (cancels canceller) = result at move ⊢
  obtain ⟨after, write⟩ := result
  simp only at move requests whose holding finishing back
  -- but for one move the record stays, and the new phase decides
  have stays : (disk.writes sha256Hex write).intent = disk.intent →
      after.Requests runId named →
      RecordKnown runId (disk.writes sha256Hex write).intent driver.stage
        (Function.update cancels canceller after) named
        (writtenBack || (disk.intent.isNone && (disk.writes sha256Hex write).intent.isSome)) := by
    intro same new
    rw [same]
    have quiet : (writtenBack || (disk.intent.isNone && disk.intent.isSome)) = writtenBack := by
      cases disk.intent <;> simp
    rw [quiet]
    exact ⟨whose, requests_update requested canceller new, holding, finishing, back⟩
  generalize cancels canceller = before at move requests
  cases move with
  | record state escalates record =>
      obtain ⟨isNamed, mine⟩ := requests
      refine ⟨fun other found => ?_, requests_update requested canceller ?_, fun held => ⟨rfl, ?_⟩,
        fun finished => ?_, fun _ => isNamed⟩
      · cases found
        exact iff_of_true mine isNamed
      · cases escalates <;> trivial
      · obtain ⟨there, fresh⟩ := holding held
        simp only [fresh, Option.isNone_eq_false_iff.mpr there, Bool.false_and, Bool.or_false]
      · cases present : disk.intent with
        | none => simp [EndDisk.writes, EndWrite.apply]
        | some old =>
            have restored := (finishing finished).mp (present ▸ rfl)
            simp [restored, EndDisk.writes, EndWrite.apply]
  | request state intent same => exact stays rfl ((whose _ intent).mp same)
  | resume state intent same => exact stays rfl ((whose _ intent).mp same)
  | expire state intent same => exact stays rfl ((whose _ intent).mp same)
  | arbitrate state escalates intent => exact stays rfl ⟨requests, (whose _ intent).mpr requests⟩
  | escalate state intent => exact stays rfl requests
  | _ => exact stays rfl trivial

theorem RunWorld.Known.recover (known : world.Known runId) (times : EndTimes)
    (attempt : RecoveryAttempt) :
    (world.act sha256Hex runId (.recover times attempt)).Known runId := by
  obtain ⟨disk, driver, cancels, recovery, launched, named, writtenBack, appended⟩ := world
  rw [RunWorld.act]
  split
  next => exact known
  next gone =>
    obtain ⟨whose, requested, holding, finishing, back⟩ := known
    have stopped : driver.stage = .gone := by
      cases driver with
      | returned => rfl
      | died => rfl
      | _ => exact absurd ⟨DriverPhase.noConfusion, DriverPhase.noConfusion⟩ gone
    have move := recoveryStep_move sha256Hex times attempt disk recovery
    simp only
    generalize recoveryStep sha256Hex times attempt disk recovery = result at move ⊢
    obtain ⟨after, write⟩ := result
    simp only at move stopped whose holding finishing
    refine ⟨fun record found => ?_, requested, fun held => ?_, fun finished => ?_, back⟩
    · cases move with
      | clear => cases found
      | _ => exact whose record found
    · rw [stopped] at held
      cases held
    · rw [stopped] at finished
      cases finished

theorem RunWorld.Known.act (known : world.Known runId) (op : EndOp Canceller) :
    (world.act sha256Hex runId op).Known runId := by
  cases op with
  | driver step => exact known.driver step
  | cancel canceller surroundings => exact known.cancel canceller surroundings
  | recover times attempt => exact known.recover times attempt

/-- Before the record has been named nothing is launched. -/
theorem RunWorld.unlaunched_act (unlaunched : world.driver = .claimed → world.launched = false)
    (op : EndOp Canceller) (claimed : (world.act sha256Hex runId op).driver = .claimed) :
    (world.act sha256Hex runId op).launched = false := by
  obtain ⟨disk, driver, cancels, recovery, launched, named, writtenBack, appended⟩ := world
  cases op with
  | driver step =>
      have move := driverStep_move sha256Hex runId disk driver step
      simp only [RunWorld.act] at claimed ⊢
      generalize driverStep sha256Hex runId disk driver step = result at move claimed ⊢
      obtain ⟨after, write⟩ := result
      simp only at move claimed
      subst claimed
      cases move with
      | stay => simpa using unlaunched rfl
  | cancel canceller surroundings => exact unlaunched claimed
  | recover times attempt =>
      rw [RunWorld.act] at claimed ⊢
      split at claimed
      next alive =>
        rw [if_pos alive]
        exact unlaunched claimed
      next gone =>
        rw [if_neg gone]
        exact unlaunched claimed

/-! ## Crashes -/

/-- No apply is granted in the presence of a record. -/
theorem acquireOwnership_writeIntent (record : ExecutionIntent) (surroundings : ApplySurroundings)
    (owner handle : ApplyOwnerInfo) :
    acquireOwnership surroundings owner (writeIntent record) ≠ .ok handle := by
  intro granted
  obtain ⟨-, -, -, empty⟩ := (acquireOwnership_eq_ok_iff handle).mp granted
  exact empty ((readIntent_eq_intent_iff _).mp ⟨_, readIntent_writeIntent record⟩)

omit [DecidableEq Canceller] in
theorem RunWorld.protected_iff_there : world.Protected runId ↔
    ∃ record, world.disk.intent = some record ∧ record.runId = runId :=
  ⟨fun guarded => guarded.there,
    fun there => ⟨there, fun record _ => acquireOwnership_writeIntent record⟩⟩

omit [DecidableEq Canceller] in
/-- Before `finalize` the record is the one of the run once it is named. -/
theorem RunWorld.Known.protected_holding (known : world.Known runId)
    (held : world.driver.stage = .holding) : world.Protected runId ↔ world.named = true := by
  obtain ⟨record, there⟩ := Option.isSome_iff_exists.mp (known.holding held).1
  rw [RunWorld.protected_iff_there, ← known.whose record there]
  refine ⟨fun ⟨other, found, mine⟩ => ?_, fun mine => ⟨record, there, mine⟩⟩
  rw [there] at found
  cases found
  exact mine

omit [DecidableEq Canceller] in
/-- After `finalize` has begun there is a record only if it was written back. -/
theorem RunWorld.Known.protected_finishing (known : world.Known runId)
    (finished : world.driver.stage = .finishing) :
    world.Protected runId ↔ world.writtenBack = true := by
  rw [RunWorld.protected_iff_there, ← known.finishing finished]
  constructor
  · rintro ⟨record, there, -⟩
    rw [there]
    rfl
  · intro there
    obtain ⟨record, found⟩ := Option.isSome_iff_exists.mp there
    have named := known.requestedBack ((known.finishing finished).mp there)
    exact ⟨record, found, (known.whose record found).mpr named⟩

omit [DecidableEq Canceller] in
/-- In the window the record is there exactly before `finalize` clears it. -/
theorem RunWorld.Known.protected_iff (known : world.Known runId)
    (unlaunched : world.driver = .claimed → world.launched = false)
    (launched : world.launched = true) (alive : world.driver.Alive) :
    world.Protected runId ↔ world.BeforeClear := by
  have finishing : world.driver.stage = .finishing →
      (world.Protected runId ↔ world.BeforeClear) := by
    intro finished
    rw [known.protected_finishing finished, RunWorld.BeforeClear]
    refine ⟨Or.inr, fun before => before.resolve_left ?_⟩
    rintro ⟨⟨executing, driving⟩, -⟩
    rw [driving] at finished
    cases finished
  cases phase : world.driver with
  | claimed =>
      rw [unlaunched phase] at launched
      cases launched
  | driving executing =>
      have held : world.driver.stage = .holding := congrArg DriverPhase.stage phase
      rw [known.protected_holding held, RunWorld.BeforeClear, (known.holding held).2]
      simp [phase]
  | returned => exact absurd phase alive.1
  | died => exact absurd phase alive.2
  | _ => exact finishing (congrArg DriverPhase.stage phase)

end Steps

/-- The record of a run covers every crash in the window exactly when every such crash comes
before `finalize` has cleared the record, and after the record was given the id of the run; the
other case is a cancellation that wrote back what it had read before. -/
theorem safety_window_iff (sha256Hex : JsString → JsString) (runId : JsString)
    (events : EventStore) (evidence : EvidenceStore) (state : Option RunState)
    (record : ExecutionIntent) (ops : List (EndOp Canceller)) :
    EveryStep (RunWorld.act sha256Hex runId)
        (fun world op => world.CrashInWindow op → world.Protected runId) ops
        (.start runId events evidence state record) ↔
      EveryStep (RunWorld.act sha256Hex runId)
        (fun world op => world.CrashInWindow op → world.BeforeClear) ops
        (.start runId events evidence state record) := by
  have pointwise : ∀ (world : RunWorld Canceller) (op : EndOp Canceller),
      world.Known runId ∧ (world.driver = .claimed → world.launched = false) →
      world.CrashInWindow op → (world.Protected runId ↔ world.BeforeClear) := by
    rintro world op ⟨known, unlaunched⟩ crash
    have inside : world.launched = true ∧ world.driver.Alive := by
      cases op with
      | driver step =>
          cases step with
          | die => exact crash
          | _ => exact crash.elim
      | _ => exact crash.elim
    exact known.protected_iff unlaunched inside.1 inside.2
  have initial : (RunWorld.start runId events evidence state record : RunWorld Canceller).Known runId ∧
      ((RunWorld.start runId events evidence state record : RunWorld Canceller).driver = .claimed →
        (RunWorld.start runId events evidence state record : RunWorld Canceller).launched = false) :=
    ⟨RunWorld.known_start events evidence state record, fun _ => rfl⟩
  constructor
  · intro steps
    exact steps.of_invariant initial
      (fun _ op _ inv => ⟨inv.1.act op, RunWorld.unlaunched_act inv.2 op⟩)
      fun world op covered inv crash => (pointwise world op inv crash).mp (covered crash)
  · intro steps
    exact steps.of_invariant initial
      (fun _ op _ inv => ⟨inv.1.act op, RunWorld.unlaunched_act inv.2 op⟩)
      fun world op before inv crash => (pointwise world op inv crash).mpr (before crash)

/-- The driver executes a task and dies in `finalize`, before it appends `RUN_COMPLETED`. -/
def dieInFinalize : List (EndOp Empty) :=
  [.driver (.name true), .driver .launch, .driver .settle, .driver (.finalize .succeeded),
    .driver .die]

/-- The record is gone while nothing is persisted, and another apply is granted. -/
theorem finalize_uncovered :
    ¬ EveryStep (RunWorld.act id (js "run-1"))
        (fun world op => world.CrashInWindow op → world.Protected (js "run-1")) dieInFinalize
        (.start (js "run-1") (EventStore.fresh (js "run-1")) HashChain.Log.empty none
          { cancelledIntent with cause := .none }) := by
  rintro ⟨-, -, -, -, covered, -⟩
  obtain ⟨⟨record, there, -⟩, -⟩ := covered ⟨rfl, by decide⟩
  cases there

end SpecAsCode.Runtime
