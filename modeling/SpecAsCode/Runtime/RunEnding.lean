import SpecAsCode.Runtime.Attestation
import SpecAsCode.Runtime.ExecutionIntent
import SpecAsCode.Runtime.Projection

/-!
# The end of a run

Three kinds of processes end a run: the driver that executes it, a cancellation and a
recovery.  Each appends a terminal event to the log, persists the state and attests, and the
safety block of the workspace is written and cleared around that.
-/

namespace SpecAsCode.Runtime

open SpecAsCode.Js
open SpecAsCode.Core
open SpecAsCode.Schema
open SpecAsCode.Verifier

/-! ## Events -/

/-- `RunAttestation` with whatever status was cast to a run status. -/
structure EndAttestation where
  runId : JsString
  specId : JsString
  status : JsString
  eventCount : Nat
  eventChainHead : JsString
  evidenceHead : JsString
  resultRevision : Option JsString
  attestedAt : JsString
  deriving DecidableEq

/-- The fields of an attestation. -/
def EndAttestation.fields (attestation : EndAttestation) : List Field :=
  [(js "schema", some (.text (js "spc-run-attestation/1"))),
    (js "runId", some (.text attestation.runId)), (js "specId", some (.text attestation.specId)),
    (js "status", some (.text attestation.status)),
    (js "eventCount", some (.number (JsNumber.ofNat attestation.eventCount))),
    (js "eventChainHead", some (.text attestation.eventChainHead)),
    (js "evidenceHead", some (.text attestation.evidenceHead)),
    (js "resultRevision", attestation.resultRevision.map .text),
    (js "attestedAt", some (.text attestation.attestedAt))]

/-- The attestations of runs with a status are printed alike. -/
theorem RunAttestation.fields_eq (attestation : RunAttestation) :
    attestation.fields = EndAttestation.fields
      ⟨attestation.runId, attestation.specId, attestation.status.text, attestation.eventCount,
        attestation.eventChainHead, attestation.evidenceHead, attestation.resultRevision,
        attestation.attestedAt⟩ := rfl

/-- An event that ends a run or commits to its log. -/
inductive EndEvent where
  /-- `RUN_COMPLETED` of `finalize`. -/
  | completed (status : RunStatus) (resultRevision : Option JsString) (requirements : Json)
  /-- `RUN_COMPLETED` of a cancellation. -/
  | cancelled (tasks : Json)
  /-- `RUN_COMPLETED` of a recovery. -/
  | recovered (outcome : JsString) (cause : InterruptionCause) (unverifiedWorkers : List ProcessId)
  | attested (attestation : EndAttestation)

namespace EndEvent

def type : EndEvent → EventType
  | .attested _ => .runAttested
  | _ => .runCompleted

/-- The payload of an event. -/
def fields : EndEvent → List Field
  | .completed status resultRevision requirements =>
      [(js "status", some (.text status.text)), (js "resultRevision", resultRevision.map .text),
        (js "requirements", some requirements)]
  | .cancelled tasks =>
      [(js "status", some (.text (js "cancelled"))), (js "reason", some (.text (js "cancelled"))),
        (js "tasks", some tasks)]
  | .recovered outcome cause unverifiedWorkers =>
      [(js "status", some (.text outcome)),
        (js "reason", some (.text (js "recovered by spc apply recover (cause: " ++ cause.text ++
          js ")"))),
        (js "tasks", some (Json.object [] List.Pairwise.nil)),
        (js "recoveryConfirmed", if unverifiedWorkers = [] then none else some (.bool true)),
        (js "unverifiedWorkers", if unverifiedWorkers = [] then none else
          some (.array (unverifiedWorkers.map fun pid => .number (JsNumber.ofNat pid.val))))]
  | .attested attestation => attestation.fields

theorem fields_ordered (event : EndEvent) : Ordered event.fields := by
  cases event with
  | completed =>
      simp only [Ordered, fields, List.map]
      decide +kernel
  | cancelled =>
      simp only [Ordered, fields, List.map]
      decide +kernel
  | recovered =>
      simp only [Ordered, fields, List.map]
      decide +kernel
  | attested =>
      simp only [Ordered, fields, EndAttestation.fields, List.map]
      decide +kernel

/-- What `events.append` is called with. -/
def input (event : EndEvent) (id timestamp : Stamp) : EventStore.Input where
  type := event.type
  payload := fieldMembers event.fields
  id := id.1
  timestamp := timestamp.1
  json := isJson_fieldMembers event.fields_ordered
  id_ne_nil := Stamp.ne_nil id
  timestamp_ne_nil := Stamp.ne_nil timestamp

/-- The status that a terminal event carries. -/
def status : EndEvent → Option JsString
  | .completed status _ _ => some status.text
  | .cancelled _ => some (js "cancelled")
  | .recovered outcome _ _ => some outcome
  | .attested _ => none

theorem status_eq_some (event : EndEvent) (terminal : event.type = .runCompleted) :
    ∃ status, event.status = some status ∧
      lookup (js "status") (fieldMembers event.fields) = .string status := by
  cases event with
  | completed status resultRevision requirements =>
      exact ⟨_, rfl, lookup_fieldMembers_self _ _ _⟩
  | cancelled tasks => exact ⟨_, rfl, lookup_fieldMembers_self _ _ _⟩
  | recovered outcome cause unverified => exact ⟨_, rfl, lookup_fieldMembers_self _ _ _⟩
  | attested attestation => cases terminal

end EndEvent

/-- The identifiers and times that a process which ends a run takes from its
surroundings. -/
structure EndTimes where
  completedId : Stamp
  completedAt : Stamp
  attestedId : Stamp
  attestedEventAt : Stamp
  updatedAt : JsString
  attestedAt : JsString

/-! ## The status of a log -/

/-- What an event makes of the status of a run. -/
def statusAfter (status : JsString) (event : Event) : JsString :=
  if event.type = .runCompleted ∨ event.type = .runFailed then
    (payloadText event (js "status")).getD status
  else
    status

/-- The status that is replayed from a log. -/
def replayedStatus (events : List Event) : JsString :=
  events.foldl statusAfter (js "running")

theorem applyEvent_status (state : ProjectedState) (event : Event) :
    (applyEvent state event).status = statusAfter state.status event := by
  rw [applyEvent, statusAfter]
  by_cases attested : event.type = .runAttested
  · rw [if_pos attested, attested, if_neg (by decide)]
  · rw [if_neg attested]
    show (transition event state).status = _
    rw [transition]
    split
    next type => rw [type, if_neg (by decide)]
    next type =>
      rw [type, if_neg (by decide)]
      rfl
    next type =>
      rw [type, if_neg (by decide), inheritedProperty]
      split <;> rfl
    next type =>
      rw [type, if_neg (by decide), verifiedProperty]
      split <;> rfl
    next type => rw [type, if_neg (by decide)]
    next type =>
      rw [type, if_pos (Or.inl rfl)]
      rfl
    next type =>
      rw [type, if_pos (Or.inr rfl)]
      rfl
    next notCompleted notFailed =>
      rw [if_neg]
      rintro (completed | failed)
      · exact notCompleted completed
      · exact notFailed failed

/-- The status in the projection of a log. -/
theorem projectState_status {runMeta plan : JsValue} {events : List Event} {state : ProjectedState}
    (projected : projectState runMeta plan events = .ok state) :
    state.status = replayedStatus events := by
  have folded : ∀ (events : List Event) (state : ProjectedState),
      (events.foldl applyEvent state).status = events.foldl statusAfter state.status := by
    intro events
    induction events with
    | nil => exact fun _ => rfl
    | cons event events inductionHypothesis =>
        intro state
        rw [List.foldl_cons, inductionHypothesis, applyEvent_status]
        rfl
  rw [projectState] at projected
  cases started : initialState runMeta plan with
  | error error =>
      rw [started] at projected
      cases projected
  | ok initial =>
      rw [started] at projected
      cases projected
      have running : initial.status = js "running" := by
        rw [initialState] at started
        split at started
        · cases started
        · cases tasks : planTasks plan with
          | error error =>
              rw [tasks] at started
              cases started
          | ok planned =>
              rw [tasks] at started
              cases started
              rfl
      rw [folded, running]
      rfl

theorem replayedStatus_append (events more : List Event) :
    replayedStatus (events ++ more) = more.foldl statusAfter (replayedStatus events) :=
  List.foldl_append

/-! ## The disk -/

section Disk

variable (sha256Hex : JsString → JsString)

/-- A log with one more event.  The events of a log can be digested, so that there is always
a pointer for the next one. -/
def EventStore.extend (store : EventStore) (input : EventStore.Input) : EventStore :=
  store.push (store.newEvent input ((store.nextChain sha256Hex).toOption.getD none))

/-- `append` extends the log. -/
theorem EventStore.append_eq_extend {store : EventStore} {chain : Option JsString}
    (known : store.nextChain sha256Hex = .ok chain) (input : EventStore.Input) :
    store.append sha256Hex input =
      .ok (store.extend sha256Hex input, store.newEvent input chain) := by
  rw [EventStore.append, EventStore.extend, known]
  rfl

@[simp]
theorem EventStore.extend_records (store : EventStore) (input : EventStore.Input) :
    (store.extend sha256Hex input).log.records = store.log.records ++
      [store.newEvent input ((store.nextChain sha256Hex).toOption.getD none)] := rfl

/-- What the end of a run reads and writes: whether there is a run directory, the logs, the
state and the attestation in it, the safety block of the workspace and the file by which a
recovery tries the workspace. -/
structure EndDisk where
  runDir : Bool
  events : EventStore
  evidence : EvidenceStore
  state : Option RunState
  attestation : Option EndAttestation
  intent : Option ExecutionIntent
  recoveryCheck : Bool

/-- A write to one file. -/
inductive EndWrite where
  | event (event : EndEvent) (id timestamp : Stamp)
  /-- Any other event. -/
  | record (input : EventStore.Input)
  | state (state : RunState)
  | attestation (attestation : EndAttestation)
  | intent (intent : Option ExecutionIntent)
  | recoveryCheck (there : Bool)

/-- One write. -/
def EndWrite.apply (write : EndWrite) (disk : EndDisk) : EndDisk :=
  match write with
  | .event ending id timestamp =>
      { disk with events := disk.events.extend sha256Hex (ending.input id timestamp) }
  | .record input => { disk with events := disk.events.extend sha256Hex input }
  | .state written => { disk with state := some written }
  | .attestation written => { disk with attestation := some written }
  | .intent written => { disk with intent := written }
  | .recoveryCheck there => { disk with recoveryCheck := there }

/-- The terminal events of the log. -/
def EndDisk.terminal (disk : EndDisk) : List Event :=
  disk.events.log.records.filter fun event => event.type = .runCompleted

/-- Whether the log has a terminal event. -/
def EndDisk.ended (disk : EndDisk) : Bool :=
  disk.events.log.records.any fun event => event.type = .runCompleted

/-- The status that is replayed from the log. -/
def EndDisk.replayed (disk : EndDisk) : JsString :=
  replayedStatus disk.events.log.records

/-- What a run commits to at its end.  The events and the evidence can be digested. -/
def EndDisk.attest (disk : EndDisk) (runId specId status : JsString)
    (resultRevision : Option JsString) (attestedAt : JsString) : EndAttestation where
  runId := runId
  specId := specId
  status := status
  eventCount := disk.events.log.records.length
  eventChainHead := (eventHeadOf sha256Hex disk.events.log.records).toOption.getD []
  evidenceHead := (evidenceHeadOf sha256Hex disk.evidence.records).toOption.getD []
  resultRevision := resultRevision
  attestedAt := attestedAt

/-- The attestation of a run with a status is the one of `attestRecords`. -/
theorem EndDisk.attest_eq (disk : EndDisk) (request : AttestationRequest)
    {attestation : RunAttestation}
    (made : attestRecords sha256Hex request disk.events disk.evidence.records = .ok attestation) :
    attestation.fields =
      (disk.attest sha256Hex request.runId request.specId request.status.text none
        request.attestedAt).fields := by
  rw [attestRecords, Runtime.attest] at made
  cases head : eventHeadOf sha256Hex disk.events.log.records with
  | error error =>
      rw [head] at made
      cases made
  | ok eventHead =>
      cases evidence : evidenceHeadOf sha256Hex disk.evidence.records with
      | error error =>
          rw [head, evidence] at made
          cases made
      | ok evidenceHead =>
          rw [head, evidence] at made
          cases made
          rw [EndDisk.attest, head, evidence]
          rfl

variable {sha256Hex}

/-- An event of another type ends nothing. -/
theorem EndDisk.record_event (disk : EndDisk) {input : EventStore.Input}
    (notCompleted : input.type ≠ .runCompleted) (notFailed : input.type ≠ .runFailed) :
    let after := EndWrite.apply sha256Hex (.record input) disk
    after.terminal = disk.terminal ∧ after.ended = disk.ended ∧ after.replayed = disk.replayed := by
  have type : ∀ chain, (disk.events.newEvent input chain).type = input.type := fun _ => rfl
  refine ⟨?_, ?_, ?_⟩
  · simp only [EndDisk.terminal, EndWrite.apply, EventStore.extend_records, List.filter_append,
      List.filter_cons, type, decide_eq_false notCompleted, Bool.false_eq_true, if_false]
    exact List.append_nil _
  · simp only [EndDisk.ended, EndWrite.apply, EventStore.extend_records, List.any_append,
      List.any_cons, List.any_nil, type, decide_eq_false notCompleted, Bool.or_false]
  · simp only [EndDisk.replayed, EndWrite.apply, EventStore.extend_records, replayedStatus_append]
    show statusAfter _ _ = _
    rw [statusAfter, type, if_neg (not_or.mpr ⟨notCompleted, notFailed⟩)]

/-- An attestation extends the log by an event that ends nothing. -/
theorem EndDisk.attested_event (disk : EndDisk) (attestation : EndAttestation)
    (id timestamp : Stamp) :
    let after := EndWrite.apply sha256Hex (.event (.attested attestation) id timestamp) disk
    after.terminal = disk.terminal ∧ after.ended = disk.ended ∧ after.replayed = disk.replayed :=
  @EndDisk.record_event sha256Hex disk ((EndEvent.attested attestation).input id timestamp)
    EventType.noConfusion EventType.noConfusion

/-- A terminal event ends the log with its status. -/
theorem EndDisk.terminal_event (disk : EndDisk) {ending : EndEvent} {status : JsString}
    (terminal : ending.type = .runCompleted) (carries : ending.status = some status)
    (id timestamp : Stamp) :
    let after := EndWrite.apply sha256Hex (.event ending id timestamp) disk
    after.terminal.map Event.payload =
        disk.terminal.map Event.payload ++ [fieldMembers ending.fields] ∧
      after.ended = true ∧ after.replayed = status := by
  have type : ∀ chain, (disk.events.newEvent (ending.input id timestamp) chain).type =
      .runCompleted := fun _ => terminal
  refine ⟨?_, ?_, ?_⟩
  · simp only [EndDisk.terminal, EndWrite.apply, EventStore.extend_records, List.filter_append,
      List.map_append, List.filter_cons, type, decide_true, if_true]
    rfl
  · simp only [EndDisk.ended, EndWrite.apply, EventStore.extend_records, List.any_append,
      List.any_cons, type, decide_true, Bool.true_or, Bool.or_true]
  · obtain ⟨known, same, value⟩ := ending.status_eq_some terminal
    rw [carries] at same
    cases same
    simp only [EndDisk.replayed, EndWrite.apply, EventStore.extend_records, replayedStatus_append]
    show statusAfter _ _ = _
    rw [statusAfter, if_pos (Or.inl (type _))]
    show (JsValue.asString (lookup (js "status") (fieldMembers ending.fields))).getD _ = _
    rw [value]
    rfl

end Disk

end SpecAsCode.Runtime
