import SpecAsCode.Runtime.EventStore
import SpecAsCode.Runtime.EvidenceStore
import SpecAsCode.Runtime.Followups
import SpecAsCode.Schema.Event
import SpecAsCode.Schema.Property
import SpecAsCode.Verifier.Criteria

/-!
# The records of a run

The evidence, the follow-ups and the events that a run has written, and how one more record
of each kind is added.
-/

namespace SpecAsCode.Runtime

open SpecAsCode.Js
open SpecAsCode.Schema
open SpecAsCode.Verifier

/-- The events of sweeps and resolutions, with what their payloads hold. -/
inductive RunEvent where
  | evidenceRecorded (evidenceId : JsString) (propertyRefs : List JsString)
      (criterionId : Option JsString) (kind : EvidenceKind) (outcome : EvidenceOutcome)
      (taskId : Option JsString) (red : Bool)
  | commandResultReused (command executionId originRunId criterionId : JsString)
      (taskId : Option JsString) (red : Bool)
  | commandExecuted (run : CommandRunResult) (executionId taskId : Option JsString) (red : Bool)
  | followupCreated (followupId : JsString) (blocking : Bool) (type : FollowUpType)
      (propertyId : Option JsString)
  | followupResolved (followupId : JsString) (optionId note : Option JsString)
  | propertyVerified (propertyId : JsString) (status : RequirementStatus)
      (evidenceIds : List JsString) (reason : Option JsString) (weakEvidence : Bool)
      (redPhase : Option RedPhase) (red : Bool)

namespace RunEvent

def type : RunEvent → EventType
  | .evidenceRecorded .. => .evidenceRecorded
  | .commandResultReused .. => .commandResultReused
  | .commandExecuted .. => .commandExecuted
  | .followupCreated .. => .followupCreated
  | .followupResolved .. => .followupResolved
  | .propertyVerified .. => .propertyVerified

/-- `...(red ? { phase: "red" } : {})`. -/
def phaseField (red : Bool) : Field :=
  (js "phase", if red then some (.text (js "red")) else none)

/-- The payload of an event. -/
def fields : RunEvent → List Field
  | .evidenceRecorded evidenceId propertyRefs criterionId kind outcome taskId red =>
      [(js "evidenceId", some (.text evidenceId)), (js "propertyRefs", some (.texts propertyRefs)),
        (js "criterionId", criterionId.map .text), (js "kind", some (.text kind.text)),
        (js "outcome", some (.text outcome.text)), (js "taskId", taskId.map .text), phaseField red]
  | .commandResultReused command executionId originRunId criterionId taskId red =>
      [(js "command", some (.text command)), (js "executionId", some (.text executionId)),
        (js "originRunId", some (.text originRunId)), (js "criterionId", some (.text criterionId)),
        (js "taskId", taskId.map .text), phaseField red]
  | .commandExecuted run executionId taskId red =>
      [(js "command", some (.text run.command)), (js "cwd", some (.text run.cwd)),
        (js "exitCode", some (run.exitCode.elim .null .number)),
        (js "durationMs", run.durationMs.map .number),
        (js "stdoutDigest", some (.text run.stdoutDigest)),
        (js "stderrDigest", some (.text run.stderrDigest)),
        (js "timedOut", some (.bool run.timedOut)), (js "executionId", executionId.map .text),
        (js "taskId", taskId.map .text), phaseField red]
  | .followupCreated followupId blocking type propertyId =>
      [(js "followupId", some (.text followupId)), (js "blocking", some (.bool blocking)),
        (js "type", some (.text type.text)), (js "propertyId", propertyId.map .text)]
  | .followupResolved followupId optionId note =>
      [(js "followupId", some (.text followupId)), (js "optionId", some (optionId.elim .null .text)),
        (js "note", some (note.elim .null .text))]
  | .propertyVerified propertyId status evidenceIds reason weakEvidence redPhase red =>
      [(js "propertyId", some (.text propertyId)), (js "status", some (.text status.text)),
        (js "evidenceIds", some (.texts evidenceIds)), (js "reason", reason.map .text),
        (js "weakEvidence", if weakEvidence then some (.bool true) else none),
        (js "redPhase", redPhase.map fun phase => .text phase.text), phaseField red]

theorem fields_ordered (event : RunEvent) : Ordered event.fields := by
  cases event with
  | evidenceRecorded =>
      simp only [Ordered, fields, phaseField, List.map]
      decide +kernel
  | commandResultReused =>
      simp only [Ordered, fields, phaseField, List.map]
      decide +kernel
  | commandExecuted =>
      simp only [Ordered, fields, phaseField, List.map]
      decide +kernel
  | followupCreated =>
      simp only [Ordered, fields, List.map]
      decide +kernel
  | followupResolved =>
      simp only [Ordered, fields, List.map]
      decide +kernel
  | propertyVerified =>
      simp only [Ordered, fields, phaseField, List.map]
      decide +kernel

/-- What `events.append` is called with. -/
def input (event : RunEvent) (id timestamp : Stamp) : EventStore.Input where
  type := event.type
  payload := fieldMembers event.fields
  id := id.1
  timestamp := timestamp.1
  json := isJson_fieldMembers event.fields_ordered
  id_ne_nil := Stamp.ne_nil id
  timestamp_ne_nil := Stamp.ne_nil timestamp

end RunEvent

/-! ## Evidence -/

theorem evidenceId_ne_nil (number : Nat) : EvidenceStore.evidenceId number ≠ [] := by
  simp [EvidenceStore.evidenceId, js]

namespace EvidenceStore

/-- What `evidence.add` is called with for the next record of a run. -/
def inputOf (draft : EvidenceDraft) (number : Nat) : Input where
  id := evidenceId number
  runId := draft.runId
  taskId := draft.taskId
  criterionId := draft.criterionId
  propertyRefs := draft.propertyRefs
  kind := draft.kind
  outcome := draft.outcome
  producer := draft.producer
  timestamp := draft.timestamp.1
  repositoryRevision := draft.repositoryRevision
  red := draft.red
  payload := draft.payload.1
  id_ne_nil := evidenceId_ne_nil number
  timestamp_ne_nil := draft.timestamp.2
  json := draft.payload.2

variable (sha256Hex : JsString → JsString)

/-- The record that the next addition of a draft leaves. -/
def nextRecord (store : EvidenceStore) (draft : EvidenceDraft) : Evidence :=
  let input := inputOf draft (store.records.length + 1)
  let chain := nextChain store
  withChain input input.id chain
    (((contentDigest sha256Hex (withChain input input.id chain [])).toOption).getD [])

/-- The store with one more record, when its file holds nothing else. -/
def extend (store : EvidenceStore) (draft : EvidenceDraft) : EvidenceStore :=
  ⟨store.records ++ [store.nextRecord sha256Hex draft], some (store.status.getD .chained)⟩

/-- `add` extends a store that has nothing to adopt from its file. -/
theorem add_eq_extend {store : EvidenceStore} {draft : EvidenceDraft}
    {file : Option (List Text.Octet)}
    (nothing : adoptDiskTail store file (evidenceId (store.records.length + 1)) =
      (store, evidenceId (store.records.length + 1))) :
    store.add sha256Hex file (inputOf draft (store.records.length + 1)) =
      .ok (store.extend sha256Hex draft, store.nextRecord sha256Hex draft) := by
  obtain ⟨digest, known, -⟩ := @exists_contentDigest sha256Hex
    (withChain (inputOf draft (store.records.length + 1)) (evidenceId (store.records.length + 1))
      (nextChain store) [1])
    ⟨evidenceId_ne_nil _, draft.timestamp.2, by simp [withChain], draft.payload.2⟩
  have content : contentDigest sha256Hex (withChain (inputOf draft (store.records.length + 1))
      (evidenceId (store.records.length + 1)) (nextChain store) []) = .ok digest := known
  have adopted : adoptDiskTail store file (inputOf draft (store.records.length + 1)).id =
      (store, evidenceId (store.records.length + 1)) := nothing
  have recorded : nextRecord sha256Hex store draft =
      withChain (inputOf draft (store.records.length + 1)) (evidenceId (store.records.length + 1))
        (nextChain store) (((contentDigest sha256Hex (withChain
          (inputOf draft (store.records.length + 1)) (evidenceId (store.records.length + 1))
          (nextChain store) [])).toOption).getD []) := rfl
  rw [EvidenceStore.add, adopted, extend, recorded]
  simp only [content]
  rfl

end EvidenceStore

/-! ## The records -/

/-- The evidence, the follow-ups and the events of a run. -/
structure RunRecords where
  evidence : EvidenceStore
  followups : FollowupStore
  events : List RunEvent

namespace RunRecords

/-- A run that has written nothing. -/
def fresh : RunRecords :=
  ⟨HashChain.Log.empty, [], []⟩

/-- `input.evidence.all()`. -/
def all (records : RunRecords) : List Evidence :=
  records.evidence.records

/-- `events.append`. -/
def emit (records : RunRecords) (event : RunEvent) : RunRecords :=
  { records with events := records.events ++ [event] }

/-- `evidence.add`. -/
def addEvidence (sha256Hex : JsString → JsString) (records : RunRecords) (draft : EvidenceDraft) :
    RunRecords :=
  { records with evidence := records.evidence.extend sha256Hex draft }

/-- `followups.create`. -/
def createFollowup (records : RunRecords) (draft : FollowUpDraft) (runId now : JsString) :
    RunRecords :=
  { records with followups := (records.followups.create draft runId now).1 }

@[simp]
theorem all_fresh : fresh.all = [] := rfl

@[simp]
theorem all_emit (records : RunRecords) (event : RunEvent) : (records.emit event).all = records.all :=
  rfl

@[simp]
theorem followups_emit (records : RunRecords) (event : RunEvent) :
    (records.emit event).followups = records.followups := rfl

@[simp]
theorem all_addEvidence (sha256Hex : JsString → JsString) (records : RunRecords)
    (draft : EvidenceDraft) :
    (records.addEvidence sha256Hex draft).all =
      records.all ++ [records.evidence.nextRecord sha256Hex draft] := rfl

@[simp]
theorem followups_addEvidence (sha256Hex : JsString → JsString) (records : RunRecords)
    (draft : EvidenceDraft) :
    (records.addEvidence sha256Hex draft).followups = records.followups := rfl

@[simp]
theorem all_createFollowup (records : RunRecords) (draft : FollowUpDraft) (runId now : JsString) :
    (records.createFollowup draft runId now).all = records.all := rfl

@[simp]
theorem followups_createFollowup (records : RunRecords) (draft : FollowUpDraft)
    (runId now : JsString) : (records.createFollowup draft runId now).followups =
      records.followups ++ [records.followups.opening draft runId now] := rfl

end RunRecords

end SpecAsCode.Runtime
