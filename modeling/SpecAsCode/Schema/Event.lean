import SpecAsCode.Schema.Fields

/-!
# Events

The event log is the source from which the state of a run is reconstructed.
-/

namespace SpecAsCode.Schema

open SpecAsCode.Js
open SpecAsCode.Core

inductive EventType where
  | runCreated
  | specLoaded
  | specValidated
  | repositoryObserved
  | planGenerated
  | planValidated
  | taskReady
  | taskStarted
  | fileChanged
  | commandExecuted
  | commandResultReused
  | observationRecorded
  | taskCompleted
  | taskCommitted
  | taskFailed
  | taskStageRejected
  | taskSubmissionRefused
  | runEndedDirty
  | taskBlocked
  | taskNeedsReplan
  | replanRequested
  | planAmended
  | patchMerged
  | executionConflict
  | evidenceRecorded
  | redPhaseRecorded
  | propertyVerified
  | propertyInherited
  | planDrift
  | followupCreated
  | followupResolved
  | usageRecorded
  | runCompleted
  | runFailed
  | runAttested
  | budgetSignal
  | supersededRun
  deriving DecidableEq

/-- The type as the schema spells it. -/
def EventType.text : EventType → JsString
  | .runCreated => js "RUN_CREATED"
  | .specLoaded => js "SPEC_LOADED"
  | .specValidated => js "SPEC_VALIDATED"
  | .repositoryObserved => js "REPOSITORY_OBSERVED"
  | .planGenerated => js "PLAN_GENERATED"
  | .planValidated => js "PLAN_VALIDATED"
  | .taskReady => js "TASK_READY"
  | .taskStarted => js "TASK_STARTED"
  | .fileChanged => js "FILE_CHANGED"
  | .commandExecuted => js "COMMAND_EXECUTED"
  | .commandResultReused => js "COMMAND_RESULT_REUSED"
  | .observationRecorded => js "OBSERVATION_RECORDED"
  | .taskCompleted => js "TASK_COMPLETED"
  | .taskCommitted => js "TASK_COMMITTED"
  | .taskFailed => js "TASK_FAILED"
  | .taskStageRejected => js "TASK_STAGE_REJECTED"
  | .taskSubmissionRefused => js "TASK_SUBMISSION_REFUSED"
  | .runEndedDirty => js "RUN_ENDED_DIRTY"
  | .taskBlocked => js "TASK_BLOCKED"
  | .taskNeedsReplan => js "TASK_NEEDS_REPLAN"
  | .replanRequested => js "REPLAN_REQUESTED"
  | .planAmended => js "PLAN_AMENDED"
  | .patchMerged => js "PATCH_MERGED"
  | .executionConflict => js "EXECUTION_CONFLICT"
  | .evidenceRecorded => js "EVIDENCE_RECORDED"
  | .redPhaseRecorded => js "RED_PHASE_RECORDED"
  | .propertyVerified => js "PROPERTY_VERIFIED"
  | .propertyInherited => js "PROPERTY_INHERITED"
  | .planDrift => js "PLAN_DRIFT"
  | .followupCreated => js "FOLLOWUP_CREATED"
  | .followupResolved => js "FOLLOWUP_RESOLVED"
  | .usageRecorded => js "USAGE_RECORDED"
  | .runCompleted => js "RUN_COMPLETED"
  | .runFailed => js "RUN_FAILED"
  | .runAttested => js "RUN_ATTESTED"
  | .budgetSignal => js "BUDGET_SIGNAL"
  | .supersededRun => js "SUPERSEDED_RUN"

def EventType.all : List EventType :=
  [.runCreated, .specLoaded, .specValidated, .repositoryObserved, .planGenerated,
    .planValidated, .taskReady, .taskStarted, .fileChanged, .commandExecuted,
    .commandResultReused, .observationRecorded, .taskCompleted, .taskCommitted, .taskFailed,
    .taskStageRejected, .taskSubmissionRefused, .runEndedDirty, .taskBlocked,
    .taskNeedsReplan, .replanRequested, .planAmended, .patchMerged, .executionConflict,
    .evidenceRecorded, .redPhaseRecorded, .propertyVerified, .propertyInherited, .planDrift,
    .followupCreated, .followupResolved, .usageRecorded, .runCompleted, .runFailed,
    .runAttested, .budgetSignal, .supersededRun]

/-- The type a text spells. -/
def EventType.ofText (text : JsString) : Option EventType :=
  EventType.all.find? fun type => type.text = text

theorem EventType.mem_all (type : EventType) : type ∈ EventType.all := by
  cases type <;> decide

@[simp]
theorem EventType.ofText_text (type : EventType) : EventType.ofText type.text = some type := by
  have spelled : ∀ type ∈ EventType.all, EventType.ofText type.text = some type := by
    decide +kernel
  exact spelled type type.mem_all

/-- An event as the schema returns it. -/
structure Event where
  seq : JsNumber
  id : JsString
  type : EventType
  runId : JsString
  timestamp : JsString
  payload : Members
  chain : Option JsString

/-- The event as an object, in the order in which it is created. -/
def Event.members (event : Event) : Members :=
  [(js "seq", .number event.seq), (js "id", .string event.id),
    (js "type", .string event.type.text), (js "runId", .string event.runId),
    (js "timestamp", .string event.timestamp), (js "payload", .object event.payload)] ++
  match event.chain with
  | none => []
  | some chain => [(js "chain", .string chain)]

def Event.toValue (event : Event) : JsValue :=
  .object event.members

/-- `eventSchema.safeParse`. -/
def eventSchema (value : JsValue) : Option Event :=
  match value with
  | .object members =>
      if onlyKeys [js "seq", js "id", js "type", js "runId", js "timestamp", js "chain",
          js "payload"] members then do
        let seq ← positiveInteger (lookup (js "seq") members)
        let id ← nonemptyString (lookup (js "id") members)
        let type ← (lookup (js "type") members).asString.bind EventType.ofText
        let runId ← (lookup (js "runId") members).asString
        let timestamp ← nonemptyString (lookup (js "timestamp") members)
        let chain ← optionalString (lookup (js "chain") members)
        let payload ← stringRecord (lookup (js "payload") members)
        return { seq, id, type, runId, timestamp, payload, chain }
      else
        none
  | _ => none

/-- The genesis value of the event chain. -/
def EVENT_CHAIN_GENESIS : JsString :=
  js "sha256:" ++ List.replicate 64 (unit '0')

/-- The event as a log returns it: the schema of the payload leaves a property named
`__proto__` out. -/
def Event.stored (event : Event) : Event :=
  { event with payload := event.payload.filter fun member => member.1 ≠ protoKey }

/-- An event that a log can hold. -/
structure Event.Storable (event : Event) : Prop where
  seq : event.seq.isPositiveInteger = true
  id : event.id ≠ []
  timestamp : event.timestamp ≠ []
  payload : (JsValue.object event.payload).isJson = true

theorem Event.lookup_members (event : Event) :
    lookup (js "seq") event.members = .number event.seq ∧
      lookup (js "id") event.members = .string event.id ∧
      lookup (js "type") event.members = .string event.type.text ∧
      lookup (js "runId") event.members = .string event.runId ∧
      lookup (js "timestamp") event.members = .string event.timestamp ∧
      lookup (js "payload") event.members = .object event.payload ∧
      optionalString (lookup (js "chain") event.members) = some event.chain := by
  obtain ⟨seq, id, type, runId, timestamp, payload, chain⟩ := event
  refine ⟨rfl, rfl, rfl, rfl, rfl, rfl, ?_⟩
  cases chain <;> rfl

/-- A storable event passes the schema. -/
theorem eventSchema_toValue {event : Event} (storable : event.Storable) :
    eventSchema event.toValue = some event.stored := by
  have keys : onlyKeys [js "seq", js "id", js "type", js "runId", js "timestamp", js "chain",
      js "payload"] event.members = true := by
    obtain ⟨seq, id, type, runId, timestamp, payload, chain⟩ := event
    cases chain <;> rfl
  obtain ⟨seq, id, type, runId, timestamp, payload, chain⟩ := event.lookup_members
  rw [Event.toValue, eventSchema, if_pos keys, seq, id, type, runId, timestamp, payload, chain,
    nonemptyString_string storable.id, nonemptyString_string storable.timestamp, positiveInteger,
    if_pos storable.seq]
  simp [JsValue.asString, stringRecord, Event.stored]

theorem isPositiveInteger_of_positiveInteger {value : JsValue} {number : JsNumber}
    (valid : positiveInteger value = some number) : number.isPositiveInteger = true := by
  cases value with
  | number other =>
      rw [positiveInteger] at valid
      split at valid
      next positive =>
        cases valid
        exact positive
      next => cases valid
  | _ => cases valid

/-- The sequence number of an event that passed the schema. -/
theorem isPositiveInteger_of_eventSchema {value : JsValue} {event : Event}
    (valid : eventSchema value = some event) : event.seq.isPositiveInteger = true := by
  cases value with
  | object members =>
      rw [eventSchema] at valid
      split at valid
      next =>
        obtain ⟨seq, number, valid⟩ := Option.bind_eq_some_iff.mp valid
        simp only [Option.bind_eq_bind, Option.bind_eq_some_iff, Option.pure_def,
          Option.some.injEq] at valid
        obtain ⟨_, -, _, -, _, -, _, -, _, -, _, -, rfl⟩ := valid
        exact isPositiveInteger_of_positiveInteger number
      next => cases valid
  | _ => cases valid

theorem Event.Storable.isJson {event : Event} (storable : event.Storable) :
    event.toValue.isJson = true := by
  have payload := storable.payload
  have finite : event.seq.isFinite = true := by
    have integer := storable.seq
    cases number : event.seq with
    | finite value => rfl
    | nan => rw [number] at integer; cases integer
    | infinity negative => rw [number] at integer; cases integer
  have enumerated : Enumerated event.members := by
    cases chain : event.chain with
    | none =>
        exact @enumerated_of_keys _
          [js "seq", js "id", js "type", js "runId", js "timestamp", js "payload"]
          (by rw [Event.members, chain]; rfl) (by decide +kernel)
    | some pointer =>
        exact @enumerated_of_keys _
          [js "seq", js "id", js "type", js "runId", js "timestamp", js "payload", js "chain"]
          (by rw [Event.members, chain]; rfl) (by decide +kernel)
  rw [Event.toValue, JsValue.isJson, Bool.and_eq_true, decide_eq_true_eq, membersAreJson_iff]
  refine ⟨enumerated, ?_⟩
  intro member found
  rw [Event.members, List.mem_append] at found
  rcases found with fixed | chained
  · simp only [List.mem_cons, List.not_mem_nil, or_false] at fixed
    rcases fixed with rfl | rfl | rfl | rfl | rfl | rfl
    · exact finite
    · rfl
    · rfl
    · rfl
    · rfl
    · exact payload
  · cases chain : event.chain with
    | none => rw [chain] at chained; cases chained
    | some pointer =>
        rw [chain, List.mem_singleton] at chained
        subst chained
        rfl

theorem Event.stored_storable {event : Event} (storable : event.Storable) :
    event.stored.Storable := by
  refine ⟨storable.seq, storable.id, storable.timestamp, ?_⟩
  have payload := storable.payload
  rw [JsValue.isJson, Bool.and_eq_true, decide_eq_true_eq, membersAreJson_iff] at payload ⊢
  exact ⟨payload.1.filter _, fun member found => payload.2 member (List.mem_filter.mp found).1⟩

@[simp]
theorem Event.stored_stored (event : Event) : event.stored.stored = event.stored := by
  simp [Event.stored, List.filter_filter]

theorem membersWithoutProto_filter (members : Members) :
    membersWithoutProto (members.filter fun member => member.1 ≠ protoKey) =
      membersWithoutProto members := by
  induction members with
  | nil => rfl
  | cons member rest inductionHypothesis =>
      obtain ⟨key, value⟩ := member
      by_cases proto : key = protoKey
      · rw [List.filter_cons_of_neg (by simp [proto]), inductionHypothesis, membersWithoutProto,
          if_pos proto]
      · rw [List.filter_cons_of_pos (by simp [proto]), membersWithoutProto, membersWithoutProto,
          if_neg proto, if_neg proto, inductionHypothesis]

/-- An event has the digest of the event a log returns for it. -/
theorem digestOf_stored (sha256Hex : JsString → JsString) {event : Event}
    (storable : event.Storable) :
    digestOf sha256Hex event.stored.toValue = digestOf sha256Hex event.toValue := by
  have stored := (Event.stored_storable storable).isJson
  have json := storable.isJson
  have visible : withoutProto event.stored.toValue = withoutProto event.toValue := by
    obtain ⟨seq, id, type, runId, timestamp, payload, chain⟩ := event
    have payloads := membersWithoutProto_filter payload
    simp only [Event.toValue, Event.members, Event.stored, withoutProto, List.cons_append,
      membersWithoutProto, payloads]
  have texts := @canonicalJson_eq_iff
    ⟨event.stored.toValue, isWellFormed_of_isJson stored⟩
    ⟨event.toValue, isWellFormed_of_isJson json⟩
    (transformInner_isJson [] stored) (transformInner_isJson [] json)
  rw [digestOf, digestOf, texts.mpr (visible ▸ LogicallyEqual.refl _)]

/-- A storable event has a digest. -/
theorem exists_digestOf (sha256Hex : JsString → JsString) {event : Event}
    (storable : event.Storable) : ∃ digest, digestOf sha256Hex event.toValue = .ok digest := by
  obtain ⟨copy, copied⟩ := transformInner_isJson [] storable.isJson
  exact ⟨_, by rw [digestOf, canonicalJson, canonicalize, copied]; rfl⟩

end SpecAsCode.Schema
