import SpecAsCode.Runtime.StateFile

/-!
# Standalone verification runs

`createVerifyRun` sweeps the properties of a specification in a run of its own and writes the
state of the run by hand.  A sweep that the harness lets time out is finalized too.
-/

namespace SpecAsCode.Runtime

open SpecAsCode.Js
open SpecAsCode.Schema
open SpecAsCode.Verifier

/-! ## The parts of a run -/

inductive PrepareMode where
  | installed
  | linked
  | none
  | failed
  deriving DecidableEq

def PrepareMode.text : PrepareMode → JsString
  | .installed => js "installed"
  | .linked => js "linked"
  | .none => js "none"
  | .failed => js "failed"

/-- How the execution environment was prepared. -/
structure PrepareOutcome where
  mode : PrepareMode
  exitCode : Option JsNumber
  detail : Option JsString

/-- The metadata of a verification run. -/
structure VerifyMeta where
  runId : JsString
  specId : JsString
  specDigest : JsString
  configDigest : JsString
  baseRevision : JsString
  createdAt : JsString

/-- `metadata.json`. -/
def VerifyMeta.value (runMeta : VerifyMeta) : JsValue :=
  .object (fieldMembers [(js "runId", some (.text runMeta.runId)),
    (js "kind", some (.text (js "verify"))), (js "specId", some (.text runMeta.specId)),
    (js "specDigest", some (.text runMeta.specDigest)),
    (js "configDigest", some (.text runMeta.configDigest)),
    (js "baseRevision", some (.text runMeta.baseRevision)),
    (js "createdAt", some (.text runMeta.createdAt))])

/-- `StandaloneVerifyOptions`, with the metadata that is made from them and the parts of the
specification and the configuration that are read. -/
structure StandaloneVerifyOptions where
  runMeta : VerifyMeta
  dirty : Bool
  properties : List DesiredProperty
  policy : JsString → CommandDecision
  provider : Option JsString
  prepareOutcome : Option PrepareOutcome
  suites : Option SuiteRegistry
  allowAgentOnlyMustRequirements : Bool
  requireRedPhase : Bool
  /-- The code or the message of an error says that the harness got no answer in time. -/
  harnessTimeout : VerifyError → Bool

/-- An event at the beginning of a verification run. -/
inductive VerifyOpening where
  | created (runMeta : VerifyMeta) (dirty : Bool)
  | specLoaded (runMeta : VerifyMeta)
  | specValidated (runMeta : VerifyMeta)

namespace VerifyOpening

def type : VerifyOpening → EventType
  | .created .. => .runCreated
  | .specLoaded .. => .specLoaded
  | .specValidated .. => .specValidated

/-- The payload of an event. -/
def fields : VerifyOpening → List Field
  | .created runMeta dirty =>
      [(js "runId", some (.text runMeta.runId)), (js "kind", some (.text (js "verify"))),
        (js "specId", some (.text runMeta.specId)),
        (js "baseRevision", some (.text runMeta.baseRevision)), (js "dirty", some (.bool dirty))]
  | .specLoaded runMeta =>
      [(js "specId", some (.text runMeta.specId)), (js "digest", some (.text runMeta.specDigest))]
  | .specValidated runMeta => [(js "digest", some (.text runMeta.specDigest))]

theorem fields_ordered (event : VerifyOpening) : Ordered event.fields := by
  cases event with
  | created =>
      simp only [Ordered, fields, List.map]
      decide +kernel
  | specLoaded =>
      simp only [Ordered, fields, List.map]
      decide +kernel
  | specValidated =>
      simp only [Ordered, fields, List.map]
      decide +kernel

/-- What `events.append` is called with. -/
def input (event : VerifyOpening) (id timestamp : Stamp) : EventStore.Input where
  type := event.type
  payload := fieldMembers event.fields
  id := id.1
  timestamp := timestamp.1
  json := isJson_fieldMembers event.fields_ordered
  id_ne_nil := Stamp.ne_nil id
  timestamp_ne_nil := Stamp.ne_nil timestamp

end VerifyOpening

/-- The files of a run: the follow-ups, the evidence, the log, the state and the
attestation. -/
structure RunDirectory where
  followups : FollowupStore
  evidence : EvidenceStore
  log : EventStore
  state : Option StateFile
  attestation : Option RunAttestation

/-! ## The run -/

section Run

variable (sha256Hex : JsString → JsString) (surroundings : Surroundings)
  (stamps : Nat → Stamp × Stamp) (options : StandaloneVerifyOptions)

/-- The record on the preparation of the environment. -/
def preparationEvidence (outcome : PrepareOutcome) (now : Stamp) : EvidenceDraft where
  runId := options.runMeta.runId
  taskId := none
  criterionId := none
  propertyRefs := []
  kind := .preparation
  outcome := if outcome.mode = .failed then .inconclusive else .supports
  producer := ⟨.runtime, none⟩
  timestamp := now
  repositoryRevision := options.runMeta.baseRevision
  red := false
  payload := Json.object [(js "mode", some (.text outcome.mode.text)),
    (js "exitCode", outcome.exitCode.map .number),
    (js "detail", (truthy outcome.detail).map .text)]
    (by simp only [Ordered, List.map]; decide)

/-- What `verifyStandalone` gives to the sweep. -/
def StandaloneVerifyOptions.sweepInput : SweepInput where
  properties := options.properties
  runId := options.runMeta.runId
  revision := options.runMeta.baseRevision
  policy := options.policy
  provider := options.provider
  taskId := none
  red := false
  enforceRedPhase := false
  environmentReady := options.prepareOutcome.all fun outcome => outcome.mode ≠ .failed
  suites := options.suites
  inheritedFlips := fun _ => none
  allowAgentOnlyMustRequirements := options.allowAgentOnlyMustRequirements
  requireRedPhase := options.requireRedPhase

/-- `verifyStandalone`. -/
def verifyStandalone (records : RunRecords) : RunRecords × Except VerifyError SweepResult :=
  verifyProperties sha256Hex surroundings options.sweepInput
    (options.prepareOutcome.elim records fun outcome => records.addEvidence sha256Hex
      (preparationEvidence options outcome (surroundings.evidenceTime records.all.length)))

/-- The states of a sweep by their properties. -/
def statesMap (states : List RequirementState) : OrderedMap JsString RequirementState :=
  OrderedMap.ofEntries (states.map fun state => (state.propertyId, state))

/-- A property is satisfied or waived. -/
def holdsIn (states : List RequirementState) (property : DesiredProperty) : Bool :=
  ((statesMap states).get? property.id).any fun state =>
    state.status = .satisfied || state.status = .waived

/-- The status at the end of a verification run. -/
def verifyStatus (followups : FollowupStore) (states : List RequirementState) : RunStatus :=
  if followups.any fun followup => followup.status = .opened && followup.blocking then
    .blocked
  else if (options.properties.filter fun property => property.priority = .must).all
      (holdsIn states) then
    .succeeded
  else
    .partiallySatisfied

/-- `{ ...record, ...Object.fromEntries(states.map((s) => [s.propertyId, s])) }`. -/
def spreadStates (requirements : OrderedMap JsString ProjectedRequirement)
    (states : List RequirementState) : OrderedMap JsString ProjectedRequirement :=
  (statesMap states).entries.foldl
    (fun spread entry => spread.set entry.1 (.ofState entry.2)) requirements

/-- One event more. -/
def EventStore.stamped (store : EventStore) (input : Stamp → Stamp → EventStore.Input) :
    EventStore :=
  let times := stamps store.log.records.length
  store.extend sha256Hex (input times.1 times.2)

/-- The log after the events at the beginning. -/
def openedLog : EventStore :=
  [VerifyOpening.created options.runMeta options.dirty, .specLoaded options.runMeta,
    .specValidated options.runMeta].foldl
    (fun store event => store.stamped sha256Hex stamps event.input)
    (EventStore.fresh options.runMeta.runId)

/-- The log with the attestation of the run at its end.  The records of a run can be
digested. -/
def attestedLog (log : EventStore) (attestation : Option RunAttestation) : EventStore :=
  attestation.elim log fun attestation => log.stamped sha256Hex stamps attestation.input

/-- The directory of a run that timed out. -/
def timedOutRun (records : RunRecords) (log : EventStore) : RunDirectory where
  followups := records.followups
  evidence := records.evidence
  log := log.stamped sha256Hex stamps
    (EndEvent.completed .timedOut none (Json.fromEntries [])).input
  state := (initialState options.runMeta.value .null).toOption.map fun initial =>
    { initial with status := RunStatus.timedOut.text : ProjectedState }.persist
  attestation := none

/-- The directory of a run that ended. -/
def endedVerifyRun (attestedAt : JsString) (records : RunRecords) (log : EventStore)
    (states : List RequirementState) : RunDirectory :=
  let status := verifyStatus options records.followups states
  let completed := log.stamped sha256Hex stamps (EndEvent.completed status none
    (Json.fromEntries (states.map fun state => (state.propertyId, .text state.status.text)))).input
  let attestation := (attestRecords sha256Hex ⟨options.runMeta.runId, options.runMeta.specId,
    status, attestedAt⟩ completed records.all).toOption
  { followups := records.followups
    evidence := records.evidence
    log := attestedLog sha256Hex stamps completed attestation
    state := (initialState options.runMeta.value .null).toOption.map fun initial =>
      let state := log.replayFrom initial
      { state with
        status := status.text
        requirements := spreadStates state.requirements states : ProjectedState }.persist
    attestation := attestation }

/-- `createVerifyRun`: the directory of the run, and the states or the error it was left with. -/
def createVerifyRun (attestedAt : JsString) :
    RunDirectory × Except VerifyError (List RequirementState) :=
  match verifyStandalone sha256Hex surroundings options RunRecords.fresh with
  | (records, outcome) =>
      let log := (openedLog sha256Hex stamps options).emitAll sha256Hex stamps records.events
      match outcome with
      | .error error =>
          if options.harnessTimeout error then
            (timedOutRun sha256Hex stamps options records log, .error error)
          else
            (⟨records.followups, records.evidence, log, none, none⟩, .error error)
      | .ok sweep =>
          (endedVerifyRun sha256Hex stamps options attestedAt records log sweep.states,
            .ok sweep.states)

end Run

end SpecAsCode.Runtime
