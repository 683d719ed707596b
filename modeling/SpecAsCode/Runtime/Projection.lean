import SpecAsCode.Js.Indented
import SpecAsCode.Js.OrderedMap
import SpecAsCode.Runtime.ResolveFollowup
import SpecAsCode.Schema.State

/-!
# The projection of an event log

The state of a run is a materialized projection over its events.  The metadata, the plan and
the payloads of the events are read without a check of their shape, so what is copied from
them stays a JSON value.
-/

namespace SpecAsCode.Runtime

open SpecAsCode.Js
open SpecAsCode.Schema

/-! ## Values that are not checked -/

/-- What is thrown when a value does not have the shape that is taken for granted. -/
inductive TypeError where
  | nullish
  | notIterable
  | notText
  deriving DecidableEq

/-- `Boolean(value)`. -/
def isTruthy : JsValue → Bool
  | .undefined => false
  | .null => false
  | .bool value => value
  | .number value => value != .nan && value != .ofNat 0
  | .string value => value != []
  | .array _ => true
  | .object _ => true

/-- `value === other`, for values that were not read from one document: their arrays and
objects are different ones. -/
def strictEquals : JsValue → JsValue → Bool
  | .undefined, .undefined => true
  | .null, .null => true
  | .bool value, .bool other => value == other
  | .number value, .number other => value != .nan && value == other
  | .string value, .string other => value == other
  | _, _ => false

/-- A value if it is truthy. -/
def truthyValue (value : JsValue) : Option JsValue :=
  if isTruthy value then some value else none

/-- `typeof value === "number" ? value : undefined`. -/
def asNumber : JsValue → Option JsNumber
  | .number value => some value
  | _ => none

/-- `Array.isArray(value) ? value : []`. -/
def asItems : JsValue → List JsValue
  | .array items => items
  | _ => []

/-- The own enumerable properties of a value, for `Object.keys(value)` and `value[key]`. -/
def ownProperties : JsValue → Except TypeError Members
  | .undefined => .error .nullish
  | .null => .error .nullish
  | .object members => .ok members
  | .array items => .ok (items.zipIdx.map fun item => (natText item.2, item.1))
  | .string text => .ok (text.zipIdx.map fun code => (natText code.2, .string [code.1]))
  | _ => .ok []

/-! ## States -/

/-- A task in a projected state. -/
structure ProjectedTask where
  taskId : JsValue
  status : TaskStatus
  attempt : JsNumber
  startedAt : Option JsString
  completedAt : Option JsString
  revision : Option JsString
  failure : Option JsValue

/-- A requirement in a projected state. -/
structure ProjectedRequirement where
  propertyId : JsString
  status : JsValue
  evidenceIds : List JsValue
  updatedAt : JsString
  reason : Option JsString
  weakEvidence : Bool
  redPhase : Option JsString

/-- `RunState`, as the projection builds it. -/
structure ProjectedState where
  runId : JsValue
  kind : JsValue
  specId : JsValue
  specDigest : JsValue
  planId : Option JsValue
  planDigest : Option JsValue
  status : JsString
  baseRevision : Option JsValue
  resultRevision : Option JsString
  branch : Option JsValue
  worktree : Option JsValue
  createdAt : JsValue
  updatedAt : JsValue
  modelCalls : Nat
  replans : Nat
  tasks : OrderedMap JsString ProjectedTask
  requirements : OrderedMap JsString ProjectedRequirement

/-- A task that has not started. -/
def pendingTask (taskId : JsValue) : ProjectedTask :=
  ⟨taskId, .pending, .ofNat 0, none, none, none, none⟩

/-- The tasks of a plan, none without a plan. -/
def planTasks (plan : JsValue) : Except TypeError (List JsValue) :=
  if isTruthy plan then
    match plan.property (js "tasks") with
    | .array tasks => if tasks.any JsValue.isNullish then .error .nullish else .ok tasks
    | _ => .error .notIterable
  else
    .ok []

/-- `initialState`. -/
def initialState (runMeta plan : JsValue) : Except TypeError ProjectedState :=
  if runMeta.isNullish then
    .error .nullish
  else
    (planTasks plan).map fun planned =>
      { runId := runMeta.property (js "runId")
        kind := runMeta.property (js "kind")
        specId := runMeta.property (js "specId")
        specDigest := runMeta.property (js "specDigest")
        planId := truthyValue (runMeta.property (js "planId"))
        planDigest := truthyValue (runMeta.property (js "planDigest"))
        status := js "running"
        baseRevision := truthyValue (runMeta.property (js "baseRevision"))
        resultRevision := none
        branch := truthyValue (runMeta.property (js "branch"))
        worktree := truthyValue (runMeta.property (js "worktree"))
        createdAt := runMeta.property (js "createdAt")
        updatedAt := runMeta.property (js "createdAt")
        modelCalls := 0
        replans := 0
        tasks := planned.foldl (fun tasks task =>
          tasks.set (task.property (js "id")).display (pendingTask (task.property (js "id"))))
            OrderedMap.empty
        requirements := OrderedMap.empty }

/-! ## One event -/

/-- A text in a payload. -/
def payloadText (event : Event) (key : JsString) : Option JsString :=
  (lookup key event.payload).asString

/-- The attempt that an event names, else the one before it. -/
def attemptOf (event : Event) (prior : Option ProjectedTask) : JsNumber :=
  (asNumber (lookup (js "attempt") event.payload)).getD
    ((prior.map ProjectedTask.attempt).getD (.ofNat 0))

/-- What an event makes of the task it names. -/
def taskAfter (event : Event) (taskId : JsString) (prior : Option ProjectedTask) :
    Option ProjectedTask :=
  let attempt := attemptOf event prior
  let error := truthyValue (lookup (js "error") event.payload)
  let failure := prior.bind ProjectedTask.failure
  let startedAt := truthy (prior.bind ProjectedTask.startedAt)
  let revision := truthy (prior.bind ProjectedTask.revision)
  match event.type with
  | .taskReady => some ⟨.string taskId, .ready, attempt, none, none, none, failure⟩
  | .taskStarted =>
      some ⟨.string taskId, .running, attempt, some event.timestamp, none, none, failure⟩
  | .taskCommitted => prior.map fun task =>
      { task with revision := (payloadText event (js "revision")).or task.revision }
  | .taskCompleted =>
      some ⟨.string taskId, .completed, attempt, startedAt, some event.timestamp, revision, none⟩
  | .taskFailed =>
      some ⟨.string taskId, .failed, attempt, startedAt, none, none, error.or failure⟩
  | .taskBlocked => some ⟨.string taskId, .blocked, attempt, none, none, none, error⟩
  | .taskNeedsReplan => some ⟨.string taskId, .needsReplan,
      (prior.map ProjectedTask.attempt).getD (.ofNat 0), none, none, none, none⟩
  | _ => none

/-- `tasks` after an event that names a task. -/
def tasksAfter (event : Event) (tasks : OrderedMap JsString ProjectedTask) :
    OrderedMap JsString ProjectedTask :=
  match truthy (payloadText event (js "taskId")) with
  | none => tasks
  | some taskId =>
      match taskAfter event taskId (tasks.get? taskId) with
      | none => tasks
      | some task => tasks.set taskId task

/-- A task that an amendment removes.  One that has completed stays as it is. -/
def removeTask (tasks : OrderedMap JsString ProjectedTask) (id : JsValue) :
    OrderedMap JsString ProjectedTask :=
  match tasks.get? id.display with
  | none => tasks.set id.display ⟨id, .skipped, .ofNat 0, none, none, none, none⟩
  | some prior =>
      if prior.status = .completed then tasks
      else tasks.set id.display { prior with status := .skipped }

/-- `PLAN_AMENDED`. -/
def amendedPlan (event : Event) (state : ProjectedState) : ProjectedState :=
  let removed := asItems (lookup (js "removedTaskIds") event.payload)
  let added := asItems (lookup (js "addedTaskIds") event.payload)
  { state with
    planDigest := ((payloadText event (js "planDigest")).map .string).or state.planDigest
    tasks := added.foldl (fun tasks id => tasks.set id.display (pendingTask id))
      (removed.foldl removeTask state.tasks) }

/-- `PROPERTY_INHERITED`. -/
def inheritedProperty (event : Event) (state : ProjectedState) : ProjectedState :=
  match state.requirements.get? ((payloadText event (js "propertyId")).getD []) with
  | none => state
  | some req =>
      { state with
        requirements := state.requirements.set req.propertyId
          { req with
            status := .string (js "satisfied")
            reason := (payloadText event (js "reason")).or req.reason } }

/-- `PROPERTY_VERIFIED`. -/
def verifiedProperty (event : Event) (state : ProjectedState) : ProjectedState :=
  match truthy (payloadText event (js "propertyId")) with
  | none => state
  | some propertyId =>
      { state with
        requirements := state.requirements.set propertyId
          { propertyId := propertyId
            status := (lookup (js "status") event.payload).orElse (.string (js "unknown"))
            evidenceIds := asItems (lookup (js "evidenceIds") event.payload)
            updatedAt := event.timestamp
            reason := payloadText event (js "reason")
            weakEvidence := (lookup (js "weakEvidence") event.payload).isTrue
            redPhase := payloadText event (js "redPhase") } }

/-- `RUN_COMPLETED` and `RUN_FAILED`. -/
def endedRun (event : Event) (state : ProjectedState) : ProjectedState :=
  { state with
    status := (payloadText event (js "status")).getD state.status
    resultRevision := (payloadText event (js "resultRevision")).or state.resultRevision }

/-- The transition that an event stands for. -/
def transition (event : Event) (state : ProjectedState) : ProjectedState :=
  match event.type with
  | .replanRequested => { state with replans := state.replans + 1 }
  | .planAmended => amendedPlan event state
  | .propertyInherited => inheritedProperty event state
  | .propertyVerified => verifiedProperty event state
  | .usageRecorded => { state with modelCalls := state.modelCalls + 1 }
  | .runCompleted => endedRun event state
  | .runFailed => endedRun event state
  | _ => { state with tasks := tasksAfter event state.tasks }

/-- `applyEvent`.  An attestation commits to the log and moves nothing. -/
def applyEvent (state : ProjectedState) (event : Event) : ProjectedState :=
  if event.type = .runAttested then
    state
  else
    { transition event state with updatedAt := .string event.timestamp }

/-- `projectState`. -/
def projectState (runMeta plan : JsValue) (events : List Event) : Except TypeError ProjectedState :=
  (initialState runMeta plan).map fun state => events.foldl applyEvent state

/-- Attestations at the end of a log do not show in its projection. -/
theorem projectState_attested (runMeta plan : JsValue) (events : List Event)
    {attested : List Event} (attestations : ∀ event ∈ attested, event.type = .runAttested) :
    projectState runMeta plan (events ++ attested) = projectState runMeta plan events := by
  have still : ∀ state, attested.foldl applyEvent state = state := by
    intro state
    induction attested with
    | nil => rfl
    | cons event rest inductionHypothesis =>
        rw [List.foldl_cons, applyEvent, if_pos (attestations event List.mem_cons_self)]
        exact inductionHypothesis fun other member =>
          attestations other (List.mem_cons_of_mem _ member)
  simp only [projectState, List.foldl_append, still]

/-! ## Differences -/

/-- The words between which a difference is told. -/
structure DiffWords where
  lead : JsString
  middle : JsString

/-- A line on a difference. -/
def diffLine (words : DiffWords) (label persisted replayed : JsString) : JsString :=
  label ++ js ": " ++ words.lead ++ persisted ++ words.middle ++ replayed

/-- The line on a field if its values differ.  `shown` prints a value. -/
def fieldDiff (words : DiffWords) (label : JsString) (shown : JsValue → JsString)
    (persisted replayed : JsValue) : List JsString :=
  if strictEquals persisted replayed then []
  else [diffLine words label (shown persisted) (shown replayed)]

/-- `${value ?? "-"}`. -/
def shownRevision (value : JsValue) : JsString :=
  (value.orElse (.string (js "-"))).display

/-- A task as a difference shows it. -/
def shownTask (status attempt : JsValue) : JsString :=
  status.display ++ js "/" ++ attempt.display

/-- The keys of two records, each once. -/
def joinedKeys {Entry : Type} (persisted : Members) (replayed : OrderedMap JsString Entry) :
    List JsString :=
  (persisted.map Prod.fst ++ replayed.entries.map Prod.fst).eraseDups

/-- The line on a task if its status or its attempt differs. -/
def taskDiff (words : DiffWords) (persisted : Members)
    (replayed : OrderedMap JsString ProjectedTask) (id : JsString) : List JsString :=
  let entry := lookup id persisted
  let persistedStatus := entry.property (js "status")
  let persistedAttempt := entry.property (js "attempt")
  let before := if isTruthy entry then shownTask persistedStatus persistedAttempt else js "absent"
  match replayed.get? id with
  | none => [diffLine words (js "task " ++ id) before (js "absent")]
  | some task =>
      if isTruthy entry && strictEquals persistedStatus (.string task.status.text) &&
          strictEquals persistedAttempt (.number task.attempt) then
        []
      else
        [diffLine words (js "task " ++ id) before
          (shownTask (.string task.status.text) (.number task.attempt))]

/-- The line on a requirement if its status differs. -/
def requirementDiff (words : DiffWords) (persisted : Members)
    (replayed : OrderedMap JsString ProjectedRequirement) (id : JsString) : List JsString :=
  let entry := lookup id persisted
  let before := ((entry.property (js "status")).orElse (.string (js "absent"))).display
  match replayed.get? id with
  | none => [diffLine words (js "requirement " ++ id) before (js "absent")]
  | some requirement =>
      if isTruthy entry && strictEquals (entry.property (js "status")) requirement.status then
        []
      else
        [diffLine words (js "requirement " ++ id) before requirement.status.display]

/-- `stateDiffs`, which `verifyBundle` repeats with words of its own. -/
def stateDiffs (words : DiffWords) (persisted : JsValue) (replayed : ProjectedState) :
    Except TypeError (List JsString) :=
  if persisted.isNullish then
    .error .nullish
  else
    (ownProperties (persisted.property (js "tasks"))).bind fun tasks =>
      (ownProperties (persisted.property (js "requirements"))).map fun requirements =>
        fieldDiff words (js "status") JsValue.display (persisted.property (js "status"))
          (.string replayed.status) ++
        fieldDiff words (js "resultRevision") shownRevision
          (persisted.property (js "resultRevision")) (optionalField replayed.resultRevision) ++
        fieldDiff words (js "modelCalls") JsValue.display (persisted.property (js "modelCalls"))
          (.number (.ofNat replayed.modelCalls)) ++
        fieldDiff words (js "replans") JsValue.display (persisted.property (js "replans"))
          (.number (.ofNat replayed.replans)) ++
        (joinedKeys tasks replayed.tasks).flatMap (taskDiff words tasks replayed.tasks) ++
        (joinedKeys requirements replayed.requirements).flatMap
          (requirementDiff words requirements replayed.requirements)

/-! ## The words do not matter -/

theorem fieldDiff_length (words other : DiffWords) (label : JsString)
    (shown : JsValue → JsString) (persisted replayed : JsValue) :
    (fieldDiff words label shown persisted replayed).length =
      (fieldDiff other label shown persisted replayed).length := by
  rw [fieldDiff, fieldDiff]
  split <;> rfl

theorem taskDiff_length (words other : DiffWords) (persisted : Members)
    (replayed : OrderedMap JsString ProjectedTask) (id : JsString) :
    (taskDiff words persisted replayed id).length =
      (taskDiff other persisted replayed id).length := by
  rw [taskDiff, taskDiff]
  cases replayed.get? id with
  | none => rfl
  | some task => simp only; split <;> rfl

theorem requirementDiff_length (words other : DiffWords) (persisted : Members)
    (replayed : OrderedMap JsString ProjectedRequirement) (id : JsString) :
    (requirementDiff words persisted replayed id).length =
      (requirementDiff other persisted replayed id).length := by
  rw [requirementDiff, requirementDiff]
  cases replayed.get? id with
  | none => rfl
  | some requirement => simp only; split <;> rfl

/-- Two comparisons of one state come to as many differences, or throw the same. -/
theorem stateDiffs_length (words other : DiffWords) (persisted : JsValue)
    (replayed : ProjectedState) :
    (stateDiffs words persisted replayed).map List.length =
      (stateDiffs other persisted replayed).map List.length := by
  have tasks : ∀ known, (taskDiff words known replayed.tasks · |>.length) =
      (taskDiff other known replayed.tasks · |>.length) :=
    fun known => funext fun id => taskDiff_length words other known replayed.tasks id
  have requirements : ∀ known, (requirementDiff words known replayed.requirements · |>.length) =
      (requirementDiff other known replayed.requirements · |>.length) :=
    fun known => funext fun id => requirementDiff_length words other known replayed.requirements id
  rw [stateDiffs, stateDiffs]
  by_cases nullish : persisted.isNullish = true
  · rw [if_pos nullish, if_pos nullish]
  · rw [if_neg nullish, if_neg nullish]
    cases ownProperties (persisted.property (js "tasks")) with
    | error error => rfl
    | ok knownTasks =>
        cases ownProperties (persisted.property (js "requirements")) with
        | error error => rfl
        | ok known =>
            simp only [Except.bind, Except.map, List.length_append, List.length_flatMap,
              fieldDiff_length words other, tasks knownTasks, requirements known]

end SpecAsCode.Runtime
