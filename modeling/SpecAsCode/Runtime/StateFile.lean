import Mathlib.Logic.Function.Basic
import SpecAsCode.Runtime.RunEnding
import SpecAsCode.Runtime.RunExtension

/-!
# The state of a run and its file

`state.json` is written next to the log.  What a comparison of the file with the projection of
the log looks at, and what a change of one requirement in the file and an event in the log do
to it.
-/

namespace SpecAsCode.Runtime

open SpecAsCode.Js
open SpecAsCode.Schema
open SpecAsCode.Verifier

/-! ## The file -/

/-- A task as `JSON.stringify` prints it. -/
def ProjectedTask.value (task : ProjectedTask) : JsValue :=
  .object (definedMembers [(js "taskId", task.taskId), (js "status", .string task.status.text),
    (js "attempt", .number task.attempt), (js "startedAt", optionalField task.startedAt),
    (js "completedAt", optionalField task.completedAt),
    (js "revision", optionalField task.revision), (js "failure", task.failure.getD .undefined)])

/-- A requirement as `JSON.stringify` prints it. -/
def ProjectedRequirement.value (requirement : ProjectedRequirement) : JsValue :=
  .object (definedMembers [(js "propertyId", .string requirement.propertyId),
    (js "status", requirement.status), (js "evidenceIds", .array requirement.evidenceIds),
    (js "updatedAt", .string requirement.updatedAt), (js "reason", optionalField requirement.reason),
    (js "weakEvidence", if requirement.weakEvidence then .bool true else .undefined),
    (js "redPhase", optionalField requirement.redPhase)])

/-- A requirement that the evaluator derived. -/
def ProjectedRequirement.ofState (state : RequirementState) : ProjectedRequirement where
  propertyId := state.propertyId
  status := .string state.status.text
  evidenceIds := state.evidenceIds.map .string
  updatedAt := state.updatedAt
  reason := state.reason
  weakEvidence := state.weakEvidence
  redPhase := state.redPhase.map RedPhase.text

/-- `JSON.parse` of `state.json`, cast to a state: the requirements are a record. -/
structure StateFile where
  members : Members
  requirements : Members
  typed : lookup (js "requirements") members = .object requirements

def StateFile.value (file : StateFile) : JsValue :=
  .object file.members

/-- The properties of a state. -/
def ProjectedState.fields (state : ProjectedState) : Members :=
  [(js "runId", state.runId), (js "kind", state.kind), (js "specId", state.specId),
    (js "specDigest", state.specDigest), (js "planId", state.planId.getD .undefined),
    (js "planDigest", state.planDigest.getD .undefined), (js "status", .string state.status),
    (js "baseRevision", state.baseRevision.getD .undefined),
    (js "resultRevision", optionalField state.resultRevision),
    (js "branch", state.branch.getD .undefined), (js "worktree", state.worktree.getD .undefined),
    (js "createdAt", state.createdAt), (js "updatedAt", state.updatedAt),
    (js "modelCalls", .number (.ofNat state.modelCalls)),
    (js "replans", .number (.ofNat state.replans)),
    (js "tasks", .object (state.tasks.entries.map fun entry => (entry.1, entry.2.value))),
    (js "requirements", .object (state.requirements.entries.map fun entry =>
      (entry.1, entry.2.value)))]

theorem ProjectedState.lookup_fields (state : ProjectedState) (key : JsString) :
    lookup key (definedMembers state.fields) = lookup key state.fields := by
  refine lookup_definedMembers ?_ key
  simp only [ProjectedState.fields, List.map]
  decide +kernel

/-- `persistState`. -/
def ProjectedState.persist (state : ProjectedState) : StateFile where
  members := definedMembers state.fields
  requirements := state.requirements.entries.map fun entry => (entry.1, entry.2.value)
  typed := by
    rw [state.lookup_fields]
    rfl

/-- `runState.requirements[state.propertyId] = state`. -/
def StateFile.setRequirement (file : StateFile) (state : RequirementState) : StateFile where
  members := setProperty (js "requirements") (.object (setProperty state.propertyId
    (ProjectedRequirement.ofState state).value file.requirements)) file.members
  requirements := setProperty state.propertyId (ProjectedRequirement.ofState state).value
    file.requirements
  typed := lookup_setProperty_self _ _ _

/-! ## What is compared -/

/-- What `stateDiffs` looks at in a projected state. -/
structure ComparedState where
  status : JsString
  resultRevision : Option JsString
  modelCalls : Nat
  replans : Nat
  tasks : JsString → Option (TaskStatus × JsNumber)
  requirements : JsString → Option JsValue

def ProjectedState.compared (state : ProjectedState) : ComparedState where
  status := state.status
  resultRevision := state.resultRevision
  modelCalls := state.modelCalls
  replans := state.replans
  tasks id := (state.tasks.get? id).map fun task => (task.status, task.attempt)
  requirements id := (state.requirements.get? id).map ProjectedRequirement.status

/-- The entry of a record shows a task. -/
def TaskShown (task : TaskStatus × JsNumber) (entry : JsValue) : Prop :=
  isTruthy entry = true ∧
    strictEquals (entry.property (js "status")) (.string task.1.text) = true ∧
    strictEquals (entry.property (js "attempt")) (.number task.2) = true

/-- The entry of a record shows the status of a requirement. -/
def RequirementShown (status entry : JsValue) : Prop :=
  isTruthy entry = true ∧ strictEquals (entry.property (js "status")) status = true

/-- A record has an entry if it is to have one, and the entry shows what it is to show. -/
def EntryShown {Entry : Type} (Shown : Entry → JsValue → Prop) (members : Members)
    (id : JsString) : Option Entry → Prop
  | none => id ∉ members.map Prod.fst
  | some entry => Shown entry (lookup id members)

/-- A record has the entries it is to have. -/
def RecordShown {Entry : Type} (Shown : Entry → JsValue → Prop) (members : Members)
    (entries : JsString → Option Entry) : Prop :=
  ∀ id, EntryShown Shown members id (entries id)

/-- The file shows a state. -/
structure StateFile.Shows (file : StateFile) (state : ComparedState) : Prop where
  status : strictEquals (lookup (js "status") file.members) (.string state.status) = true
  resultRevision : strictEquals (lookup (js "resultRevision") file.members)
    (optionalField state.resultRevision) = true
  modelCalls : strictEquals (lookup (js "modelCalls") file.members)
    (.number (.ofNat state.modelCalls)) = true
  replans : strictEquals (lookup (js "replans") file.members)
    (.number (.ofNat state.replans)) = true
  tasks : ∃ tasks, ownProperties (lookup (js "tasks") file.members) = .ok tasks ∧
    RecordShown TaskShown tasks state.tasks
  requirements : RecordShown RequirementShown file.requirements state.requirements

theorem fieldDiff_eq_nil {words : DiffWords} {label : JsString} {shown : JsValue → JsString}
    {persisted replayed : JsValue} :
    fieldDiff words label shown persisted replayed = [] ↔ strictEquals persisted replayed = true := by
  rw [fieldDiff]
  split
  next same => exact iff_of_true rfl same
  next different => exact iff_of_false (List.cons_ne_nil _ _) different

/-- The lines on the entries of a record, given the line on each. -/
theorem recordShown_iff {Entry Compared : Type} {Shown : Compared → JsValue → Prop}
    {members : Members} {replayed : OrderedMap JsString Entry} {compared : Entry → Compared}
    {diff : JsString → List JsString}
    (absent : ∀ id, replayed.get? id = none → diff id ≠ [])
    (present : ∀ id entry, replayed.get? id = some entry →
      (diff id = [] ↔ Shown (compared entry) (lookup id members))) :
    (joinedKeys members replayed).flatMap diff = [] ↔
      RecordShown Shown members fun id => (replayed.get? id).map compared := by
  have known : ∀ id, id ∈ joinedKeys members replayed ↔
      id ∈ members.map Prod.fst ∨ id ∈ replayed.entries.map Prod.fst := by
    intro id
    rw [joinedKeys, List.mem_eraseDups, List.mem_append]
  rw [List.flatMap_eq_nil_iff]
  constructor
  · intro same id
    show EntryShown Shown members id ((replayed.get? id).map compared)
    cases found : replayed.get? id with
    | none =>
        intro listed
        exact absent id found (same id ((known id).mpr (Or.inl listed)))
    | some entry =>
        have listed : id ∈ replayed.entries.map Prod.fst := by
          by_contra unlisted
          rw [OrderedMap.get?_eq_none.mpr unlisted] at found
          cases found
        exact (present id entry found).mp (same id ((known id).mpr (Or.inr listed)))
  · intro shown id member
    have here : EntryShown Shown members id ((replayed.get? id).map compared) := shown id
    cases found : replayed.get? id with
    | none =>
        rw [found] at here
        rcases (known id).mp member with listed | listed
        · exact absurd listed here
        · exact absurd listed (OrderedMap.get?_eq_none.mp found)
    | some entry =>
        rw [found] at here
        exact (present id entry found).mpr here

theorem taskDiff_eq_nil {words : DiffWords} {persisted : Members}
    {replayed : OrderedMap JsString ProjectedTask} {id : JsString} {task : ProjectedTask}
    (found : replayed.get? id = some task) :
    taskDiff words persisted replayed id = [] ↔
      TaskShown (task.status, task.attempt) (lookup id persisted) := by
  simp only [taskDiff, found]
  split
  next same =>
    rw [Bool.and_eq_true, Bool.and_eq_true, and_assoc] at same
    exact iff_of_true rfl same
  next different =>
    refine iff_of_false (List.cons_ne_nil _ _) fun shown => different ?_
    rw [Bool.and_eq_true, Bool.and_eq_true, and_assoc]
    exact shown

theorem requirementDiff_eq_nil {words : DiffWords} {persisted : Members}
    {replayed : OrderedMap JsString ProjectedRequirement} {id : JsString}
    {requirement : ProjectedRequirement} (found : replayed.get? id = some requirement) :
    requirementDiff words persisted replayed id = [] ↔
      RequirementShown requirement.status (lookup id persisted) := by
  simp only [requirementDiff, found]
  split
  next same =>
    rw [Bool.and_eq_true] at same
    exact iff_of_true rfl same
  next different =>
    refine iff_of_false (List.cons_ne_nil _ _) fun shown => different ?_
    rw [Bool.and_eq_true]
    exact shown

/-- There are no differences if and only if the file shows the replayed state. -/
theorem stateDiffs_eq_nil {words : DiffWords} {file : StateFile} {replayed : ProjectedState} :
    stateDiffs words file.value replayed = .ok [] ↔ file.Shows replayed.compared := by
  have requirements : (joinedKeys file.requirements replayed.requirements).flatMap
      (requirementDiff words file.requirements replayed.requirements) = [] ↔
      RecordShown RequirementShown file.requirements replayed.compared.requirements := by
    refine recordShown_iff (fun id found => ?_) fun id requirement found =>
      requirementDiff_eq_nil found
    simp only [requirementDiff, found]
    exact List.cons_ne_nil _ _
  have tasks : ∀ members, (joinedKeys members replayed.tasks).flatMap
      (taskDiff words members replayed.tasks) = [] ↔
      RecordShown TaskShown members replayed.compared.tasks := by
    intro members
    refine @recordShown_iff _ _ TaskShown members _
      (fun task : ProjectedTask => (task.status, task.attempt)) _ (fun id found => ?_)
      fun id task found => taskDiff_eq_nil found
    simp only [taskDiff, found]
    exact List.cons_ne_nil _ _
  have properties : ∀ key, file.value.property key = lookup key file.members := fun _ => rfl
  rw [stateDiffs, if_neg (by exact Bool.false_ne_true)]
  simp only [properties, file.typed]
  cases own : ownProperties (lookup (js "tasks") file.members) with
  | error error =>
      refine iff_of_false (fun thrown => by cases thrown) fun shows => ?_
      obtain ⟨members, known, -⟩ := shows.tasks
      rw [own] at known
      cases known
  | ok members =>
      simp only [Except.bind, Except.map, ownProperties, Except.ok.injEq, List.append_eq_nil_iff,
        fieldDiff_eq_nil, tasks, requirements]
      constructor
      · rintro ⟨⟨⟨⟨⟨status, revision⟩, calls⟩, replans⟩, tasksShown⟩, requirementsShown⟩
        exact ⟨status, revision, calls, replans, ⟨members, own, tasksShown⟩, requirementsShown⟩
      · rintro ⟨status, revision, calls, replans, ⟨other, known, tasksShown⟩, requirementsShown⟩
        rw [own] at known
        cases known
        exact ⟨⟨⟨⟨⟨status, revision⟩, calls⟩, replans⟩, tasksShown⟩, requirementsShown⟩

/-! ## Changes of the file -/

/-- The state with the status of one requirement replaced. -/
def ComparedState.withRequirement (state : ComparedState) (id : JsString) (status : JsValue) :
    ComparedState :=
  { state with requirements := Function.update state.requirements id (some status) }

theorem ProjectedRequirement.value_status (requirement : ProjectedRequirement) :
    requirement.value.property (js "status") = requirement.status := by
  show lookup _ (definedMembers _) = _
  rw [lookup_definedMembers (by simp only [List.map]; decide +kernel)]
  rfl

theorem ProjectedTask.value_properties (task : ProjectedTask) :
    task.value.property (js "status") = .string task.status.text ∧
      task.value.property (js "attempt") = .number task.attempt := by
  have distinct : ∀ key, task.value.property key = lookup key _ := fun key =>
    lookup_definedMembers (by simp only [List.map]; decide +kernel) key
  rw [distinct, distinct]
  exact ⟨rfl, rfl⟩

/-- A file in which one requirement was replaced. -/
theorem StateFile.Shows.setRequirement {file : StateFile} {state : ComparedState}
    (shows : file.Shows state) (requirement : RequirementState) :
    (file.setRequirement requirement).Shows
      (state.withRequirement requirement.propertyId (.string requirement.status.text)) := by
  have others : ∀ key, js "requirements" ≠ key →
      lookup key (file.setRequirement requirement).members = lookup key file.members :=
    fun key different => lookup_setProperty_ne _ _ different
  refine ⟨?_, ?_, ?_, ?_, ?_, fun id => ?_⟩
  · rw [others _ (by decide)]
    exact shows.status
  · rw [others _ (by decide)]
    exact shows.resultRevision
  · rw [others _ (by decide)]
    exact shows.modelCalls
  · rw [others _ (by decide)]
    exact shows.replans
  · rw [others _ (by decide)]
    exact shows.tasks
  · have here := shows.requirements id
    show EntryShown _ (setProperty _ _ _) id (Function.update state.requirements
      requirement.propertyId (some (.string requirement.status.text)) id)
    by_cases same : id = requirement.propertyId
    · rw [same, Function.update_self]
      show RequirementShown _ (lookup _ (setProperty _ _ _))
      rw [lookup_setProperty_self, RequirementShown, ProjectedRequirement.value_status]
      exact ⟨rfl, beq_self_eq_true _⟩
    · rw [Function.update_of_ne same]
      cases known : state.requirements id with
      | none =>
          rw [known] at here
          intro listed
          rcases mem_keys_setProperty.mp listed with rfl | old
          · exact same rfl
          · exact here old
      | some status =>
          rw [known] at here
          show RequirementShown status (lookup id (setProperty _ _ _))
          rw [lookup_setProperty_ne _ _ (Ne.symm same)]
          exact here

/-- The state with the statuses of some requirements replaced, one after another. -/
def ComparedState.withStates (state : ComparedState) (requirements : List RequirementState) :
    ComparedState :=
  requirements.foldl (fun state requirement =>
    state.withRequirement requirement.propertyId (.string requirement.status.text)) state

theorem StateFile.Shows.setRequirements {file : StateFile} {state : ComparedState}
    (shows : file.Shows state) (requirements : List RequirementState) :
    (requirements.foldl StateFile.setRequirement file).Shows (state.withStates requirements) := by
  induction requirements generalizing file state with
  | nil => exact shows
  | cons requirement requirements inductionHypothesis =>
      exact inductionHypothesis (shows.setRequirement requirement)

/-- The entry of a record that is printed as an object. -/
theorem entryShown_entries {Entry Compared : Type} {Shown : Compared → JsValue → Prop}
    {value : Entry → JsValue} {compared : Entry → Compared} (map : OrderedMap JsString Entry)
    (shown : ∀ id entry, map.get? id = some entry → Shown (compared entry) (value entry))
    (id : JsString) :
    EntryShown Shown (map.entries.map fun entry => (entry.1, value entry.2)) id
      ((map.get? id).map compared) := by
  have keys : (map.entries.map fun entry => (entry.1, value entry.2)).map Prod.fst =
      map.entries.map Prod.fst := by
    rw [List.map_map]
    rfl
  have found : ∀ (entries : List (JsString × Entry)),
      lookup id (entries.map fun entry => (entry.1, value entry.2)) =
        (((entries.find? fun entry => entry.1 = id).map Prod.snd).map value).getD .undefined := by
    intro entries
    induction entries with
    | nil => rfl
    | cons entry entries inductionHypothesis =>
        rw [List.map_cons, lookup]
        by_cases same : entry.1 = id
        · rw [if_pos same, List.find?_cons_of_pos (by simpa using same)]
          rfl
        · rw [if_neg same, inductionHypothesis, List.find?_cons_of_neg (by simpa using same)]
  cases there : map.get? id with
  | none =>
      show id ∉ _
      rw [keys]
      exact OrderedMap.get?_eq_none.mp there
  | some entry =>
      show Shown (compared entry) (lookup id _)
      rw [found, show (map.entries.find? fun entry => entry.1 = id).map Prod.snd = some entry from
        there]
      exact shown id entry there

theorem ofNat_ne_nan (value : Nat) : JsNumber.ofNat value ≠ .nan := by
  rw [JsNumber.ofNat, Decimal.toNumber]
  split <;> exact JsNumber.noConfusion

/-- Every status and every attempt is equal to itself. -/
structure ComparedState.Comparable (state : ComparedState) : Prop where
  tasks : ∀ id task, state.tasks id = some task → task.2 ≠ .nan
  requirements : ∀ id status, state.requirements id = some status →
    strictEquals status status = true

theorem ComparedState.Comparable.withRequirement {state : ComparedState}
    (comparable : state.Comparable) (id text : JsString) :
    (state.withRequirement id (.string text)).Comparable := by
  refine ⟨comparable.tasks, fun other status found => ?_⟩
  rw [ComparedState.withRequirement] at found
  by_cases same : other = id
  · simp only [same, Function.update_self, Option.some.injEq] at found
    rw [← found]
    exact beq_self_eq_true text
  · simp only [Function.update_of_ne same] at found
    exact comparable.requirements other status found

theorem strictEquals_number {value : JsNumber} (comparable : value ≠ .nan) :
    strictEquals (.number value) (.number value) = true := by
  simp [strictEquals, comparable]

/-- The file of a state shows it. -/
theorem ProjectedState.persist_shows {state : ProjectedState}
    (comparable : state.compared.Comparable) :
    state.persist.Shows state.compared := by
  have member : ∀ key, lookup key state.persist.members = lookup key state.fields :=
    state.lookup_fields
  refine ⟨?_, ?_, ?_, ?_, ⟨state.tasks.entries.map fun entry => (entry.1, entry.2.value), ?_, ?_⟩,
    ?_⟩
  · rw [member]
    exact beq_self_eq_true state.status
  · rw [member]
    show strictEquals (optionalField state.resultRevision) (optionalField state.resultRevision) =
      true
    cases state.resultRevision with
    | none => rfl
    | some text => exact beq_self_eq_true text
  · rw [member]
    exact strictEquals_number (ofNat_ne_nan state.modelCalls)
  · rw [member]
    exact strictEquals_number (ofNat_ne_nan state.replans)
  · rw [member]
    rfl
  · refine entryShown_entries state.tasks fun id task found => ?_
    obtain ⟨status, attempt⟩ := task.value_properties
    have there : state.compared.tasks id = some (task.status, task.attempt) := by
      simp only [ProjectedState.compared, found, Option.map_some]
    rw [TaskShown, status, attempt]
    exact ⟨rfl, beq_self_eq_true _, strictEquals_number (comparable.tasks id _ there)⟩
  · refine entryShown_entries state.requirements fun id requirement found => ?_
    have there : state.compared.requirements id = some requirement.status := by
      simp only [ProjectedState.compared, found, Option.map_some]
    rw [RequirementShown, requirement.value_status]
    exact ⟨rfl, comparable.requirements id _ there⟩

/-! ## Events -/

/-- Whether an event of a type may change what is compared. -/
def movesState : EventType → Bool
  | .taskReady => true
  | .taskStarted => true
  | .taskCommitted => true
  | .taskCompleted => true
  | .taskFailed => true
  | .taskBlocked => true
  | .taskNeedsReplan => true
  | .replanRequested => true
  | .planAmended => true
  | .propertyInherited => true
  | .propertyVerified => true
  | .usageRecorded => true
  | .runCompleted => true
  | .runFailed => true
  | _ => false

/-- What an event that moves something makes of the compared part of a state. -/
theorem compared_applyEvent {event : Event} (notAttested : event.type ≠ .runAttested)
    (state : ProjectedState) :
    (applyEvent state event).compared = (transition event state).compared := by
  rw [applyEvent, if_neg notAttested]
  rfl

theorem tasksAfter_still {event : Event} (still : movesState event.type = false)
    (tasks : OrderedMap JsString ProjectedTask) : tasksAfter event tasks = tasks := by
  have nothing : ∀ taskId prior, taskAfter event taskId prior = none := by
    intro taskId prior
    rw [taskAfter]
    split
    case h_8 => rfl
    all_goals
      next type =>
        rw [type] at still
        cases still
  rw [tasksAfter]
  split
  next => rfl
  next taskId named => rw [nothing]

theorem applyEvent_still {event : Event} (still : movesState event.type = false)
    (state : ProjectedState) : (applyEvent state event).compared = state.compared := by
  by_cases attested : event.type = .runAttested
  · rw [applyEvent, if_pos attested]
  · rw [compared_applyEvent attested, transition]
    split
    case h_8 =>
      rw [tasksAfter_still still]
    all_goals
      next type =>
        rw [type] at still
        cases still

theorem applyEvent_verified {event : Event} (verified : event.type = .propertyVerified)
    {id status : JsString} (named : lookup (js "propertyId") event.payload = .string id)
    (carries : lookup (js "status") event.payload = .string status) (state : ProjectedState) :
    (applyEvent state event).compared =
      if id = [] then state.compared
      else state.compared.withRequirement id (.string status) := by
  have text : payloadText event (js "propertyId") = some id := by
    rw [payloadText, named]
    rfl
  rw [compared_applyEvent (by rw [verified]; exact EventType.noConfusion), transition, verified]
  show (verifiedProperty event state).compared = _
  rw [verifiedProperty, text]
  by_cases empty : id = []
  · rw [if_pos empty, empty]
    rfl
  · have kept : truthy (some id) = some id := Option.filter_eq_some_iff.mpr ⟨rfl, by simpa using empty⟩
    rw [if_neg empty, kept, carries]
    simp only [ProjectedState.compared, ComparedState.withRequirement, ComparedState.mk.injEq,
      true_and]
    funext other
    by_cases same : other = id
    · rw [same, Function.update_self, OrderedMap.get?_set_self]
      rfl
    · rw [Function.update_of_ne same, OrderedMap.get?_set_ne _ same]

theorem applyEvent_completed {event : Event} (completed : event.type = .runCompleted)
    {status : JsString} (carries : lookup (js "status") event.payload = .string status)
    (noRevision : lookup (js "resultRevision") event.payload = .undefined)
    (state : ProjectedState) :
    (applyEvent state event).compared = { state.compared with status := status } := by
  rw [compared_applyEvent (by rw [completed]; exact EventType.noConfusion), transition, completed]
  show (endedRun event state).compared = _
  rw [endedRun, payloadText, payloadText, carries, noRevision]
  rfl

/-- What an event of a sweep or a resolution makes of the compared part of a state. -/
def RunEvent.effect (state : ComparedState) : RunEvent → ComparedState
  | .propertyVerified id status _ _ _ _ _ =>
      if id = [] then state else state.withRequirement id (.string status.text)
  | _ => state

theorem applyEvent_runEvent {event : Event} {made : RunEvent} (type : event.type = made.type)
    (payload : event.payload = fieldMembers made.fields) (state : ProjectedState) :
    (applyEvent state event).compared = made.effect state.compared := by
  cases made with
  | propertyVerified id status evidenceIds reason weakEvidence redPhase red =>
      refine applyEvent_verified type ?_ ?_ state
      · rw [payload]
        exact lookup_fieldMembers_self _ _ _
      · rw [payload]
        exact (lookup_fieldMembers_ne (by decide) _ _).trans (lookup_fieldMembers_self _ _ _)
  | _ => exact applyEvent_still (by rw [type]; rfl) state

section Log

variable (sha256Hex : JsString → JsString) (stamps : Nat → Stamp × Stamp)

/-- The log with the events of a step.  `stamps` gives the identifier and the time of an event by
the number of events before it. -/
def EventStore.emitAll (store : EventStore) (events : List RunEvent) : EventStore :=
  (eventInputs stamps store.log.records.length events).foldl (EventStore.extend sha256Hex) store

/-- The state that is replayed from a log, from a state on. -/
def EventStore.replayFrom (store : EventStore) (state : ProjectedState) : ProjectedState :=
  store.log.records.foldl applyEvent state

variable {sha256Hex stamps}

theorem EventStore.replayFrom_extend (store : EventStore) (input : EventStore.Input)
    (state : ProjectedState) :
    ∃ event : Event, event.type = input.type ∧ event.payload = input.payload ∧
      (store.extend sha256Hex input).replayFrom state = applyEvent (store.replayFrom state) event := by
  refine ⟨store.newEvent input ((store.nextChain sha256Hex).toOption.getD none), rfl, rfl, ?_⟩
  rw [EventStore.replayFrom, EventStore.extend_records, List.foldl_append]
  rfl

/-- The compared part of what is replayed changes with each event. -/
theorem EventStore.compared_emitAll (store : EventStore) (events : List RunEvent)
    (state : ProjectedState) :
    ((store.emitAll sha256Hex stamps events).replayFrom state).compared =
      events.foldl RunEvent.effect (store.replayFrom state).compared := by
  induction events generalizing store with
  | nil => rfl
  | cons made events inductionHypothesis =>
      obtain ⟨event, type, payload, replayed⟩ := @EventStore.replayFrom_extend sha256Hex store
        (made.input (stamps store.log.records.length).1 (stamps store.log.records.length).2) state
      have next : store.emitAll sha256Hex stamps (made :: events) =
          (store.extend sha256Hex (made.input (stamps store.log.records.length).1
            (stamps store.log.records.length).2)).emitAll sha256Hex stamps events := by
        rw [EventStore.emitAll, EventStore.emitAll, EventStore.extend_records, List.length_append]
        rfl
      rw [next, inductionHypothesis, replayed, applyEvent_runEvent type payload]
      rfl

end Log

end SpecAsCode.Runtime
