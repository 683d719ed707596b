import Mathlib.Data.Finset.Card
import SpecAsCode.Planner.AmendmentRisk
import SpecAsCode.Planner.PlanGeneration
import SpecAsCode.Runtime.Projection

/-!
# Replans

A task that cannot go on asks for a replan.  The amended plan is put in force between two tasks,
and the plan before it is kept in the folder of the run.
-/

namespace SpecAsCode.Runtime.Replans

open SpecAsCode.Js
open SpecAsCode.Core
open SpecAsCode.Lib
open SpecAsCode.Planner
open SpecAsCode.Schema
open SpecAsCode.Runtime.Parallel (pendingState)

/-! ## Drift -/

structure PlanDrift where
  originalTaskCount : Nat
  tasksAdded : Nat
  tasksRemoved : Nat
  replans : Nat
  filesChanged : Nat
  filesOutsideOriginalTargets : List JsString
  deriving DecidableEq

/-- The type of an event and its payload. -/
abbrev Recorded := EventType × Members

/-- How many tasks the amendments list under a key. -/
def listedTasks (key : JsString) (events : List Recorded) : Nat :=
  ((events.filter fun event => event.1 = .planAmended).map fun event =>
    (asItems (lookup key event.2)).length).sum

def requestedReplans (events : List Recorded) : Nat :=
  (events.filter fun event => event.1 = .replanRequested).length

/-- The files that were changed, each once. -/
def changedFiles (events : List Recorded) : List JsString :=
  ((events.filter fun event => event.1 = .fileChanged).filterMap fun event =>
    (lookup (js "path") event.2).asString).dedup

def computePlanDrift (events : List Recorded) (originalPlan : Plan) : PlanDrift where
  originalTaskCount := originalPlan.tasks.length
  tasksAdded := listedTasks (js "addedTaskIds") events
  tasksRemoved := listedTasks (js "removedTaskIds") events
  replans := requestedReplans events
  filesChanged := (changedFiles events).length
  filesOutsideOriginalTargets :=
    sortUnique ((changedFiles events).filter fun file =>
      !globMatchAny (originalPlan.tasks.flatMap Task.writes) file)

/-! ## The run -/

structure ReplanConfig where
  ir : SpecIR
  maxReplans : Nat
  /-- `amendmentApproval` is `tiered`. -/
  tiered : Bool
  highRiskWritePatterns : List JsString
  /-- `computePlanDigest`. -/
  planDigest : Plan → JsString

structure PlannedRun where
  /-- The plan in force. -/
  plan : Plan
  tasks : OrderedMap JsString TaskState
  replans : Nat
  /-- The files with plans in the folder of the run. -/
  versions : OrderedMap JsString Plan
  events : List Recorded

/-- What the request of a task for a replan comes with. -/
structure ReplanRequest (Failure : Type) where
  taskId : JsString
  observationIds : List JsString
  isDirectory : Option (JsString → Bool)
  payload : JsString
  trigger : JsString
  provider : Option (Provider Failure (List AmendmentOperation))
  /-- The follow-up that a failure opens.  The parallel driver opens none. -/
  failureId : Option JsString
  /-- The follow-up that asks for an approval. -/
  approvalId : JsString

namespace PlannedRun

def statusOf (run : PlannedRun) (id : JsString) : Option TaskStatus :=
  (run.tasks.get? id).map TaskState.status

def append (run : PlannedRun) (type : EventType) (payload : Members) : PlannedRun :=
  { run with events := run.events ++ [(type, payload)] }

/-- `executedTaskIds`. -/
def executed (run : PlannedRun) : List JsString :=
  (run.tasks.entries.filter fun entry =>
    entry.2.status = .completed ∨ entry.2.status = .running).map Prod.fst

/-- `AM-` and a number of at least three digits. -/
def amendmentId (number : Nat) : JsString :=
  js "AM-" ++ List.replicate (3 - (natText number).length) (unit '0') ++ natText number

/-- `plan-v`, a number and `.json`. -/
def versionFile (number : Nat) : JsString :=
  js "plan-v" ++ List.replicate (0 - (natText number).length) (unit '0') ++ natText number ++
    js ".json"

def operationName : AmendmentOperation → JsString
  | .addTask _ => js "addTask"
  | .removeTask _ => js "removeTask"
  | .replaceTask _ _ => js "replaceTask"
  | .addDependency _ _ => js "addDependency"
  | .changeTarget _ _ => js "changeTarget"

def idValues (ids : List JsString) : JsValue :=
  .array (ids.map .string)

/-- The identifiers of the tasks of a plan that another plan does not have. -/
def idsBeyond (plan other : Plan) : List JsString :=
  (once [] (ids plan.tasks)).filter fun id => id ∉ ids other.tasks

/-- A task of the amended plan that waits for it is tried again. -/
def resetReplanned (run : PlannedRun) (task : Task) : PlannedRun :=
  match run.tasks.get? task.id with
  | none => run
  | some prior =>
      if prior.status = .needsReplan then
        { run with tasks := run.tasks.set task.id { prior with status := .pending } }.append
          .taskReady
          [(js "taskId", .string task.id), (js "attempt", .number (.ofNat prior.attempt)),
            (js "redispatch", .string (js "amended"))]
      else
        run

/-- The tasks that an amendment adds start anew. -/
def startAdded (tasks : OrderedMap JsString TaskState) (added : List JsString) :
    OrderedMap JsString TaskState :=
  added.foldl (fun tasks id => tasks.set id (pendingState id)) tasks

def keepVersion (run : PlannedRun) : PlannedRun :=
  { run with
    versions := run.versions.set (versionFile (run.versions.entries.length + 1)) run.plan }

/-- The amended plan comes in force. -/
def amend (config : ReplanConfig) (run : PlannedRun) (operations : List AmendmentOperation)
    (amended : Plan) : PlannedRun :=
  let added := idsBeyond amended run.plan
  let removed := idsBeyond run.plan amended
  let kept := run.keepVersion
  let started := { kept with tasks := startAdded kept.tasks added }
  let reset := amended.tasks.foldl resetReplanned started
  let recorded := { reset with plan := amended }.append .planAmended
    [(js "amendmentId", .string (amendmentId (run.replans + 1))),
      (js "planDigest", .string (config.planDigest amended)),
      (js "removedTaskIds", idValues removed), (js "addedTaskIds", idValues added),
      (js "operations", idValues (operations.map operationName))]
  { recorded with replans := recorded.replans + 1 }

/-- `failReplan`. -/
def failReplan (run : PlannedRun) (followupId : Option JsString) : PlannedRun :=
  match followupId with
  | none => run
  | some id =>
      run.append .followupCreated
        [(js "followupId", .string id), (js "blocking", .bool true),
          (js "type", .string (js "replan"))]

/-- `maybeGateAmendment`, when the amendment waits for an approval. -/
def gateAmendment (run : PlannedRun) (followupId : JsString) : PlannedRun :=
  run.append .followupCreated
    [(js "followupId", .string followupId), (js "blocking", .bool true),
      (js "type", .string (js "approval")), (js "amendmentRisk", .string (js "high"))]

variable {Failure : Type}

def amendmentInput (config : ReplanConfig) (run : PlannedRun) (request : ReplanRequest Failure) :
    GenerateAmendmentInput where
  ir := config.ir
  isDirectory := request.isDirectory
  payload := request.payload
  plan := run.plan
  executed := run.executed
  trigger := request.trigger

/-- What is done with a generated amendment. -/
def applyAmendment (config : ReplanConfig) (run : PlannedRun) (request : ReplanRequest Failure)
    (result : GenerateAmendmentResult) : PlannedRun :=
  match result.operations, result.amendedPlan with
  | some operations, some amended =>
      if config.tiered = true ∧
          (classifyAmendmentRisk operations config.highRiskWritePatterns).risk = .high then
        run.gateAmendment request.approvalId
      else
        run.amend config operations amended
  | _, _ => run.failReplan request.failureId

/-- `onNeedsReplan`.  A provider that throws ends the run where it is. -/
def onNeedsReplan (config : ReplanConfig) (request : ReplanRequest Failure) (run : PlannedRun) :
    PlannedRun :=
  let asked := run.append .replanRequested
    [(js "taskId", .string request.taskId), (js "observationIds", idValues request.observationIds)]
  match request.provider with
  | none => asked.failReplan request.failureId
  | some provider =>
      if config.maxReplans ≤ run.replans then
        asked.failReplan request.failureId
      else
        match generateAmendment (asked.amendmentInput config request) provider with
        | .returned result => asked.applyAmendment config request result
        | .threw _ => asked
        | .escaped => asked

end PlannedRun

/-- What happens in a run to its plan, its tasks and its events. -/
inductive PlanOp (Failure : Type) where
  /-- The state of a task changes. -/
  | transition (taskId : JsString) (next : TaskState)
  /-- An event of another type is appended. -/
  | record (type : EventType) (payload : Members)
  | replan (request : ReplanRequest Failure)

namespace PlannedRun

variable {Failure : Type}

def act (config : ReplanConfig) (op : PlanOp Failure) (run : PlannedRun) : PlannedRun :=
  match op with
  | .transition taskId next => { run with tasks := run.tasks.set taskId next }
  | .record type payload => run.append type payload
  | .replan request => run.onNeedsReplan config request

/-- The scheduler changes the tasks of the plan in force that have not completed. -/
def Allowed (run : PlannedRun) : PlanOp Failure → Prop
  | .transition taskId next =>
      taskId ∈ ids run.plan.tasks ∧
        (run.statusOf taskId = some .completed → next.status = .completed)
  | .record type _ => type ≠ .planAmended ∧ type ≠ .replanRequested
  | .replan _ => True

instance decidableAllowed (run : PlannedRun) : (op : PlanOp Failure) → Decidable (run.Allowed op)
  | .transition taskId next =>
      inferInstanceAs (Decidable (taskId ∈ ids run.plan.tasks ∧
        (run.statusOf taskId = some .completed → next.status = .completed)))
  | .record type _ =>
      inferInstanceAs (Decidable (type ≠ .planAmended ∧ type ≠ .replanRequested))
  | .replan _ => isTrue trivial

end PlannedRun

/-! ## Counting tasks -/

theorem mem_idsBeyond {plan other : Plan} {id : JsString} :
    id ∈ PlannedRun.idsBeyond plan other ↔ id ∈ ids plan.tasks ∧ id ∉ ids other.tasks := by
  rw [PlannedRun.idsBeyond, List.mem_filter, mem_once, decide_eq_true_eq]
  simp

/-- What an amendment adds and removes accounts for the tasks of both plans. -/
theorem length_idsBeyond {plan other : Plan} (unique : (ids plan.tasks).Nodup)
    (otherUnique : (ids other.tasks).Nodup) :
    (PlannedRun.idsBeyond plan other).length + other.tasks.length =
      (PlannedRun.idsBeyond other plan).length + plan.tasks.length := by
  have counted : ∀ first second : Plan, (PlannedRun.idsBeyond first second).length =
      ((ids first.tasks).toFinset \ (ids second.tasks).toFinset).card := by
    intro first second
    have distinct : (PlannedRun.idsBeyond first second).Nodup :=
      (nodup_once List.nodup_nil _).filter _
    rw [← List.toFinset_card_of_nodup distinct]
    congr 1
    ext id
    rw [Finset.mem_sdiff, List.mem_toFinset, List.mem_toFinset, List.mem_toFinset, mem_idsBeyond]
  have size : ∀ plan : Plan, (ids plan.tasks).Nodup →
      plan.tasks.length = (ids plan.tasks).toFinset.card := by
    intro plan unique
    rw [List.toFinset_card_of_nodup unique, ids, List.length_map]
  rw [counted, counted, size plan unique, size other otherUnique, Finset.card_sdiff_add_card,
    Finset.card_sdiff_add_card, Finset.union_comm]

/-- The events of another kind than those on replans. -/
def Quiet (events : List Recorded) : Prop :=
  ∀ event ∈ events, event.1 ≠ .planAmended ∧ event.1 ≠ .replanRequested

theorem listedTasks_append (key : JsString) (events more : List Recorded) :
    listedTasks key (events ++ more) = listedTasks key events + listedTasks key more := by
  rw [listedTasks, List.filter_append, List.map_append, List.sum_append]
  rfl

theorem requestedReplans_append (events more : List Recorded) :
    requestedReplans (events ++ more) = requestedReplans events + requestedReplans more := by
  rw [requestedReplans, List.filter_append, List.length_append]
  rfl

theorem Quiet.listedTasks {events : List Recorded} (quiet : Quiet events) (key : JsString) :
    listedTasks key events = 0 := by
  have none : events.filter (fun event => event.1 = .planAmended) = [] := by
    rw [List.filter_eq_nil_iff]
    intro event member
    rw [decide_eq_true_eq]
    exact (quiet event member).1
  rw [Replans.listedTasks, none]
  rfl

theorem Quiet.requestedReplans {events : List Recorded} (quiet : Quiet events) :
    requestedReplans events = 0 := by
  rw [Replans.requestedReplans, List.length_eq_zero_iff, List.filter_eq_nil_iff]
  intro event member
  rw [decide_eq_true_eq]
  exact (quiet event member).2

theorem Quiet.append {events more : List Recorded} (quiet : Quiet events) (also : Quiet more) :
    Quiet (events ++ more) :=
  fun event member => (List.mem_append.mp member).elim (quiet event) (also event)

theorem quiet_singleton {type : EventType} (amends : type ≠ .planAmended)
    (requests : type ≠ .replanRequested) (payload : Members) : Quiet [(type, payload)] := by
  intro event member
  rw [List.mem_singleton.mp member]
  exact ⟨amends, requests⟩

namespace PlannedRun

/-! ## The tasks after an amendment -/

theorem get?_startAdded {added : List JsString} {id : JsString} (other : id ∉ added)
    (tasks : OrderedMap JsString TaskState) : (startAdded tasks added).get? id = tasks.get? id := by
  induction added generalizing tasks with
  | nil => rfl
  | cons first added inductionHypothesis =>
      rw [List.mem_cons, not_or] at other
      rw [startAdded, List.foldl_cons]
      exact (inductionHypothesis other.2 _).trans (OrderedMap.get?_set_ne tasks other.1 _)

/-- Every added task has a state, in which it does not wait for a replan. -/
theorem pending_startAdded {added : List JsString} {id : JsString} (listed : id ∈ added)
    (tasks : OrderedMap JsString TaskState) :
    (startAdded tasks added).get? id = some (pendingState id) := by
  induction added generalizing tasks with
  | nil => cases listed
  | cons first added inductionHypothesis =>
      by_cases later : id ∈ added
      · exact inductionHypothesis later _
      · have same : id = first := (List.mem_cons.mp listed).resolve_right later
        rw [startAdded, List.foldl_cons]
        refine (get?_startAdded later _).trans ?_
        rw [same, OrderedMap.get?_set_self]

/-- What the loop that resets tasks may change. -/
structure Reset (before after : PlannedRun) : Prop where
  plan : after.plan = before.plan
  replans : after.replans = before.replans
  versions : after.versions = before.versions
  events : ∃ quiet, Quiet quiet ∧ after.events = before.events ++ quiet
  status : ∀ id, after.statusOf id = before.statusOf id ∨
    (before.statusOf id = some .needsReplan ∧ after.statusOf id = some .pending)

theorem Reset.refl (run : PlannedRun) : Reset run run where
  plan := rfl
  replans := rfl
  versions := rfl
  events := ⟨[], List.forall_mem_nil _, (List.append_nil _).symm⟩
  status _ := Or.inl rfl

theorem Reset.trans {first second third : PlannedRun} (before : Reset first second)
    (after : Reset second third) : Reset first third where
  plan := after.plan.trans before.plan
  replans := after.replans.trans before.replans
  versions := after.versions.trans before.versions
  events := by
    obtain ⟨early, earlyQuiet, earlier⟩ := before.events
    obtain ⟨late, lateQuiet, later⟩ := after.events
    exact ⟨early ++ late, earlyQuiet.append lateQuiet, by
      rw [later, earlier, List.append_assoc]⟩
  status id := by
    rcases before.status id with same | ⟨waits, pending⟩
    · rw [← same]
      exact after.status id
    · rcases after.status id with still | ⟨again, -⟩
      · exact Or.inr ⟨waits, still.trans pending⟩
      · rw [pending] at again
        cases again

theorem statusOf_set (run : PlannedRun) (taskId : JsString) (next : TaskState) (id : JsString) :
    ({ run with tasks := run.tasks.set taskId next } : PlannedRun).statusOf id =
      if id = taskId then some next.status else run.statusOf id := by
  by_cases same : id = taskId
  · rw [if_pos same, same, statusOf, OrderedMap.get?_set_self, Option.map_some]
  · rw [if_neg same, statusOf, OrderedMap.get?_set_ne _ same]
    rfl

theorem reset_resetReplanned (run : PlannedRun) (task : Task) :
    Reset run (run.resetReplanned task) ∧
      (run.resetReplanned task).statusOf task.id ≠ some .needsReplan := by
  rw [resetReplanned]
  cases found : run.tasks.get? task.id with
  | none =>
      refine ⟨.refl run, ?_⟩
      rw [statusOf, found]
      exact fun waits => Option.some_ne_none _ waits.symm
  | some prior =>
      have status : run.statusOf task.id = some prior.status := by
        rw [statusOf, found, Option.map_some]
      by_cases waits : prior.status = .needsReplan
      · simp only [if_pos waits]
        have after : ∀ id, _ = if id = task.id then some TaskStatus.pending else run.statusOf id :=
          run.statusOf_set task.id { prior with status := .pending }
        refine ⟨⟨rfl, rfl, rfl, ⟨_, quiet_singleton (by decide) (by decide) _, rfl⟩, ?_⟩, ?_⟩
        · intro id
          by_cases same : id = task.id
          · refine Or.inr ⟨by rw [same, status, waits], (after id).trans (if_pos same)⟩
          · exact Or.inl ((after id).trans (if_neg same))
        · intro still
          have pending := (after task.id).trans (if_pos rfl)
          exact absurd (pending.symm.trans still) (by decide)
      · simp only [if_neg waits]
        refine ⟨.refl run, ?_⟩
        rw [status]
        exact fun same => waits (Option.some.inj same)

/-- After the loop none of its tasks waits for a replan. -/
theorem reset_loop (tasks : List Task) (run : PlannedRun) :
    Reset run (tasks.foldl resetReplanned run) ∧
      ∀ task ∈ tasks, (tasks.foldl resetReplanned run).statusOf task.id ≠ some .needsReplan := by
  induction tasks generalizing run with
  | nil => exact ⟨.refl run, List.forall_mem_nil _⟩
  | cons first tasks inductionHypothesis =>
      obtain ⟨step, settled⟩ := reset_resetReplanned run first
      obtain ⟨loop, rest⟩ := inductionHypothesis (run.resetReplanned first)
      refine ⟨step.trans loop, fun task member => ?_⟩
      rcases List.mem_cons.mp member with rfl | later
      · rcases loop.status task.id with same | ⟨waits, -⟩
        · exact fun still => settled (same.symm.trans still)
        · exact absurd waits settled
      · exact rest task later

/-! ## The run after an amendment -/

/-- What an amendment makes of a run. -/
structure AmendedRun (before after : PlannedRun) (amended : Plan) : Prop where
  plan : after.plan = amended
  replans : after.replans = before.replans + 1
  versions : after.versions = before.keepVersion.versions
  events : ∃ quiet payload, Quiet quiet ∧
    after.events = before.events ++ quiet ++ [(.planAmended, payload)] ∧
    asItems (lookup (js "addedTaskIds") payload) =
      (idsBeyond amended before.plan).map .string ∧
    asItems (lookup (js "removedTaskIds") payload) =
      (idsBeyond before.plan amended).map .string
  completed : ∀ id ∈ ids before.plan.tasks, before.statusOf id = some .completed →
    after.statusOf id = some .completed
  known : (∀ task ∈ before.plan.tasks, (before.statusOf task.id).isSome = true) →
    ∀ task ∈ amended.tasks, (after.statusOf task.id).isSome = true
  settled : ∀ task ∈ amended.tasks, after.statusOf task.id ≠ some .needsReplan

theorem amend_amends (config : ReplanConfig) (run : PlannedRun)
    (operations : List AmendmentOperation) (amended : Plan) :
    AmendedRun run (run.amend config operations amended) amended := by
  obtain ⟨loop, settled⟩ := reset_loop amended.tasks
    { run.keepVersion with tasks := startAdded run.tasks (idsBeyond amended run.plan) }
  have still : ∀ id, id ∉ idsBeyond amended run.plan →
      ({ run.keepVersion with
        tasks := startAdded run.tasks (idsBeyond amended run.plan) } : PlannedRun).statusOf id =
        run.statusOf id := by
    intro id other
    rw [statusOf, get?_startAdded other]
    rfl
  refine ⟨rfl, congrArg (· + 1) loop.replans, loop.versions, ?_, ?_, ?_, settled⟩
  · obtain ⟨quiet, silent, logged⟩ := loop.events
    exact ⟨quiet, _, silent, congrArg (· ++ _) logged, rfl, rfl⟩
  · intro id member done
    have old : id ∉ idsBeyond amended run.plan := fun added => (mem_idsBeyond.mp added).2 member
    rcases loop.status id with same | ⟨waits, -⟩
    · exact same.trans ((still id old).trans done)
    · rw [still id old, done] at waits
      cases waits
  · intro known task member
    have started : (({ run.keepVersion with
        tasks := startAdded run.tasks (idsBeyond amended run.plan) } : PlannedRun).statusOf
          task.id).isSome = true := by
      by_cases added : task.id ∈ idsBeyond amended run.plan
      · rw [statusOf, pending_startAdded added]
        rfl
      · have old : task.id ∈ ids run.plan.tasks := by
          by_contra absent
          exact added (mem_idsBeyond.mpr ⟨List.mem_map_of_mem member, absent⟩)
        obtain ⟨prior, inside, same⟩ := mem_ids.mp old
        rw [still _ added, ← same]
        exact known prior inside
    rcases loop.status task.id with same | ⟨-, pending⟩
    · exact (congrArg Option.isSome same).trans started
    · exact congrArg Option.isSome pending

variable {Failure : Type} {config : ReplanConfig} {run : PlannedRun}

/-- The events that a request adds when it does not change the plan. -/
structure RefusedReplan (before after : PlannedRun) : Prop where
  same : ∃ events, after = { before with events := before.events ++ events } ∧
    requestedReplans events = 1 ∧ ∀ event ∈ events, event.1 ≠ .planAmended

/-- An amendment of the plan in force. -/
structure AmendsPlan (config : ReplanConfig) (run : PlannedRun)
    (operations : List AmendmentOperation) (amended : Plan) : Prop where
  room : run.replans < config.maxReplans
  applied : (applyPlanAmendment run.plan operations run.executed).plan = some amended
  executable : ∃ isDirectory, Executable amended config.ir isDirectory
  kept : WellStructured run.plan → KeepsExecuted run.executed run.plan amended

/-- What an answered request does. -/
inductive Replanned (config : ReplanConfig) (before : PlannedRun) : PlannedRun → Prop
  | refused {after : PlannedRun} (refused : RefusedReplan before after) :
      Replanned config before after
  | amended {asked after : PlannedRun} {operations : List AmendmentOperation} {amended : Plan}
      (request : RefusedReplan before asked)
      (amends : AmendsPlan config before operations amended)
      (replaced : AmendedRun asked after amended) : Replanned config before after

theorem RefusedReplan.more {before asked : PlannedRun} (refused : RefusedReplan before asked)
    {events : List Recorded} (quiet : Quiet events) :
    RefusedReplan before { asked with events := asked.events ++ events } := by
  obtain ⟨added, rfl, requested, unamended⟩ := refused.same
  refine ⟨added ++ events, ?_, ?_, ?_⟩
  · rw [List.append_assoc]
  · rw [requestedReplans_append, requested, quiet.requestedReplans]
  · intro event member
    rcases List.mem_append.mp member with early | late
    · exact unamended event early
    · exact (quiet event late).1

theorem RefusedReplan.failReplan {before asked : PlannedRun} (refused : RefusedReplan before asked)
    (followupId : Option JsString) : RefusedReplan before (asked.failReplan followupId) := by
  cases followupId with
  | none => exact refused
  | some id => exact refused.more (quiet_singleton (by decide) (by decide) _)

theorem onNeedsReplan_replans (request : ReplanRequest Failure) :
    Replanned config run (run.onNeedsReplan config request) := by
  have asked : RefusedReplan run (run.append .replanRequested
      [(js "taskId", .string request.taskId),
        (js "observationIds", idValues request.observationIds)]) := by
    refine ⟨_, rfl, rfl, fun event member => ?_⟩
    rw [List.mem_singleton.mp member]
    show EventType.replanRequested ≠ .planAmended
    decide
  rw [onNeedsReplan]
  cases request.provider with
  | none => exact .refused (asked.failReplan _)
  | some provider =>
      dsimp only
      by_cases spent : config.maxReplans ≤ run.replans
      · rw [if_pos spent]
        exact .refused (asked.failReplan _)
      rw [if_neg spent]
      cases ended : generateAmendment _ provider with
      | threw failure => exact .refused asked
      | escaped => exact .refused asked
      | returned result =>
          cases generateAmendment_returned ended with
          | refused all last errors => exact .refused (asked.failReplan _)
          | @accepted findings operations amended refused room answered applied executable kept =>
              dsimp only [applyAmendment]
              split_ifs with gated
              · exact .refused (asked.more (quiet_singleton (by decide) (by decide) _))
              · exact .amended asked ⟨Nat.lt_of_not_le spent, applied, ⟨_, executable⟩, kept⟩
                  (amend_amends config _ operations amended)

/-! ## Plans over a run -/

/-- The plans of a run in the order in which they were in force. -/
def plans (run : PlannedRun) : List Plan :=
  run.versions.entries.map Prod.snd ++ [run.plan]

/-- An amendment made the second plan of the first. -/
def AmendedTo (ir : SpecIR) (earlier later : Plan) : Prop :=
  (∃ operations executed, (applyPlanAmendment earlier operations executed).plan = some later) ∧
    ∃ isDirectory, Executable later ir isDirectory

/-- A run at its start. -/
structure Begun (config : ReplanConfig) (run : PlannedRun) : Prop where
  executable : ∃ isDirectory, Executable run.plan config.ir isDirectory
  known : ∀ task ∈ run.plan.tasks, (run.statusOf task.id).isSome = true
  unamended : run.replans = 0 ∧ run.versions = .empty ∧ Quiet run.events

/-- What the record of a run says about its plans. -/
structure PlanHistory (config : ReplanConfig) (start run : PlannedRun) : Prop where
  executable : ∃ isDirectory, Executable run.plan config.ir isDirectory
  known : ∀ task ∈ run.plan.tasks, (run.statusOf task.id).isSome = true
  /-- The files are numbered, and none has been written twice. -/
  files : run.versions.entries.map Prod.fst =
    (List.range run.replans).map fun number => versionFile (number + 1)
  first : run.plans.head? = some start.plan
  amended : run.plans.IsChain (AmendedTo config.ir)
  budget : run.replans ≤ config.maxReplans
  requested : run.replans ≤ (computePlanDrift run.events run.plan).replans
  /-- The tasks of the plan in force and those that are reported as removed are the tasks at the
  start and those that are reported as added. -/
  drift : (computePlanDrift run.events run.plan).originalTaskCount +
      (computePlanDrift run.events run.plan).tasksRemoved =
    start.plan.tasks.length + (computePlanDrift run.events run.plan).tasksAdded

theorem versionFile_injective : Function.Injective versionFile := by
  intro first second same
  exact padded_injective (js "plan-v") 0 (List.append_cancel_right same)

theorem Begun.history (begun : Begun config run) : PlanHistory config run run := by
  obtain ⟨none, unwritten, quiet⟩ := begun.unamended
  have plans : run.plans = [run.plan] := by
    rw [PlannedRun.plans, unwritten]
    rfl
  refine ⟨begun.executable, begun.known, ?_, ?_, ?_, ?_, ?_, ?_⟩
  · rw [unwritten, none]
    rfl
  · rw [plans, List.head?_cons]
  · rw [plans]
    exact .singleton _
  · omega
  · omega
  · rw [computePlanDrift, quiet.listedTasks, quiet.listedTasks]

variable {start after : PlannedRun}

/-- What does not touch the plans. -/
theorem PlanHistory.same (history : PlanHistory config start run) {events : List Recorded}
    (plan : after.plan = run.plan) (replans : after.replans = run.replans)
    (versions : after.versions = run.versions) (logged : after.events = run.events ++ events)
    (unamended : ∀ event ∈ events, event.1 ≠ .planAmended)
    (known : ∀ id, (run.statusOf id).isSome = true → (after.statusOf id).isSome = true) :
    PlanHistory config start after := by
  have plans : after.plans = run.plans := by
    rw [PlannedRun.plans, versions, plan]
    rfl
  have silent : ∀ key, listedTasks key after.events = listedTasks key run.events := by
    intro key
    have none : events.filter (fun event => event.1 = .planAmended) = [] := by
      rw [List.filter_eq_nil_iff]
      intro event member
      rw [decide_eq_true_eq]
      exact unamended event member
    rw [logged, listedTasks_append, listedTasks.eq_def key events, none]
    rfl
  have requested : requestedReplans run.events ≤ requestedReplans after.events := by
    rw [logged, requestedReplans_append]
    exact Nat.le_add_right _ _
  have counted := history.drift
  rw [computePlanDrift] at counted
  refine ⟨plan ▸ history.executable, ?_, ?_, ?_, ?_, ?_, ?_, ?_⟩
  · intro task member
    exact known _ (history.known task (plan ▸ member))
  · rw [versions, replans]
    exact history.files
  · rw [plans]
    exact history.first
  · rw [plans]
    exact history.amended
  · rw [replans]
    exact history.budget
  · rw [replans]
    exact history.requested.trans requested
  · rw [computePlanDrift, plan, silent, silent]
    exact counted

theorem PlanHistory.refused (history : PlanHistory config start run)
    (refused : RefusedReplan run after) : PlanHistory config start after := by
  obtain ⟨events, rfl, -, unamended⟩ := refused.same
  exact history.same rfl rfl rfl rfl unamended fun _ known => known

theorem entries_keepVersion (history : PlanHistory config start run) :
    run.keepVersion.versions.entries =
      run.versions.entries ++ [(versionFile (run.replans + 1), run.plan)] := by
  have count : run.versions.entries.length = run.replans := by
    have files := congrArg List.length history.files
    rwa [List.length_map, List.length_map, List.length_range] at files
  have fresh : versionFile (run.versions.entries.length + 1) ∉
      run.versions.entries.map Prod.fst := by
    rw [history.files, count, List.mem_map]
    intro written
    obtain ⟨number, inside, same⟩ := written
    have equal := versionFile_injective same
    rw [List.mem_range] at inside
    omega
  rw [keepVersion, OrderedMap.entries_set_of_not_mem fresh, count]

theorem PlanHistory.amend (history : PlanHistory config start run) {asked : PlannedRun}
    {operations : List AmendmentOperation} {amended : Plan} (request : RefusedReplan run asked)
    (amends : AmendsPlan config run operations amended)
    (replaced : AmendedRun asked after amended) : PlanHistory config start after := by
  have earlier := history.refused request
  obtain ⟨noted, rfl, requested, unamended⟩ := request.same
  have versions := entries_keepVersion earlier
  rw [← replaced.versions] at versions
  have plans : after.plans = run.plans ++ [amended] := by
    rw [PlannedRun.plans, PlannedRun.plans, versions, List.map_append, replaced.plan]
    rfl
  obtain ⟨quiet, payload, silent, logged, added, removed⟩ := replaced.events
  have listed : ∀ key, listedTasks key after.events = listedTasks key run.events +
      listedTasks key noted + (asItems (lookup key payload)).length := by
    intro key
    rw [logged, listedTasks_append, listedTasks_append, listedTasks_append, silent.listedTasks]
    rfl
  have before := earlier.drift
  obtain ⟨firstDirectory, executable⟩ := history.executable
  obtain ⟨secondDirectory, again⟩ := amends.executable
  refine ⟨replaced.plan ▸ amends.executable, ?_, ?_, ?_, ?_, ?_, ?_, ?_⟩
  · rw [replaced.plan]
    exact replaced.known history.known
  · rw [versions, List.map_append, earlier.files, replaced.replans, List.range_succ,
      List.map_append]
    rfl
  · rw [plans, List.head?_append, history.first]
    rfl
  · rw [plans, List.isChain_append]
    refine ⟨history.amended, .singleton _, ?_⟩
    intro last isLast next isNext
    rw [PlannedRun.plans, List.getLast?_concat] at isLast
    cases isLast
    cases isNext
    exact ⟨⟨operations, run.executed, amends.applied⟩, amends.executable⟩
  · rw [replaced.replans]
    exact amends.room
  · have requests : requestedReplans after.events = requestedReplans run.events + 1 := by
      rw [logged, requestedReplans_append, requestedReplans_append, requestedReplans_append,
        requested, silent.requestedReplans]
      rfl
    have known := history.requested
    rw [replaced.replans]
    rw [computePlanDrift] at known ⊢
    dsimp only at known ⊢
    omega
  · have balance := length_idsBeyond again.unique executable.unique
    simp only [computePlanDrift, listedTasks_append] at before
    simp only [computePlanDrift, listed, added, removed, List.length_map, replaced.plan]
    omega

/-- A task that has completed stays in the plan, up to its dependencies, and stays completed. -/
def KeepsCompleted (before after : PlannedRun) : Prop :=
  ∀ task ∈ before.plan.tasks, before.statusOf task.id = some .completed →
    after.statusOf task.id = some .completed ∧
      ∃ kept ∈ after.plan.tasks, SameButDependencies kept task

theorem KeepsCompleted.refl (run : PlannedRun) : KeepsCompleted run run :=
  fun task member done => ⟨done, task, member, .refl task⟩

theorem KeepsCompleted.trans {first second third : PlannedRun}
    (before : KeepsCompleted first second) (after : KeepsCompleted second third) :
    KeepsCompleted first third := by
  intro task member done
  obtain ⟨completed, kept, inside, same⟩ := before task member done
  obtain ⟨still, last, there, equal⟩ := after kept inside (same.id ▸ completed)
  exact ⟨same.id ▸ still, last, there, same.of_change equal⟩

theorem mem_executed {id : JsString} (done : run.statusOf id = some .completed) :
    id ∈ run.executed := by
  cases found : run.tasks.get? id with
  | none =>
      rw [statusOf, found] at done
      cases done
  | some state =>
      rw [statusOf, found, Option.map_some] at done
      have inside := OrderedMap.get?_eq_some.mp found
      refine List.mem_map.mpr ⟨(id, state), List.mem_filter.mpr ⟨inside, ?_⟩, rfl⟩
      rw [decide_eq_true_eq]
      exact Or.inl (Option.some.inj done)

theorem KeepsCompleted.of_replanned (structured : WellStructured run.plan)
    (replanned : Replanned config run after) : KeepsCompleted run after := by
  intro task member done
  cases replanned with
  | refused refused =>
      obtain ⟨events, rfl, -, -⟩ := refused.same
      exact ⟨done, task, member, .refl task⟩
  | @amended asked after operations amended request amends replaced =>
      obtain ⟨events, rfl, -, -⟩ := request.same
      have completed := replaced.completed task.id (List.mem_map_of_mem member) done
      obtain ⟨kept, inside, same⟩ := amends.kept structured task member (mem_executed done)
      rw [replaced.plan]
      exact ⟨completed, kept, inside, same⟩

theorem PlanHistory.replanned (history : PlanHistory config start run)
    (answer : Replanned config run after) : PlanHistory config start after := by
  cases answer with
  | refused refused => exact history.refused refused
  | amended asked amends replaced => exact history.amend asked amends replaced

theorem statusOf_transition (taskId : JsString) (next : TaskState) (id : JsString) :
    (run.act config (PlanOp.transition taskId next : PlanOp Failure)).statusOf id =
      if id = taskId then some next.status else run.statusOf id :=
  run.statusOf_set taskId next id

variable {op : PlanOp Failure}

theorem PlanHistory.step (history : PlanHistory config start run) (allowed : run.Allowed op) :
    PlanHistory config start (run.act config op) := by
  cases op with
  | transition taskId next =>
      have silent : run.events = run.events ++ [] := (List.append_nil _).symm
      refine history.same rfl rfl rfl silent (List.forall_mem_nil _) fun id known => ?_
      rw [statusOf_transition]
      split_ifs
      · rfl
      · exact known
  | record type payload =>
      have quiet := quiet_singleton allowed.1 allowed.2 payload
      exact history.same rfl rfl rfl rfl (fun event member => (quiet event member).1)
        fun _ known => known
  | replan request =>
      exact history.replanned (onNeedsReplan_replans request)

theorem KeepsCompleted.step (history : PlanHistory config start run) (allowed : run.Allowed op) :
    KeepsCompleted run (run.act config op) := by
  cases op with
  | transition taskId next =>
      intro task member done
      refine ⟨?_, task, member, .refl task⟩
      rw [statusOf_transition]
      split_ifs with same
      · exact congrArg some (allowed.2 (same ▸ done))
      · exact done
  | record type payload => exact .refl run
  | replan request =>
      obtain ⟨isDirectory, executable⟩ := history.executable
      exact .of_replanned (wellStructured_of_executable executable)
        (onNeedsReplan_replans request)

/-- A request that changes the plan leaves no task of it behind that waits for a replan. -/
theorem settled_of_replan (request : ReplanRequest Failure)
    (changed : (run.onNeedsReplan config request).plan ≠ run.plan) :
    ∀ task ∈ (run.onNeedsReplan config request).plan.tasks,
      (run.onNeedsReplan config request).statusOf task.id ≠ some .needsReplan := by
  have answer : Replanned config run (run.onNeedsReplan config request) :=
    onNeedsReplan_replans request
  cases answer with
  | refused refused =>
      obtain ⟨events, same, -, -⟩ := refused.same
      rw [same] at changed
      exact absurd rfl changed
  | @amended asked after operations amended asking amends replaced =>
      rw [replaced.plan]
      exact replaced.settled

/-- The run after a history. -/
def afterOps (config : ReplanConfig) (start : PlannedRun) (ops : List (PlanOp Failure)) :
    PlannedRun :=
  History.run (act config) ops start

theorem history_of_ops {ops : List (PlanOp Failure)} (history : PlanHistory config start run)
    (allowed : History.EveryStep (act config) Allowed ops run) :
    PlanHistory config start (run.afterOps config ops) :=
  allowed.invariant history fun _ _ step kept => kept.step step

theorem keepsCompleted_of_ops {ops : List (PlanOp Failure)} (history : PlanHistory config start run)
    (allowed : History.EveryStep (act config) Allowed ops run) :
    KeepsCompleted run (run.afterOps config ops) := by
  have kept : PlanHistory config start (run.afterOps config ops) ∧
      KeepsCompleted run (run.afterOps config ops) := by
    refine @History.EveryStep.invariant _ _ _ _
      (fun after => PlanHistory config start after ∧ KeepsCompleted run after) _ _ allowed
      ⟨history, .refl run⟩ ?_
    intro after op step held
    exact ⟨held.1.step step, held.2.trans (.step held.1 step)⟩
  exact kept.2

end PlannedRun

open PlannedRun

/-- Whatever is asked for and answered in a run, the plan in force is executable, and it has every
task that has completed.  The files keep all plans, each made of the one before it.  What is
reported on drift reconciles the tasks at the start with those of the plan in force, and a plan
that comes in force leaves no task of it waiting for a replan. -/
theorem replans_keep_history {Failure : Type} {config : ReplanConfig} {start : PlannedRun}
    {ops : List (PlanOp Failure)} (begun : Begun config start)
    (allowed : History.EveryStep (act config) Allowed ops start) :
    PlanHistory config start (start.afterOps config ops) ∧
    (∀ before after, ops = before ++ after →
      KeepsCompleted (start.afterOps config before) (start.afterOps config ops)) ∧
    ∀ before request after, ops = before ++ PlanOp.replan request :: after →
      (start.afterOps config (before ++ [.replan request])).plan ≠
        (start.afterOps config before).plan →
      ∀ task ∈ (start.afterOps config (before ++ [.replan request])).plan.tasks,
        (start.afterOps config (before ++ [.replan request])).statusOf task.id ≠
          some .needsReplan := by
  refine ⟨history_of_ops begun.history allowed, ?_, ?_⟩
  · intro before after split
    rw [split, History.everyStep_append] at allowed
    have middle := history_of_ops begun.history allowed.1
    rw [split, afterOps, afterOps, History.run_append]
    exact keepsCompleted_of_ops middle allowed.2
  · intro before request after split changed
    rw [afterOps, History.run_append] at changed ⊢
    exact settled_of_replan request changed

def sampleConfig : ReplanConfig where
  ir := emptySpec
  maxReplans := 3
  tiered := true
  highRiskWritePatterns := []
  planDigest _ := js "digest"

/-- Two tasks, the second of which depends on the first. -/
def sampleStart : PlannedRun where
  plan := (documentOf [follower (js "a") [], follower (js "b") [js "a"]]).plan
  tasks := .ofEntries [(js "a", pendingState (js "a")), (js "b", pendingState (js "b"))]
  replans := 0
  versions := .empty
  events := []

/-- The second task is given up for another one. -/
def sampleRequest : ReplanRequest Unit where
  taskId := js "b"
  observationIds := []
  isDirectory := none
  payload := js "payload"
  trigger := js "b"
  provider := some fun _ _ =>
    .ok [.removeTask (js "b"), .addTask (follower (js "c") [js "a"])]
  failureId := some (js "FU-1")
  approvalId := js "FU-1"

def sampleOps : List (PlanOp Unit) :=
  [.transition (js "a") { pendingState (js "a") with status := .completed },
    .transition (js "b") { pendingState (js "b") with status := .needsReplan },
    .replan sampleRequest]

theorem sampleStart_begun : Begun sampleConfig sampleStart where
  executable := ⟨none, validatePlan_eq_nil_iff.mp (by decide +kernel)⟩
  known := by decide +kernel
  unamended := ⟨rfl, rfl, List.forall_mem_nil _⟩

theorem replans_keep_history_third :
    (sampleStart.afterOps sampleConfig sampleOps).plan.tasks =
        [follower (js "a") [], follower (js "c") [js "a"]] ∧
      PlanHistory sampleConfig sampleStart (sampleStart.afterOps sampleConfig sampleOps) :=
  ⟨by decide +kernel, (replans_keep_history sampleStart_begun (by decide +kernel)).1⟩

end SpecAsCode.Runtime.Replans
