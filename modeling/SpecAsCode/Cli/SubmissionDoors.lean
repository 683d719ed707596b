import SpecAsCode.Executor.UnmediatedGuard
import SpecAsCode.Lib.History
import SpecAsCode.Runtime.Runs
import SpecAsCode.Schema.Ids
import SpecAsCode.Schema.Plan

/-!
# The two doors of the submission guard

The guard is asked twice: by the command that submits an answer, which collects its inputs
from the files of the run, and by the runtime, which has kept its own since it dispatched the
task.
-/

namespace SpecAsCode.Cli

open SpecAsCode.Js
open SpecAsCode.Executor
open SpecAsCode.Runtime
open SpecAsCode.Schema
open SpecAsCode.Text

/-- The writes that were attributed to each task of a run. -/
abbrev AttributionStore := OrderedMap JsString (List AttributionWrite)

/-! ## Runs in place -/

/-- A task as it was dispatched: what the runtime remembers of it until its answer. -/
structure Dispatch where
  task : Task
  attempt : Nat
  dispatchBaseline : JsString
  priorAttribution : List AttributionWrite
  priorRecordedWork : Bool

/-- A run in place: the tree of the repository, the files of the run and what the runtime
has in memory. -/
structure InPlaceRun where
  view : GitView
  metadata : RunMeta
  /-- The plan files by plan identifier. -/
  planFile : JsString → Option Plan
  /-- The plan that the runtime follows. -/
  plan : Plan
  snapshotRevision : JsString
  attribution : Option AttributionStore
  /-- The tasks of the `FILE_CHANGED` events. -/
  fileChanged : List JsString
  protectedPaths : List JsString
  pending : Option Dispatch

/-- What `readAttribution` has for a task. -/
def InPlaceRun.attributed (run : InPlaceRun) (taskId : JsString) : List AttributionWrite :=
  (run.attribution.bind fun store => store.get? taskId).getD []

/-! ## The door of the runtime -/

/-- `dispatchBaseline`: the head as the execution begins. -/
def InPlaceRun.baseline (run : InPlaceRun) : JsString :=
  match run.view.head with
  | some head => if head = [] then run.snapshotRevision else head
  | none => run.snapshotRevision

/-- The inputs that `executeTask` checks an answer with. -/
def InPlaceRun.submission (run : InPlaceRun) (dispatch : Dispatch) : SubmissionCheckInput where
  baselineRevision := dispatch.dispatchBaseline
  writeTargets := dispatch.task.writes
  attribution := dispatch.priorAttribution
  attributionStoreExists := run.attribution.isSome
  priorRecordedWork := dispatch.priorRecordedWork
  protectedPatterns := []

/-! ## The door of the client -/

/-- `HarnessRequest`: the run and the task of a pending request. -/
structure HarnessRequest where
  runId : Option JsString
  key : JsString

/-- The request of a dispatched task. -/
def Dispatch.request (runId : JsString) (dispatch : Dispatch) : HarnessRequest :=
  ⟨some runId, dispatch.task.id ++ js "@" ++ natText dispatch.attempt⟩

/-- `request.key.split("@")[0]`. -/
def HarnessRequest.taskId (request : HarnessRequest) : JsString :=
  request.key.takeWhile fun code => code != unit '@'

/-- A text that counts as true. -/
def present (text : Option JsString) : Option JsString :=
  text.filter fun text => text != []

/-- The base revision and the write targets that the files of the run give for a task. -/
def InPlaceRun.planned (run : InPlaceRun) (taskId : JsString) :
    Option (JsString × List JsString) :=
  (present run.metadata.planId).bind fun planId =>
    (present run.metadata.baseRevision).bind fun baseRevision =>
      (run.planFile planId).bind fun plan =>
        (plan.tasks.find? fun task => task.id = taskId).bind fun task =>
          (task.targets.bind TaskTargets.write).map fun write => (baseRevision, write)

structure SubmissionRefusal where
  code : RefusalCode
  message : JsString
  paths : List JsString

section Doors

variable (sha256Hex : List Octet → JsString) (run : InPlaceRun)

/-- `submissionGuardRefusal`, on the files of the run that the request names. -/
def submissionGuardRefusal (request : HarnessRequest) : Option SubmissionRefusal :=
  if (present request.runId).isNone ∨ request.key = [] then
    none
  else
    match run.planned request.taskId with
    | none => none
    | some (baseRevision, write) =>
        let check := evaluateSubmission sha256Hex run.view
          { baselineRevision := baseRevision
            writeTargets := write
            attribution := run.attributed request.taskId
            attributionStoreExists := run.attribution.isSome
            priorRecordedWork := run.fileChanged.contains request.taskId
            protectedPatterns := run.protectedPaths }
        match check.decision with
        | .allow => none
        | .refuse =>
            some ⟨check.code.getD .unmediatedChanges,
              check.message.getD (js "unmediated changes under write targets"), check.unattributed⟩

/-- The doors agree on an answer to a dispatched task. -/
def DoorsAgree (dispatch : Dispatch) : Prop :=
  (submissionGuardRefusal sha256Hex run (dispatch.request run.metadata.runId)).isSome = true ↔
    (evaluateSubmission sha256Hex run.view (run.submission dispatch)).decision = .refuse

end Doors

/-! ## The steps of a run in place -/

inductive InPlaceOp where
  /-- A task is dispatched. -/
  | dispatch (task : Task) (attempt : Nat)
  /-- The author edits the tree, commits, or changes the configuration. -/
  | author (view : GitView) (protectedPaths : List JsString)
  /-- The attempt of the pending task ends: what it leaves of the tree, with or without a
  commit, the writes that are attributed to it and whether its files changed. -/
  | finish (view : GitView) (writes : List AttributionWrite) (changed : Bool)
  /-- The plan is amended. -/
  | amend (plan : Plan)

/-- The writes of a task after an attempt. -/
def recordWrites (prior writes : List AttributionWrite) : List AttributionWrite :=
  prior ++ writes.filter fun write =>
    !prior.any fun old => old.path = write.path ∧ old.digest = write.digest

/-- The store after an attempt; nothing is written when there is nothing to attribute. -/
def InPlaceRun.recorded (run : InPlaceRun) (taskId : JsString) (writes : List AttributionWrite) :
    Option AttributionStore :=
  if writes = [] then
    run.attribution
  else
    some ((run.attribution.getD OrderedMap.empty).set taskId
      (recordWrites (run.attributed taskId) writes))

/-- A run in place after a step.  One task is dispatched at a time, and the plan is amended
between tasks. -/
def InPlaceOp.act : InPlaceOp → InPlaceRun → InPlaceRun
  | .dispatch task attempt, run =>
      if run.pending.isSome ∨ task ∉ run.plan.tasks then
        run
      else
        { run with
          pending := some
            { task, attempt, dispatchBaseline := run.baseline
              priorAttribution := run.attributed task.id
              priorRecordedWork := run.fileChanged.contains task.id } }
  | .author view protectedPaths, run => { run with view, protectedPaths }
  | .finish view writes changed, run =>
      match run.pending with
      | none => run
      | some current =>
          { run with
            view
            attribution := run.recorded current.task.id writes
            fileChanged := if changed then run.fileChanged ++ [current.task.id] else run.fileChanged
            pending := none }
  | .amend plan, run =>
      if run.pending.isSome ∨ plan.id ≠ run.plan.id then
        run
      else
        { run with
          plan
          planFile := fun id => if id = plan.id then some plan else run.planFile id }

/-! ## What each door refuses -/

section Refusals

variable {sha256Hex : List Octet → JsString} {run : InPlaceRun}

/-- The request names the task it was dispatched for. -/
theorem taskId_request (runId : JsString) {dispatch : Dispatch}
    (valid : isTaskId dispatch.task.id = true) :
    (dispatch.request runId).taskId = dispatch.task.id := by
  have plain : ∀ code ∈ dispatch.task.id, (code != unit '@') = true := by
    intro code member
    rw [bne_iff_ne]
    rintro rfl
    exact at_not_mem_of_isTaskId valid member
  rw [HarnessRequest.taskId, Dispatch.request, List.append_assoc,
    List.takeWhile_append_of_pos plain]
  have marked : (js "@" ++ natText dispatch.attempt).takeWhile (fun code => code != unit '@') = [] :=
    rfl
  rw [marked, List.append_nil]

/-- What the client refuses. -/
theorem submissionGuardRefusal_isSome (named : run.metadata.runId ≠ []) {dispatch : Dispatch}
    (valid : isTaskId dispatch.task.id = true) :
    (submissionGuardRefusal sha256Hex run (dispatch.request run.metadata.runId)).isSome = true ↔
      ∃ base targets, run.planned dispatch.task.id = some (base, targets) ∧
        (HeadMoved run.view base run.protectedPaths ∨ UnaccountedDirt sha256Hex run.view targets
          (run.attributed dispatch.task.id)) := by
  have asked : ¬ ((present (dispatch.request run.metadata.runId).runId).isNone = true ∨
      (dispatch.request run.metadata.runId).key = []) := by
    rw [not_or]
    constructor
    · simp [Dispatch.request, present, named]
    · simp [Dispatch.request, js]
  rw [submissionGuardRefusal, if_neg asked, taskId_request _ valid]
  cases planned : run.planned dispatch.task.id with
  | none => simp
  | some pair =>
      obtain ⟨base, targets⟩ := pair
      have refused := @evaluateSubmission_refuse_iff sha256Hex run.view
        { baselineRevision := base, writeTargets := targets
          attribution := run.attributed dispatch.task.id
          attributionStoreExists := run.attribution.isSome
          priorRecordedWork := run.fileChanged.contains dispatch.task.id
          protectedPatterns := run.protectedPaths }
      simp only
      constructor
      · intro shown
        refine ⟨base, targets, rfl, refused.mp ?_⟩
        split at shown
        · cases shown
        · assumption
      · rintro ⟨otherBase, otherTargets, same, found⟩
        cases same
        rw [refused.mpr found]
        rfl

/-- What the runtime refuses. -/
theorem submission_refuse_iff (dispatch : Dispatch) :
    (evaluateSubmission sha256Hex run.view (run.submission dispatch)).decision = .refuse ↔
      HeadMoved run.view dispatch.dispatchBaseline [] ∨
        UnaccountedDirt sha256Hex run.view dispatch.task.writes dispatch.priorAttribution :=
  evaluateSubmission_refuse_iff (run.submission dispatch)

end Refusals

/-! ## Runs -/

/-- What a run in place keeps: only the pending task could be recorded for, and its
identifier is valid. -/
structure InStep (run : InPlaceRun) : Prop where
  named : run.metadata.runId ≠ []
  tasks : ∀ task ∈ run.plan.tasks, isTaskId task.id = true
  pending : ∀ dispatch, run.pending = some dispatch → isTaskId dispatch.task.id = true ∧
    dispatch.priorAttribution = run.attributed dispatch.task.id

/-- An amended plan has valid task identifiers. -/
def InPlaceOp.Valid : InPlaceOp → Prop
  | .amend plan => ∀ task ∈ plan.tasks, isTaskId task.id = true
  | _ => True

theorem inStep_act {run : InPlaceRun} {op : InPlaceOp} (valid : op.Valid) (inStep : InStep run) :
    InStep (op.act run) := by
  cases op with
  | dispatch task attempt =>
      rw [InPlaceOp.act]
      split
      · exact inStep
      · next free =>
          rw [not_or, not_not] at free
          refine ⟨inStep.named, inStep.tasks, fun dispatch same => ?_⟩
          cases same
          exact ⟨inStep.tasks task free.2, rfl⟩
  | author view protectedPaths => exact ⟨inStep.named, inStep.tasks, inStep.pending⟩
  | finish view writes changed =>
      cases current : run.pending with
      | none =>
          simp only [InPlaceOp.act, current]
          exact inStep
      | some dispatch =>
          simp only [InPlaceOp.act, current]
          exact ⟨inStep.named, inStep.tasks, fun _ none => by cases none⟩
  | amend plan =>
      rw [InPlaceOp.act]
      split
      · exact inStep
      · next free =>
          rw [not_or] at free
          refine ⟨inStep.named, valid, fun dispatch same => ?_⟩
          have free := free.1
          rw [show run.pending = some dispatch from same] at free
          exact absurd rfl free

section Agreement

variable (sha256Hex : List Octet → JsString) (run : InPlaceRun) (dispatch : Dispatch)

/-- The head is off the base of the run by more than its author may commit exactly if it is off
the dispatch baseline. -/
def HeadsAligned (base : JsString) : Prop :=
  ∀ head, run.view.head = some head →
    ((head ≠ base ∧ ¬ AuthorOnly run.view base run.protectedPaths) ↔
      head ≠ dispatch.dispatchBaseline)

/-- Where the files of the run give the targets of the task, unaccounted dirt is under them or
the heads are aligned; where they give none, there is nothing to refuse. -/
def DoorsAligned : Prop :=
  match run.planned dispatch.task.id with
  | none => (∀ head, run.view.head = some head → head = dispatch.dispatchBaseline) ∧
      ¬ UnaccountedDirt sha256Hex run.view dispatch.task.writes dispatch.priorAttribution
  | some (base, targets) =>
      if targets = dispatch.task.writes then
        UnaccountedDirt sha256Hex run.view targets dispatch.priorAttribution ∨
          HeadsAligned run dispatch base
      else
        -- The plan file is not the plan that the runtime follows.
        (HeadMoved run.view base run.protectedPaths ∨
            UnaccountedDirt sha256Hex run.view targets dispatch.priorAttribution) ↔
          (HeadMoved run.view dispatch.dispatchBaseline [] ∨
            UnaccountedDirt sha256Hex run.view dispatch.task.writes dispatch.priorAttribution)

variable {sha256Hex run dispatch}

/-- The runtime knows no paths that are the author's. -/
theorem headMoved_unprotected (view : GitView) (baseline : JsString) :
    HeadMoved view baseline [] ↔ ∃ head, view.head = some head ∧ head ≠ baseline := by
  simp [HeadMoved, AuthorOnly]

theorem headsAligned_iff (base : JsString) :
    HeadsAligned run dispatch base ↔ (HeadMoved run.view base run.protectedPaths ↔
      HeadMoved run.view dispatch.dispatchBaseline []) := by
  rw [HeadsAligned, headMoved_unprotected, HeadMoved]
  cases run.view.head with
  | none => simp
  | some head => simp

theorem doorsAgree_iff (inStep : InStep run) (pending : run.pending = some dispatch) :
    DoorsAgree sha256Hex run dispatch ↔ DoorsAligned sha256Hex run dispatch := by
  obtain ⟨valid, prior⟩ := inStep.pending dispatch pending
  rw [DoorsAgree, submissionGuardRefusal_isSome inStep.named valid, submission_refuse_iff,
    DoorsAligned, ← prior]
  cases run.planned dispatch.task.id with
  | none =>
      simp only [reduceCtorEq, false_and, exists_const, false_iff, not_or, headMoved_unprotected,
        not_exists, not_and, not_not]
  | some pair =>
      obtain ⟨base, targets⟩ := pair
      have same : (∃ otherBase otherTargets, some (base, targets) = some (otherBase, otherTargets) ∧
          (HeadMoved run.view otherBase run.protectedPaths ∨
            UnaccountedDirt sha256Hex run.view otherTargets dispatch.priorAttribution)) ↔
          (HeadMoved run.view base run.protectedPaths ∨
            UnaccountedDirt sha256Hex run.view targets dispatch.priorAttribution) := by
        constructor
        · rintro ⟨otherBase, otherTargets, equal, holds⟩
          cases equal
          exact holds
        · exact fun holds => ⟨base, targets, rfl, holds⟩
      rw [same]
      by_cases own : targets = dispatch.task.writes
      · simp only [own, if_true, headsAligned_iff]
        tauto
      · simp only [own, if_false]

end Agreement

/-- A step that keeps to the base of the run: a task is dispatched at the base, with the
targets that the files of the run give for it, and while it is pending its author makes no
commits that are confined to protected paths. -/
def KeepsBase (run : InPlaceRun) : InPlaceOp → Prop
  | .dispatch task _ => ∃ base, run.planned task.id = some (base, task.writes) ∧
      run.view.head = some base
  | .author view protectedPaths => run.pending = none ∨
      ∀ base, run.metadata.baseRevision = some base → view.head = some base ∨
        ¬ AuthorOnly view base protectedPaths
  | _ => True

/-- A pending task was dispatched at the base of the run. -/
def PendingAtBase (run : InPlaceRun) : Prop :=
  ∀ dispatch, run.pending = some dispatch → ∃ base,
    run.planned dispatch.task.id = some (base, dispatch.task.writes) ∧
    dispatch.dispatchBaseline = base ∧
    (run.view.head = some base ∨ ¬ AuthorOnly run.view base run.protectedPaths)

theorem planned_base {run : InPlaceRun} {taskId base : JsString} {targets : List JsString}
    (planned : run.planned taskId = some (base, targets)) :
    run.metadata.baseRevision = some base ∧ base ≠ [] := by
  obtain ⟨planId, -, forPlan⟩ := Option.bind_eq_some_iff.mp planned
  obtain ⟨revision, known, forRevision⟩ := Option.bind_eq_some_iff.mp forPlan
  obtain ⟨plan, -, forFile⟩ := Option.bind_eq_some_iff.mp forRevision
  obtain ⟨task, -, forTask⟩ := Option.bind_eq_some_iff.mp forFile
  obtain ⟨write, -, same⟩ := Option.map_eq_some_iff.mp forTask
  cases same
  rw [present, Option.filter_eq_some_iff] at known
  exact ⟨known.1, by simpa using known.2⟩

theorem pendingAtBase_act {run : InPlaceRun} {op : InPlaceOp} (keeps : KeepsBase run op)
    (atBase : PendingAtBase run) : PendingAtBase (op.act run) := by
  cases op with
  | dispatch task attempt =>
      rw [InPlaceOp.act]
      split
      · exact atBase
      · intro dispatch same
        cases same
        obtain ⟨base, planned, head⟩ := keeps
        refine ⟨base, planned, ?_, Or.inl head⟩
        simp only [InPlaceRun.baseline, head]
        rw [if_neg (planned_base planned).2]
  | author view protectedPaths =>
      intro dispatch pending
      obtain ⟨base, planned, baseline, -⟩ := atBase dispatch pending
      refine ⟨base, planned, baseline, ?_⟩
      rcases keeps with none | confined
      · rw [show run.pending = some dispatch from pending] at none
        cases none
      · exact confined base (planned_base planned).1
  | finish view writes changed =>
      cases current : run.pending with
      | none =>
          simp only [InPlaceOp.act, current]
          exact atBase
      | some dispatch =>
          simp only [InPlaceOp.act, current]
          exact fun _ none => by cases none
  | amend plan =>
      rw [InPlaceOp.act]
      split
      · exact atBase
      · next free =>
          intro dispatch pending
          rw [not_or] at free
          rw [show run.pending = some dispatch from pending] at free
          exact absurd rfl free.1

theorem doorsAligned_of_atBase {sha256Hex : List Octet → JsString} {run : InPlaceRun}
    (atBase : PendingAtBase run) {dispatch : Dispatch} (pending : run.pending = some dispatch) :
    DoorsAligned sha256Hex run dispatch := by
  obtain ⟨base, planned, baseline, position⟩ := atBase dispatch pending
  rw [DoorsAligned, planned]
  simp only [if_true]
  refine Or.inr fun head known => ?_
  rw [baseline]
  refine and_iff_left_of_imp fun moved => ?_
  rcases position with unmoved | outside
  · rw [known, Option.some.injEq] at unmoved
    exact absurd unmoved moved
  · exact outside

/-- When the doors of the submission guard agree: in every state of a run in place in which a
task is pending, exactly when they are aligned; and throughout a run that keeps to its
base. -/
theorem submission_doors (sha256Hex : List Octet → JsString) (start : InPlaceRun)
    (ops : List InPlaceOp) (idle : start.pending = none) (named : start.metadata.runId ≠ [])
    (tasks : ∀ task ∈ start.plan.tasks, isTaskId task.id = true)
    (valid : ∀ op ∈ ops, op.Valid) :
    (∀ dispatch, (History.run InPlaceOp.act ops start).pending = some dispatch →
      (DoorsAgree sha256Hex (History.run InPlaceOp.act ops start) dispatch ↔
        DoorsAligned sha256Hex (History.run InPlaceOp.act ops start) dispatch)) ∧
    (History.EveryStep InPlaceOp.act KeepsBase ops start →
      ∀ dispatch, (History.run InPlaceOp.act ops start).pending = some dispatch →
        DoorsAgree sha256Hex (History.run InPlaceOp.act ops start) dispatch) := by
  have inStep : InStep (History.run InPlaceOp.act ops start) := by
    refine (History.everyStep_of_forall valid start).invariant ⟨named, tasks, fun dispatch pending => ?_⟩
      fun _ _ => inStep_act
    rw [idle] at pending
    cases pending
  refine ⟨fun dispatch pending => doorsAgree_iff inStep pending, fun keeps dispatch pending => ?_⟩
  have atBase : PendingAtBase (History.run InPlaceOp.act ops start) := by
    refine keeps.invariant (fun dispatch pending => ?_) fun _ _ => pendingAtBase_act
    rw [idle] at pending
    cases pending
  exact (doorsAgree_iff inStep pending).mpr (doorsAligned_of_atBase atBase pending)

/-! ## Runs in which the doors disagree -/

/-- A clean tree at a revision. -/
def cleanView (head : JsString) (changed : List JsString) : GitView where
  head := some head
  delta _ := some changed
  status := some []
  read _ := none

/-- A task that writes under `src`. -/
def writingTask (id : JsString) : Task :=
  { id, title := js "write", kind := .modify, intent := js "write", dependsOn := none
    satisfies := none, verifies := none, targets := some ⟨none, some [js "src/**"]⟩, risk := none }

def twoTasks : Plan :=
  ⟨js "plan", ⟨js "spec", js "digest"⟩, [writingTask (js "T001"), writingTask (js "T002")]⟩

/-- A run in place before its first task. -/
def startedRun : InPlaceRun :=
  { view := cleanView (js "base") []
    metadata := { runId := js "run-1", specId := js "spec", specDigest := js "digest"
                  planId := some (js "plan"), baseRevision := some (js "base"), parentRunId := none }
    planFile := fun id => if id = js "plan" then some twoTasks else none
    plan := twoTasks, snapshotRevision := js "base", attribution := none, fileChanged := []
    protectedPaths := [js "test/**"], pending := none }

/-- The first task is committed, and the second one is dispatched. -/
def committedTask : List InPlaceOp :=
  [.dispatch (writingTask (js "T001")) 1,
    .finish (cleanView (js "next") [js "src/a.ts"]) [⟨js "src/a.ts", js "digest", .applied⟩] true,
    .dispatch (writingTask (js "T002")) 1]

/-- The author commits to a protected path while the first task is pending. -/
def protectedCommit : List InPlaceOp :=
  [.dispatch (writingTask (js "T001")) 1,
    .author (cleanView (js "next") [js "test/a.ts"]) [js "test/**"]]

theorem submission_doors_protectedCommit :
    (∀ dispatch, (History.run InPlaceOp.act protectedCommit startedRun).pending = some dispatch →
      (DoorsAgree (fun _ => []) (History.run InPlaceOp.act protectedCommit startedRun) dispatch ↔
        DoorsAligned (fun _ => []) (History.run InPlaceOp.act protectedCommit startedRun) dispatch)) ∧
    (History.EveryStep InPlaceOp.act KeepsBase protectedCommit startedRun →
      ∀ dispatch, (History.run InPlaceOp.act protectedCommit startedRun).pending = some dispatch →
        DoorsAgree (fun _ => []) (History.run InPlaceOp.act protectedCommit startedRun) dispatch) :=
  submission_doors (fun _ => []) startedRun protectedCommit rfl (by decide) (by decide)
    (by simp [protectedCommit, InPlaceOp.Valid])

/-- After a commit of the runtime only the client refuses, and after a commit of the author to
a protected path only the runtime does. -/
theorem not_submission_doors :
    (∃ dispatch, (History.run InPlaceOp.act committedTask startedRun).pending = some dispatch ∧
      ¬ DoorsAgree (fun _ => []) (History.run InPlaceOp.act committedTask startedRun) dispatch) ∧
    ∃ dispatch, (History.run InPlaceOp.act protectedCommit startedRun).pending = some dispatch ∧
      ¬ DoorsAgree (fun _ => []) (History.run InPlaceOp.act protectedCommit startedRun) dispatch := by
  refine ⟨⟨_, rfl, ?_⟩, ⟨_, rfl, ?_⟩⟩
  · rw [DoorsAgree]
    decide +kernel
  · rw [DoorsAgree]
    decide +kernel

end SpecAsCode.Cli
