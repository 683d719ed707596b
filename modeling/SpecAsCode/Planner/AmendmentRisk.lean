import SpecAsCode.Core.AmendedPlans
import SpecAsCode.Executor.Enforce

/-!
# The risk of amendments

Amendments are approved by the risk that their operations are classified with.  The classifier
looks at the targets of the tasks that are added or put in the place of others, as texts.
-/

namespace SpecAsCode.Planner

open SpecAsCode.Js
open SpecAsCode.Core
open SpecAsCode.Schema
open SpecAsCode.History
open SpecAsCode.Executor (quotedPath scopeViolation)

/-! ## The classification -/

/-- `DEFAULT_HIGH_RISK_PATTERNS`. -/
def defaultHighRiskPatterns : List JsString :=
  [js "package.json", js "pnpm-lock.yaml", js "package-lock.json", js "yarn.lock", js "bun.lockb",
    js "**/migrations/**", js "Dockerfile", js "docker-compose*.yml", js "docker-compose*.yaml",
    js ".github/workflows/**", js "infra/**", js "terraform/**", js "k8s/**"]

structure AmendmentRiskAssessment where
  risk : Risk
  reasons : List JsString
  highRiskPatterns : List JsString
  deriving DecidableEq

def isReadOnlyTask (task : Task) : Bool :=
  task.writes.length == 0

/-- Why a task that is introduced makes the amendment a high-risk one. -/
def highRiskReason (patterns : List JsString) (task : Task) : Option JsString :=
  if task.risk = some .high then
    some (task.id ++ js " declares risk " ++ quotedPath (js "high"))
  else
    (task.writes.find? fun write => globMatchAny patterns write).map fun hit =>
      task.id ++ js " writes high-risk path " ++ quotedPath hit

/-- An operation that changes planned behaviour beyond read-only additions. -/
def isStructural : AmendmentOperation → Bool
  | .removeTask _ => true
  | .replaceTask _ _ => true
  | .changeTarget _ _ => true
  | .addTask task => !isReadOnlyTask task
  | .addDependency _ _ => false

/-- `classifyAmendmentRisk`, with the patterns that the configuration adds. -/
def classifyAmendmentRisk (operations : List AmendmentOperation) (extraPatterns : List JsString) :
    AmendmentRiskAssessment :=
  let highRiskPatterns := defaultHighRiskPatterns ++ extraPatterns
  let reasons := (introducedTasks operations).filterMap (highRiskReason highRiskPatterns)
  if reasons ≠ [] then
    ⟨.high, reasons, highRiskPatterns⟩
  else if operations.any isStructural then
    ⟨.medium, [js "amendment restructures planned work"], highRiskPatterns⟩
  else
    ⟨.low, [js "dependency-only or read-only additions"], highRiskPatterns⟩

/-- The path matches one of the high-risk patterns. -/
def HighRisk (extraPatterns : List JsString) (path : JsString) : Prop :=
  globMatchAny (defaultHighRiskPatterns ++ extraPatterns) path = true

/-- A task that is introduced declares a high risk, or has a target whose own text matches a
high-risk pattern. -/
def DeclaresHighRisk (operations : List AmendmentOperation) (extraPatterns : List JsString) : Prop :=
  ∃ task ∈ introducedTasks operations,
    task.risk = some .high ∨ ∃ write ∈ task.writes, HighRisk extraPatterns write

theorem highRiskReason_isSome {patterns : List JsString} {task : Task} :
    (highRiskReason patterns task).isSome = true ↔
      task.risk = some .high ∨ ∃ write ∈ task.writes, globMatchAny patterns write = true := by
  rw [highRiskReason]
  split_ifs with declared
  · exact iff_of_true rfl (Or.inl declared)
  · rw [Option.isSome_map, List.find?_isSome, or_iff_right declared]

theorem classifyAmendmentRisk_high {operations : List AmendmentOperation}
    {extraPatterns : List JsString} :
    (classifyAmendmentRisk operations extraPatterns).risk = .high ↔
      DeclaresHighRisk operations extraPatterns := by
  have reasons : (introducedTasks operations).filterMap
      (highRiskReason (defaultHighRiskPatterns ++ extraPatterns)) ≠ [] ↔
      DeclaresHighRisk operations extraPatterns := by
    rw [ne_eq, List.filterMap_eq_nil_iff, not_forall]
    refine exists_congr fun task => ?_
    rw [not_forall, exists_prop, ← ne_eq, ← Option.isSome_iff_ne_none, highRiskReason_isSome]
    rfl
  rw [← reasons, classifyAmendmentRisk]
  split_ifs with high structural
  · exact iff_of_true rfl high
  · exact iff_of_false (by simp) high
  · exact iff_of_false (by simp) high

/-! ## The targets after an amendment -/

/-- A task with the identifier has the targets. -/
def HasTargets (tasks : List Task) (id : JsString) (targets : Option TaskTargets) : Prop :=
  ∃ task ∈ tasks, task.id = id ∧ task.targets = targets

/-- The targets that an operation gives to a task. -/
def gives : AmendmentOperation → Option (JsString × Option TaskTargets)
  | .addTask task => some (task.id, task.targets)
  | .replaceTask _ task => some (task.id, task.targets)
  | .changeTarget taskId targets => some (taskId, some targets)
  | _ => none

/-- The operation takes the targets of a task away. -/
def overrides (id : JsString) : AmendmentOperation → Prop
  | .removeTask taskId => taskId = id
  | .replaceTask taskId _ => taskId = id
  | .changeTarget taskId _ => taskId = id
  | _ => False

/-- The last operation on the targets of the task gives it these. -/
def Given (operations : List AmendmentOperation) (id : JsString) (targets : Option TaskTargets) :
    Prop :=
  ∃ before operation after, operations = before ++ operation :: after ∧
    gives operation = some (id, targets) ∧ ∀ later ∈ after, ¬ overrides id later

variable {tasks : List Task} {id : JsString} {targets : Option TaskTargets}

theorem hasTargets_map {change : Task → Task} (sameId : ∀ task, (change task).id = task.id)
    (sameTargets : ∀ task, (change task).targets = task.targets) :
    HasTargets (tasks.map change) id targets ↔ HasTargets tasks id targets := by
  simp only [HasTargets, List.mem_map, exists_exists_and_eq_and, sameId, sameTargets]

theorem targets_withoutDependency (id : JsString) (task : Task) :
    (withoutDependency id task).targets = task.targets := by
  rw [withoutDependency]
  split_ifs <;> rfl

theorem targets_renameDependency (id other : JsString) (task : Task) :
    (renameDependency id other task).targets = task.targets := by
  rw [renameDependency]
  split_ifs <;> rfl

theorem hasTargets_replaceIn {taskId : JsString} {replacement : Task}
    (present : taskId ∈ ids tasks) :
    HasTargets (replaceIn tasks taskId replacement) id targets ↔
      (replacement.id = id ∧ replacement.targets = targets) ∨
        (taskId ≠ id ∧ HasTargets tasks id targets) := by
  constructor
  · rintro ⟨task, member, rfl, rfl⟩
    obtain ⟨old, inside, rfl⟩ := List.mem_map.mp member
    split_ifs with same
    · exact Or.inl ⟨rfl, rfl⟩
    · exact Or.inr ⟨Ne.symm same, old, inside, rfl, rfl⟩
  · rintro (⟨rfl, rfl⟩ | ⟨different, task, member, rfl, rfl⟩)
    · obtain ⟨old, inside, same⟩ := mem_ids.mp present
      exact ⟨replacement, List.mem_map.mpr ⟨old, inside, if_pos same⟩, rfl, rfl⟩
    · exact ⟨task, List.mem_map.mpr ⟨task, member, if_neg (Ne.symm different)⟩, rfl, rfl⟩

theorem hasTargets_changeTarget {taskId : JsString} {given : TaskTargets}
    (present : taskId ∈ ids tasks) :
    HasTargets (amendedTasks tasks (.changeTarget taskId given)) id targets ↔
      (taskId = id ∧ some given = targets) ∨ (taskId ≠ id ∧ HasTargets tasks id targets) := by
  constructor
  · rintro ⟨task, member, rfl, rfl⟩
    obtain ⟨old, inside, rfl⟩ := List.mem_map.mp member
    split_ifs with same
    · exact Or.inl ⟨same.symm, rfl⟩
    · exact Or.inr ⟨Ne.symm same, old, inside, rfl, rfl⟩
  · rintro (⟨rfl, rfl⟩ | ⟨different, task, member, rfl, rfl⟩)
    · obtain ⟨old, inside, same⟩ := mem_ids.mp present
      exact ⟨{ old with targets := some given }, List.mem_map.mpr ⟨old, inside, if_pos same⟩,
        same, rfl⟩
    · exact ⟨task, List.mem_map.mpr ⟨task, member, if_neg (Ne.symm different)⟩, rfl, rfl⟩

/-- What one operation does to the targets of a task. -/
theorem hasTargets_step {executed : List JsString} {operation : AmendmentOperation}
    (legal : ¬ Illegal executed tasks operation) :
    HasTargets (amendedTasks tasks operation) id targets ↔
      gives operation = some (id, targets) ∨ (¬ overrides id operation ∧ HasTargets tasks id targets) := by
  cases operation with
  | addTask task =>
      simp only [amendedTasks, HasTargets, List.mem_append, List.mem_singleton, or_and_right,
        exists_or, exists_eq_left, gives, overrides, Option.some.injEq, Prod.mk.injEq,
        not_false_eq_true, true_and]
      exact or_comm
  | removeTask taskId =>
      rw [amendedTasks, hasTargets_map (id_withoutDependency taskId) (targets_withoutDependency taskId)]
      simp only [gives, overrides, reduceCtorEq, false_or]
      constructor
      · rintro ⟨task, member, rfl, rfl⟩
        obtain ⟨inside, other⟩ := List.mem_filter.mp member
        exact ⟨fun same => absurd same.symm (by simpa using other), task, inside, rfl, rfl⟩
      · rintro ⟨different, task, member, rfl, rfl⟩
        exact ⟨task, List.mem_filter.mpr ⟨member, by simpa using Ne.symm different⟩, rfl, rfl⟩
  | replaceTask taskId replacement =>
      have present : taskId ∈ ids tasks := not_not.mp (not_or.mp legal).1
      simp only [gives, overrides, Option.some.injEq, Prod.mk.injEq]
      rw [← ne_eq, ← hasTargets_replaceIn present, amendedTasks]
      split_ifs
      · exact hasTargets_map (id_renameDependency _ _) (targets_renameDependency _ _)
      · rfl
  | addDependency taskId dependsOnTaskId =>
      rw [amendedTasks, hasTargets_map (fun task => by split_ifs <;> rfl)
        (fun task => by split_ifs <;> rfl)]
      simp [gives, overrides]
  | changeTarget taskId given =>
      have present : taskId ∈ ids tasks := not_not.mp (not_or.mp legal).1
      rw [hasTargets_changeTarget present]
      simp [gives, overrides]

theorem given_cons {operation : AmendmentOperation} {operations : List AmendmentOperation} :
    Given (operation :: operations) id targets ↔
      Given operations id targets ∨
        (gives operation = some (id, targets) ∧ ∀ later ∈ operations, ¬ overrides id later) := by
  constructor
  · rintro ⟨before, here, after, shape, given, last⟩
    cases before with
    | nil =>
        cases shape
        exact Or.inr ⟨given, last⟩
    | cons first before =>
        cases shape
        exact Or.inl ⟨before, here, after, rfl, given, last⟩
  · rintro (⟨before, here, after, rfl, given, last⟩ | ⟨given, last⟩)
    · exact ⟨operation :: before, here, after, rfl, given, last⟩
    · exact ⟨[], operation, operations, rfl, given, last⟩

/-- The targets after operations that are all allowed: the last ones that were given, or those
from before when no operation has taken them away. -/
theorem hasTargets_run {executed : List JsString} {operations : List AmendmentOperation}
    {state : Amending}
    (allowed : EveryStep (amendStep executed)
      (fun state operation => refusal executed state.tasks operation = none) operations state) :
    HasTargets (run (amendStep executed) operations state).tasks id targets ↔
      Given operations id targets ∨
        ((∀ operation ∈ operations, ¬ overrides id operation) ∧ HasTargets state.tasks id targets) := by
  induction operations generalizing state with
  | nil => simp [run, Given]
  | cons operation operations inductionHypothesis =>
      rw [run, inductionHypothesis allowed.2, amendStep_of_allowed allowed.1,
        hasTargets_step (not_illegal_of_refusal allowed.1), given_cons, List.forall_mem_cons]
      tauto

/-! ## Widening -/

/-- `t.targets?.write ?? []`. -/
def writesOf (targets : Option TaskTargets) : List JsString :=
  (targets.bind TaskTargets.write).getD []

/-- The scope check lets a task with these targets write the path. -/
def CanWrite (writes : List JsString) (path : JsString) : Prop :=
  scopeViolation writes path = none

/-- A task that has not executed can write a high-risk path that no task with its identifier
could write before. -/
def Widens (extraPatterns executed : List JsString) (plan amended : Plan) : Prop :=
  ∃ task ∈ amended.tasks, task.id ∉ executed ∧ ∃ path, HighRisk extraPatterns path ∧
    CanWrite task.writes path ∧
    ∀ old ∈ plan.tasks, old.id = task.id → old.id ∉ executed → ¬ CanWrite old.writes path

/-- Amendments that widen high-risk writes are classified as high-risk ones. -/
def WideningRated (plan : Plan) (operations : List AmendmentOperation)
    (executed extraPatterns : List JsString) : Prop :=
  ∀ amended, (applyPlanAmendment plan operations executed).plan = some amended →
    Widens extraPatterns executed plan amended →
    (classifyAmendmentRisk operations extraPatterns).risk = .high

/-- The targets that the operations give and leave to a task that has not executed cover no
high-risk path that a task with its identifier could not write before. -/
def GivesNoHighRisk (plan : Plan) (operations : List AmendmentOperation)
    (executed extraPatterns : List JsString) : Prop :=
  ∀ id targets, Given operations id targets → id ∉ executed →
    ∀ path, HighRisk extraPatterns path → CanWrite (writesOf targets) path →
      ∃ old ∈ plan.tasks, old.id = id ∧ CanWrite old.writes path

theorem widens_iff {plan amended : Plan} {operations : List AmendmentOperation}
    {executed extraPatterns : List JsString}
    (applied : (applyPlanAmendment plan operations executed).plan = some amended) :
    Widens extraPatterns executed plan amended ↔
      ¬ GivesNoHighRisk plan operations executed extraPatterns := by
  obtain ⟨rfl, allowed, -⟩ := applyPlanAmendment_some applied
  rw [← not_iff_not, not_not]
  constructor
  · intro narrow id targets given pending path risky writable
    obtain ⟨task, member, rfl, rfl⟩ := (hasTargets_run allowed).mpr (Or.inl given)
    by_contra new
    exact narrow ⟨task, member, pending, path, risky, writable, fun old inside same _ could =>
      new ⟨old, inside, same, could⟩⟩
  · rintro narrow ⟨task, member, pending, path, risky, writable, new⟩
    rcases (hasTargets_run allowed).mp ⟨task, member, rfl, rfl⟩ with given | ⟨-, old, inside, same, kept⟩
    · obtain ⟨old, inside, same, could⟩ := narrow task.id task.targets given pending path risky writable
      exact new old inside same (same ▸ pending) could
    · refine new old inside same (same ▸ pending) ?_
      rw [Task.writes, kept]
      exact writable

/-- Widening is rated exactly when an applied amendment declares its risk, or gives no new
high-risk path to a task. -/
theorem wideningRated_iff (plan : Plan) (operations : List AmendmentOperation)
    (executed extraPatterns : List JsString) :
    WideningRated plan operations executed extraPatterns ↔
      ((∃ amended, (applyPlanAmendment plan operations executed).plan = some amended) →
        DeclaresHighRisk operations extraPatterns ∨
          GivesNoHighRisk plan operations executed extraPatterns) := by
  constructor
  · rintro rated ⟨amended, applied⟩
    by_cases narrow : GivesNoHighRisk plan operations executed extraPatterns
    · exact Or.inr narrow
    · exact Or.inl (classifyAmendmentRisk_high.mp
        (rated amended applied ((widens_iff applied).mpr narrow)))
  · intro condition amended applied widens
    rcases condition ⟨amended, applied⟩ with declared | narrow
    · exact classifyAmendmentRisk_high.mpr declared
    · exact absurd narrow ((widens_iff applied).mp widens)

/-- The one task of the plan is given the manifest as its target. -/
def retarget : List AmendmentOperation :=
  [.changeTarget (js "TASK-1") ⟨none, some [js "package.json"]⟩]

/-- A target that is changed to a high-risk path is not classified as a high risk. -/
theorem not_wideningRated : ¬ WideningRated plainPlan retarget [] [] := by
  rw [wideningRated_iff]
  intro condition
  have applied : (applyPlanAmendment plainPlan retarget []).plan.isSome = true := by
    decide +kernel
  rcases condition (Option.isSome_iff_exists.mp applied) with ⟨task, introduced, -⟩ | narrow
  · cases introduced
  · obtain ⟨old, member, -, could⟩ := narrow (js "TASK-1") (some ⟨none, some [js "package.json"]⟩)
      ⟨[], _, [], rfl, rfl, by simp⟩ List.not_mem_nil (js "package.json")
      (by rw [HighRisk]; decide +kernel) (by rw [CanWrite]; decide +kernel)
    rw [List.mem_singleton.mp member, CanWrite] at could
    revert could
    decide +kernel

end SpecAsCode.Planner
