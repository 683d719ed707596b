import SpecAsCode.Executor.Enforce
import SpecAsCode.Lib.History
import SpecAsCode.Repo.Commits
import SpecAsCode.Runtime.ParallelDriver

/-!
# The commits of a run

When an attempt at a task has ended, its delta is checked against the scope of the task, and the
task may be committed.  The end of the run commits what is left.
-/

namespace SpecAsCode.Runtime.Committing

open SpecAsCode.Js
open SpecAsCode.Core
open SpecAsCode.Executor
open SpecAsCode.Repo
open SpecAsCode.Schema
open SpecAsCode.Runtime.Parallel (OutcomeStatus)

structure CommitConfig where
  commitPerTask : Bool
  protectedPaths : List JsString
  /-- Empty when it is left out. -/
  allowDirtyPaths : List JsString

/-! ## The end of an attempt -/

/-- A path is restored from the index, or removed if it is not in it. -/
def revertPath (checkout : Checkout) (path : JsString) : Checkout :=
  if isSafeRelativePath path = true then
    { checkout with toWorktree := checkout.toWorktree.put path (checkout.index path) }
  else
    checkout

def revertPaths (checkout : Checkout) (paths : List JsString) : Checkout :=
  paths.foldl revertPath checkout

/-- The paths that changed since a snapshot. -/
def taskScopeDelta (renames : RenameDetection) (before : ContentSnapshot) (worked : Checkout) :
    List JsString :=
  (changesSince renames before worked).map Prod.fst

def scopeViolations (config : CommitConfig) (task : Task) (delta : List JsString) :
    List ScopeViolation :=
  enforceProtectedPaths config.protectedPaths delta ++ enforceWriteScope task.writes delta

/-- What `executeTaskInRun` leaves of an attempt. -/
structure TaskEnd where
  checkout : Checkout
  status : OutcomeStatus
  delta : List JsString

/-- The end of `executeTaskInRun`: violations are reverted, and fail a task that completes. -/
def endTask (config : CommitConfig) (renames : RenameDetection) (task : Task)
    (before : ContentSnapshot) (worked : Checkout) (status : OutcomeStatus) : TaskEnd :=
  let delta := taskScopeDelta renames before worked
  let violations := scopeViolations config task delta
  if violations = [] then
    ⟨worked, status, delta⟩
  else
    ⟨revertPaths worked (violations.map ScopeViolation.path),
      if status = .completed then .failed else status, delta⟩

/-- The task is committed in the worktree of the run.  The check of a verification task returns
before. -/
def commitsTask (config : CommitConfig) (task : Task) (ended : TaskEnd) : Bool :=
  config.commitPerTask && ended.status == .completed && ended.delta != [] && task.kind != .verify

/-! ## Runs -/

/-- A commit of a run, and the task that `TASK_COMMITTED` names with it. -/
structure RunCommit where
  task : Option Task
  commit : Commit

structure CommittingRun where
  checkout : Checkout
  commits : List RunCommit

inductive RunOp where
  /-- What else happens to the worktree: what people and agents do, and attempts that end before
  their delta is looked at. -/
  | change (checkout : Checkout)
  /-- An attempt in the worktree of the run, which it leaves as `worked`. -/
  | attempt (task : Task) (worked : Checkout) (status : OutcomeStatus) (revision : JsString)
  /-- An attempt in a worktree of its own.  If the patch applies, the worktree of the run is
  `picked` after that. -/
  | isolated (task : Task) (fresh worked : Checkout) (status : OutcomeStatus) (revision : JsString)
      (picked : Option Checkout)
  | finish (revision : JsString)

section Acts

variable (config : CommitConfig) (renames : RenameDetection) (pathspec : Pathspec)

/-- The commit of the end of a run. -/
def resultCommit (worktree : Worktree) (revision : JsString) : Option Commit :=
  if config.allowDirtyPaths = [] then
    worktree.commitOfAll renames revision
  else
    worktree.commitOfLeft renames pathspec config.allowDirtyPaths revision

/-- The worktree after the commit of the end of a run. -/
def afterResult (worktree : Worktree) (revision : JsString) : Worktree :=
  if config.allowDirtyPaths = [] then
    (worktree.commitAll renames revision).1
  else
    (worktree.commitLeft renames pathspec config.allowDirtyPaths revision).1

/-- The task that an operation commits, the worktree that it commits all of, and the revision. -/
def committedTask? (run : CommittingRun) : RunOp → Option (Task × Checkout × JsString)
  | .attempt task worked status revision =>
      let ended := endTask config renames task (run.checkout.contentSnapshot renames) worked status
      if commitsTask config task ended = true then some (task, ended.checkout, revision) else none
  | .isolated task fresh worked status revision picked =>
      let ended := endTask config renames task (fresh.contentSnapshot renames) worked status
      if ended.status = .completed ∧ picked.isSome = true then
        some (task, ended.checkout, revision)
      else
        none
  | _ => none

/-- The commit that an operation makes of a task. -/
def taskCommits (run : CommittingRun) (op : RunOp) : List RunCommit :=
  match committedTask? config renames run op with
  | some (task, checkout, revision) =>
      ((checkout.commitOfAll renames revision).map (⟨some task, ·⟩)).toList
  | none => []

/-- The commit that the end of the run makes. -/
def resultCommits (run : CommittingRun) : RunOp → List RunCommit
  | .finish revision =>
      ((resultCommit config renames pathspec run.checkout.toWorktree revision).map
        (⟨none, ·⟩)).toList
  | _ => []

/-- The worktree of the run after an operation. -/
def checkoutAfter (run : CommittingRun) : RunOp → Checkout
  | .change checkout => checkout
  | .attempt task worked status revision =>
      let ended := endTask config renames task (run.checkout.contentSnapshot renames) worked status
      if commitsTask config task ended = true then
        { ended.checkout with
          toWorktree := (ended.checkout.toWorktree.commitAll renames revision).1 }
      else
        ended.checkout
  | .isolated _ _ _ _ _ picked => picked.getD run.checkout
  | .finish revision =>
      { run.checkout with
        toWorktree := afterResult config renames pathspec run.checkout.toWorktree revision }

def act (op : RunOp) (run : CommittingRun) : CommittingRun where
  checkout := checkoutAfter config renames pathspec run op
  commits := run.commits ++
    (taskCommits config renames run op ++ resultCommits config renames pathspec run op)

end Acts

/-- A run that begins. -/
def CommittingRun.start (checkout : Checkout) : CommittingRun where
  checkout := checkout
  commits := []

section Log

variable {config : CommitConfig} {renames : RenameDetection} {pathspec : Pathspec}

theorem endTask_of_completed {task : Task} {before : ContentSnapshot} {worked : Checkout}
    {status : OutcomeStatus}
    (completed : (endTask config renames task before worked status).status = .completed) :
    endTask config renames task before worked status =
        ⟨worked, .completed, taskScopeDelta renames before worked⟩ ∧
      status = .completed ∧
        scopeViolations config task (taskScopeDelta renames before worked) = [] := by
  rw [endTask] at completed ⊢
  by_cases clean : scopeViolations config task (taskScopeDelta renames before worked) = []
  · rw [if_pos clean] at completed ⊢
    exact ⟨by rw [show status = .completed from completed], completed, clean⟩
  · rw [if_neg clean] at completed
    by_cases succeeded : status = .completed
    · rw [if_pos succeeded] at completed
      cases completed
    · rw [if_neg succeeded] at completed
      exact absurd completed succeeded

theorem commitsTask_completed {task : Task} {ended : TaskEnd}
    (commits : commitsTask config task ended = true) : ended.status = .completed := by
  rw [commitsTask, Bool.and_eq_true, Bool.and_eq_true, Bool.and_eq_true] at commits
  exact beq_iff_eq.mp commits.1.1.2

/-- A property of the commits of a task is one of what is uncommitted. -/
theorem forall_taskCommits_iff {P : RunCommit → Prop} {Q : Task → Checkout → Prop}
    (same : ∀ (task : Task) (checkout : Checkout) revision,
      (∀ entry ∈ ((checkout.commitOfAll renames revision).map (RunCommit.mk (some task) ·)).toList,
        P entry) ↔ Q task checkout) (run : CommittingRun) (op : RunOp) :
    (∀ entry ∈ taskCommits config renames run op, P entry) ↔
      ∀ task checkout revision, committedTask? config renames run op =
        some (task, checkout, revision) → Q task checkout := by
  rw [taskCommits]
  cases committed : committedTask? config renames run op with
  | none => simp
  | some found =>
      obtain ⟨task, checkout, revision⟩ := found
      dsimp only
      rw [same]
      constructor
      · rintro holds _ _ _ ⟨⟩
        exact holds
      · intro holds
        exact holds task checkout revision rfl

/-- The commits of a run are those of its tasks and of its end. -/
theorem forall_commits_iff {P : RunCommit → Prop} (checkout : Checkout) (ops : List RunOp) :
    (∀ entry ∈ (History.run (act config renames pathspec) ops
        (CommittingRun.start checkout)).commits, P entry) ↔
      History.EveryStep (act config renames pathspec) (fun run op =>
        (∀ entry ∈ taskCommits config renames run op, P entry) ∧
          ∀ entry ∈ resultCommits config renames pathspec run op, P entry) ops
        (CommittingRun.start checkout) := by
  have grows : ∀ (run : CommittingRun) (op : RunOp),
      (act config renames pathspec op run).commits = run.commits ++
        (taskCommits config renames run op ++ resultCommits config renames pathspec run op) :=
    fun _ _ => rfl
  rw [History.forall_log_iff grows,
    History.everyStep_congr fun run op => List.forall_mem_append]
  refine and_iff_right fun entry member => ?_
  cases member

end Log

end SpecAsCode.Runtime.Committing
