import SpecAsCode.Runtime.CommittingRun
import SpecAsCode.Runtime.WriteConflicts

/-!
# The revisions of tasks

A task is committed with everything that is not committed yet, and only what changed during its
last attempt was checked.
-/

namespace SpecAsCode.Runtime.Committing

open SpecAsCode.Js
open SpecAsCode.Core
open SpecAsCode.Executor
open SpecAsCode.Repo
open SpecAsCode.Schema
open SpecAsCode.History
open SpecAsCode.Runtime.Parallel (OutcomeStatus)

/-- The path matches the write targets of the task. -/
def InTargets (task : Task) (path : JsString) : Prop :=
  globMatchAny task.writes (normalizeRelPath path) = true

/-- A commit that `TASK_COMMITTED` names has only paths in the write targets of its task. -/
def RunCommit.Owned (entry : RunCommit) : Prop :=
  ∀ task, entry.task = some task → ∀ path, entry.commit.Differs path → InTargets task path

/-- What is uncommitted is in the write targets. -/
def OwnsTree (task : Task) (checkout : Checkout) : Prop :=
  ∀ path, checkout.Uncommitted path → InTargets task path

section Revisions

variable (config : CommitConfig) (renames : RenameDetection)

/-- When a task is about to be committed, only paths in its write targets are uncommitted. -/
def CommitsOwn (run : CommittingRun) (op : RunOp) : Prop :=
  ∀ task checkout revision, committedTask? config renames run op =
    some (task, checkout, revision) → OwnsTree task checkout

/-- Nothing outside the write targets was uncommitted when the attempt began, and everything
that is uncommitted after it is in the content snapshot. -/
def StartsOwn (task : Task) (before worked : Checkout) : Prop :=
  (∀ entry ∈ (before.contentSnapshot renames).entries, InTargets task entry.1) ∧
    ∀ path, worked.Uncommitted path →
      ∃ entry ∈ (worked.contentSnapshot renames).entries, entry.1 = path

/-- Every attempt starts without leftovers of others. -/
def NoLeftovers (run : CommittingRun) : RunOp → Prop
  | .attempt task worked _ _ => StartsOwn renames task run.checkout worked
  | .isolated task fresh worked _ _ _ => StartsOwn renames task fresh worked
  | _ => True

variable {config renames} {pathspec : Pathspec}

/-! ## One commit -/

/-- The commit is of the task if and only if what was uncommitted is. -/
theorem owned_commitOfAll_iff (task : Task) (worked : Checkout) (revision : JsString) :
    (∀ entry ∈ ((worked.commitOfAll renames revision).map (RunCommit.mk (some task) ·)).toList,
      entry.Owned) ↔ OwnsTree task worked := by
  constructor
  · intro owned path uncommitted
    obtain ⟨commit, made⟩ := Option.isSome_iff_exists.mp
      (@Worktree.commitOfAll_isSome renames _ revision path uncommitted)
    rw [made] at owned
    exact owned _ List.mem_cons_self task rfl path
      ((Worktree.differs_commitOfAll made).mpr uncommitted)
  · intro own entry member named same path differs
    rw [Option.mem_toList] at member
    obtain ⟨commit, made, rfl⟩ := Option.map_eq_some_iff.mp member
    cases same
    exact own path ((Worktree.differs_commitOfAll made).mp differs)

/-! ## Leftovers -/

theorem statePrefixes_eq : SPC_STATE_PREFIXES = (SPC_STATE_PATHS.take 5).map (· ++ js "/") := by
  decide +kernel

/-- Only state of the runtime is left out of a delta. -/
theorem not_statePrefix {path : JsString} (other : isSpcState path = false) :
    (SPC_STATE_PREFIXES.any fun folder => startsWith path folder) = false := by
  rw [isSpcState, List.any_eq_false] at other
  rw [List.any_eq_false, statePrefixes_eq]
  intro folder member inside
  obtain ⟨state, taken, rfl⟩ := List.mem_map.mp member
  refine other state (List.mem_of_mem_take taken) ?_
  rw [inside, Bool.or_true]

/-- A name that only the later snapshot has is in the delta. -/
theorem mem_taskScopeDelta {before : ContentSnapshot} {worked : Checkout}
    {entry : JsString × ContentIdentity}
    (later : entry ∈ (worked.contentSnapshot renames).entries) (new : before.get? entry.1 = none)
    (other : isSpcState entry.1 = false) : entry.1 ∈ taskScopeDelta renames before worked := by
  have changed : ∃ change, laterChange before worked.isTracked entry = some (entry.1, change) := by
    rw [laterChange, new]
    by_cases deleted : entry.2 = .deleted
    · exact ⟨.deleted, by simp [deleted]⟩
    · exact ⟨_, by rw [if_neg (Option.some_ne_none _).symm, if_neg deleted, if_pos rfl]⟩
  obtain ⟨change, changed⟩ := changed
  have key : entry.1 ∈ (contentDelta before (worked.contentSnapshot renames)
      worked.isTracked).entries.map Prod.fst := by
    rw [contentDelta, OrderedMap.mem_keys_ofEntries]
    exact List.mem_map.mpr ⟨_, List.mem_append_left _ (List.mem_filterMap.mpr
      ⟨entry, later, changed⟩), rfl⟩
  obtain ⟨found, inDelta, same⟩ := List.mem_map.mp key
  refine List.mem_map.mpr ⟨found, List.mem_filter.mpr ⟨inDelta, ?_⟩, same⟩
  rw [same, not_statePrefix other]
  rfl

/-- Without leftovers, what is uncommitted after an attempt in scope is in the write targets. -/
theorem ownsTree_of_startsOwn {task : Task} {before worked : Checkout}
    (starts : StartsOwn renames task before worked)
    (clean : scopeViolations config task
      (taskScopeDelta renames (before.contentSnapshot renames) worked) = []) :
    OwnsTree task worked := by
  intro path uncommitted
  obtain ⟨entry, later, rfl⟩ := starts.2 path uncommitted
  cases known : (before.contentSnapshot renames).get? entry.1 with
  | some identity =>
      exact starts.1 (entry.1, identity) (OrderedMap.get?_eq_some.mp known)
  | none =>
      have inScope := (List.append_eq_nil_iff.mp clean).2
      rw [enforceWriteScope_eq_nil] at inScope
      exact (inScope _ (mem_taskScopeDelta later known uncommitted.1)).2

theorem commitsOwn_of_noLeftovers (run : CommittingRun) (op : RunOp)
    (none : NoLeftovers renames run op) : CommitsOwn config renames run op := by
  intro task checkout revision committed
  cases op with
  | change _ => cases committed
  | finish _ => cases committed
  | attempt task worked status revision =>
      rw [committedTask?] at committed
      split_ifs at committed with commits
      obtain ⟨ended, -, clean⟩ := endTask_of_completed (commitsTask_completed commits)
      rw [ended] at committed
      cases committed
      exact ownsTree_of_startsOwn none clean
  | isolated task fresh worked status revision picked =>
      rw [committedTask?] at committed
      split_ifs at committed with commits
      obtain ⟨ended, -, clean⟩ := endTask_of_completed commits.1
      rw [ended] at committed
      cases committed
      exact ownsTree_of_startsOwn none clean

/-- The end of the run commits no task. -/
theorem owned_resultCommits (run : CommittingRun) (op : RunOp) :
    ∀ entry ∈ resultCommits config renames pathspec run op, entry.Owned := by
  intro entry member task same
  cases op with
  | change _ => cases member
  | attempt _ _ _ _ => cases member
  | isolated _ _ _ _ _ _ => cases member
  | finish revision =>
      rw [resultCommits, Option.mem_toList] at member
      obtain ⟨commit, -, rfl⟩ := Option.map_eq_some_iff.mp member
      cases same

end Revisions

/-- Along a history of a run every revision that `TASK_COMMITTED` records has only paths in the
write targets of its task if and only if nothing else is uncommitted whenever a task is
committed.  That is so when no attempt starts with leftovers, and content snapshots show what
is uncommitted. -/
theorem task_revisions_iff (config : CommitConfig) (renames : RenameDetection)
    (pathspec : Pathspec) (checkout : Checkout) (ops : List RunOp) :
    ((∀ entry ∈ (run (act config renames pathspec) ops (CommittingRun.start checkout)).commits,
        entry.Owned) ↔
      EveryStep (act config renames pathspec) (CommitsOwn config renames) ops
        (CommittingRun.start checkout)) ∧
    (EveryStep (act config renames pathspec) (NoLeftovers renames) ops
        (CommittingRun.start checkout) →
      EveryStep (act config renames pathspec) (CommitsOwn config renames) ops
        (CommittingRun.start checkout)) := by
  refine ⟨?_, EveryStep.mono commitsOwn_of_noLeftovers⟩
  rw [forall_commits_iff]
  refine everyStep_congr (fun run op => ?_) ops _
  rw [forall_taskCommits_iff owned_commitOfAll_iff, and_iff_left (owned_resultCommits run op)]
  rfl

/-! ## The failing run -/

/-- No renames are detected. -/
def noRenames : RenameDetection where
  pairs _ _ := []
  sound _ _ _ member := absurd member List.not_mem_nil

/-- Every path selects itself and nothing else. -/
def plainPathspec : Pathspec where
  selects name path := name == path
  self _ := BEq.rfl

def noFiles : Tree :=
  fun _ => none

/-- The files at some paths, with nothing in them. -/
def emptyFiles (paths : List JsString) : Tree :=
  fun path => if path ∈ paths then some [] else none

theorem listed_emptyFiles (paths : List JsString) :
    ∀ path, path ∉ paths → noFiles path = none ∧ noFiles path = none ∧
      emptyFiles paths path = none :=
  fun _ outside => ⟨rfl, rfl, if_neg outside⟩

/-- A worktree with new files. -/
def newFiles (paths : List JsString) : Checkout where
  revision := js "base"
  head := noFiles
  index := noFiles
  tree := emptyFiles paths
  ignored := fun _ => false
  paths := paths
  listed := listed_emptyFiles paths
  readable := fun _ => true

/-- The first task fails after it has written its file, and the second one completes. -/
def leftoverHistory : List RunOp :=
  [.attempt (writer (js "first") (js "src/a.ts")) (newFiles [js "src/a.ts"]) .failed (js "r1"),
    .attempt (writer (js "second") (js "src/b.ts"))
      (newFiles [js "src/a.ts", js "src/b.ts"]) .completed (js "r2")]

theorem leftoverHistory_commits :
    ((run (act ⟨true, [], []⟩ noRenames plainPathspec) leftoverHistory
        (CommittingRun.start (newFiles []))).commits.map fun entry =>
      (entry.task, decide (entry.commit.parent (js "src/a.ts") = entry.commit.tree (js "src/a.ts")))) =
      [(some (writer (js "second") (js "src/b.ts")), false)] := by
  decide +kernel

/-- The revision of a task has the file that another one left behind. -/
theorem not_task_revisions :
    ¬ ∀ config renames pathspec checkout ops, config.commitPerTask = true →
      ∀ entry ∈ (run (act config renames pathspec) ops (CommittingRun.start checkout)).commits,
        entry.Owned := by
  intro owned
  have member : (some (writer (js "second") (js "src/b.ts")), false) ∈
      (run (act ⟨true, [], []⟩ noRenames plainPathspec) leftoverHistory
        (CommittingRun.start (newFiles []))).commits.map fun entry => (entry.task,
          decide (entry.commit.parent (js "src/a.ts") = entry.commit.tree (js "src/a.ts"))) := by
    rw [leftoverHistory_commits]
    exact List.mem_cons_self
  obtain ⟨entry, made, same⟩ := List.mem_map.mp member
  obtain ⟨named, differs⟩ := Prod.mk.inj same
  have inTargets := owned ⟨true, [], []⟩ noRenames plainPathspec (newFiles []) leftoverHistory rfl
    entry made _ named (js "src/a.ts") (of_decide_eq_false differs)
  have outside : globMatchAny (writer (js "second") (js "src/b.ts")).writes
      (normalizeRelPath (js "src/a.ts")) = false := by
    decide +kernel
  rw [InTargets, outside] at inTargets
  cases inTargets

end SpecAsCode.Runtime.Committing
