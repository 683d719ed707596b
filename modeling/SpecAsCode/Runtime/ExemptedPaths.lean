import SpecAsCode.Executor.UnmediatedGuard
import SpecAsCode.Js.Decimal
import SpecAsCode.Runtime.TaskRevisions

/-!
# Exempted dirty paths

The preflight check exempts dirty paths by patterns.  The commits of the run leave out paths by
name, or not at all.
-/

namespace SpecAsCode.Runtime.Committing

open SpecAsCode.Js
open SpecAsCode.Core
open SpecAsCode.Executor
open SpecAsCode.Repo
open SpecAsCode.Schema
open SpecAsCode.History

/-! ## The preflight check -/

section Preflight

variable (renames : RenameDetection) (worktree : Worktree) (allowDirtyPaths : List JsString)

/-- The dirty names, without untracked state of the tool. -/
def humanChanges : List JsString :=
  ((worktree.statusPorcelain renames).entries.filter fun entry =>
    !(startsWith entry.1 (js ".spc/") && includes entry.2 (js "?"))).map Prod.fst

def dirtyAllowed : List JsString :=
  (humanChanges renames worktree).filter fun name => globMatchAny allowDirtyPaths name

def dirtyOffenders : List JsString :=
  (humanChanges renames worktree).filter fun name => !globMatchAny allowDirtyPaths name

structure PreflightError where
  code : JsString
  message : JsString
  deriving DecidableEq

/-- The part of `checkPreflight` that looks at the working tree. -/
def checkDirty (allowDirty : Bool) (plan : Plan) : Except PreflightError Unit :=
  let offenders := dirtyOffenders renames worktree allowDirtyPaths
  if offenders ≠ [] ∧ allowDirty = false then
    .error ⟨js "DIRTY_REPOSITORY", js "working tree is dirty (" ++ natText offenders.length ++
      js " changed paths not covered by execution.allowDirtyPaths: " ++
      commaList (offenders.take 5) ++ js ("); commit or stash first, scope them via " ++
        "allowDirtyPaths, or pass --allow-dirty (blanket, deprecated)")⟩
  else
    let writePatterns := plan.tasks.flatMap Task.writes
    match (dirtyAllowed renames worktree allowDirtyPaths).find? fun name =>
      globMatchAny writePatterns name with
    | some name =>
        .error ⟨js "DIRTY_PATH_SCOPE", js "allowlisted dirty path " ++ quotedPath name ++
          js (" overlaps the plan's declared write targets; the exemption must never override " ++
            "task scope - commit or stash the path, or narrow the write targets")⟩
    | none => .ok ()

/-- The name of the line that git prints for a path. -/
def statusName? (path : JsString) : Option JsString :=
  ((worktree.trackedLine renames path).or (worktree.untrackedLine path)).map Prod.fst

/-- `checkPreflight` exempts the path because it matches a pattern. -/
def Exempt (path : JsString) : Prop :=
  ∃ name ∈ dirtyAllowed renames worktree allowDirtyPaths, statusName? renames worktree path = some name

end Preflight

/-! ## The commits -/

/-- No exempted path is in the commit. -/
def RunCommit.Spares (exempt : JsString → Prop) (entry : RunCommit) : Prop :=
  ∀ path, exempt path → ¬ entry.commit.Differs path

/-- No exempted path has uncommitted changes. -/
def NoneUncommitted (exempt : JsString → Prop) (worktree : Worktree) : Prop :=
  ∀ path, exempt path → ¬ worktree.Uncommitted path

/-- What git is asked to add does not touch exempted paths with uncommitted changes, and
otherwise nothing of an exempted path is staged. -/
def NoneAdded (exempt : JsString → Prop) (pathspec : Pathspec) (worktree : Worktree)
    (names : List JsString) : Prop :=
  ∀ path, exempt path →
    if names.any (fun name => pathspec.selects name path) = true then
      worktree.addable path = worktree.head path
    else
      worktree.index path = worktree.head path

section Exemptions

variable (config : CommitConfig) (renames : RenameDetection) (pathspec : Pathspec)
  (exempt : JsString → Prop)

/-- The commits that are about to be made leave the exempted paths alone. -/
structure LeavesExempted (run : CommittingRun) (op : RunOp) : Prop where
  task : ∀ task checkout revision, committedTask? config renames run op =
    some (task, checkout, revision) → NoneUncommitted exempt checkout.toWorktree
  all : ∀ revision, op = .finish revision → config.allowDirtyPaths = [] →
    NoneUncommitted exempt run.checkout.toWorktree
  names : ∀ revision, op = .finish revision → config.allowDirtyPaths ≠ [] →
    run.checkout.addsNames renames pathspec config.allowDirtyPaths = true →
      NoneAdded exempt pathspec run.checkout.toWorktree
        (run.checkout.namesLeft renames config.allowDirtyPaths)

variable {config renames pathspec exempt}

theorem spares_commitOfAll_iff (named : Option Task) (worktree : Worktree) (revision : JsString) :
    (∀ entry ∈ ((worktree.commitOfAll renames revision).map (RunCommit.mk named ·)).toList,
      entry.Spares exempt) ↔ NoneUncommitted exempt worktree := by
  constructor
  · intro spares path exempted uncommitted
    obtain ⟨commit, made⟩ := Option.isSome_iff_exists.mp
      (@Worktree.commitOfAll_isSome renames _ revision path uncommitted)
    rw [made] at spares
    exact spares _ List.mem_cons_self path exempted
      ((Worktree.differs_commitOfAll made).mpr uncommitted)
  · intro none entry member path exempted differs
    rw [Option.mem_toList] at member
    obtain ⟨commit, made, rfl⟩ := Option.map_eq_some_iff.mp member
    exact none path exempted ((Worktree.differs_commitOfAll made).mp differs)

theorem noneAdded_iff {worktree : Worktree} {names : List JsString} :
    NoneAdded exempt pathspec worktree names ↔
      ∀ path, exempt path → worktree.stagedNames pathspec names path = worktree.head path := by
  refine forall₂_congr fun path _ => ?_
  rw [Worktree.stagedNames]
  split_ifs <;> rfl

theorem spares_commitOfLeft_iff (named : Option Task) (worktree : Worktree)
    (exclude : List JsString) (revision : JsString) :
    (∀ entry ∈ ((worktree.commitOfLeft renames pathspec exclude revision).map
        (RunCommit.mk named ·)).toList, entry.Spares exempt) ↔
      (worktree.addsNames renames pathspec exclude = true →
        NoneAdded exempt pathspec worktree (worktree.namesLeft renames exclude)) := by
  rw [noneAdded_iff]
  constructor
  · intro spares adds path exempted
    by_contra staged
    obtain ⟨commit, made⟩ := Option.isSome_iff_exists.mp
      (@Worktree.commitOfLeft_isSome renames pathspec _ exclude revision path adds staged)
    rw [made] at spares
    exact spares _ List.mem_cons_self path exempted
      ((Worktree.differs_commitOfLeft made).mpr staged)
  · intro none entry member path exempted differs
    rw [Option.mem_toList] at member
    obtain ⟨commit, made, rfl⟩ := Option.map_eq_some_iff.mp member
    exact (Worktree.differs_commitOfLeft made).mp differs
      (none (Worktree.addsNames_of_made made) path exempted)

theorem spares_resultCommits_iff (run : CommittingRun) (op : RunOp) :
    (∀ entry ∈ resultCommits config renames pathspec run op, entry.Spares exempt) ↔
      (∀ revision, op = .finish revision → config.allowDirtyPaths = [] →
        NoneUncommitted exempt run.checkout.toWorktree) ∧
      ∀ revision, op = .finish revision → config.allowDirtyPaths ≠ [] →
        run.checkout.addsNames renames pathspec config.allowDirtyPaths = true →
          NoneAdded exempt pathspec run.checkout.toWorktree
            (run.checkout.namesLeft renames config.allowDirtyPaths) := by
  cases op with
  | change _ => simp [resultCommits]
  | attempt _ _ _ _ => simp [resultCommits]
  | isolated _ _ _ _ _ _ => simp [resultCommits]
  | finish revision =>
      rw [resultCommits, resultCommit]
      by_cases none : config.allowDirtyPaths = []
      · rw [if_pos none, spares_commitOfAll_iff]
        exact ⟨fun holds => ⟨fun _ _ _ => holds, fun _ _ some => absurd none some⟩,
          fun holds => holds.1 revision rfl none⟩
      · rw [if_neg none, spares_commitOfLeft_iff]
        exact ⟨fun holds => ⟨fun _ _ empty => absurd empty none, fun _ _ _ => holds⟩,
          fun holds => holds.2 revision rfl none⟩

theorem leavesExempted_iff (run : CommittingRun) (op : RunOp) :
    ((∀ entry ∈ taskCommits config renames run op, entry.Spares exempt) ∧
      ∀ entry ∈ resultCommits config renames pathspec run op, entry.Spares exempt) ↔
      LeavesExempted config renames pathspec exempt run op := by
  have same : ∀ (task : Task) (checkout : Checkout) revision,
      (∀ entry ∈ ((checkout.commitOfAll renames revision).map (RunCommit.mk (some task) ·)).toList,
        entry.Spares exempt) ↔ NoneUncommitted exempt checkout.toWorktree :=
    fun task checkout revision => spares_commitOfAll_iff _ _ revision
  rw [forall_taskCommits_iff (Q := fun _ checkout => NoneUncommitted exempt checkout.toWorktree) same,
    spares_resultCommits_iff]
  exact ⟨fun holds => ⟨holds.1, holds.2.1, holds.2.2⟩,
    fun leaves => ⟨leaves.task, leaves.all, leaves.names⟩⟩

end Exemptions

/-- Along a history of a run no commit has a path that the preflight check exempted if and only
if the commits are made when these paths are left alone: no such path is uncommitted at the
commit of a task, and at the end of the run none is staged and none that is changed is selected by
the names that are left. -/
theorem exempted_paths_iff (config : CommitConfig) (renames : RenameDetection)
    (pathspec : Pathspec) (repository : Worktree) (checkout : Checkout) (ops : List RunOp) :
    (∀ entry ∈ (run (act config renames pathspec) ops (CommittingRun.start checkout)).commits,
        entry.Spares (Exempt renames repository config.allowDirtyPaths)) ↔
      EveryStep (act config renames pathspec)
        (LeavesExempted config renames pathspec
          (Exempt renames repository config.allowDirtyPaths)) ops
        (CommittingRun.start checkout) := by
  rw [forall_commits_iff]
  exact everyStep_congr leavesExempted_iff ops _

/-! ## The failing run -/

/-- The preflight check lets the run begin. -/
theorem docs_accepted :
    checkDirty noRenames (newFiles [js "docs/a.md"]).toWorktree [js "docs/**"] false
      (writersPlan (js "src/a.ts") (js "src/b.ts")) = .ok () := by
  decide +kernel

theorem docs_exempt :
    Exempt noRenames (newFiles [js "docs/a.md"]).toWorktree [js "docs/**"] (js "docs/a.md") := by
  refine ⟨js "docs/a.md", ?_, ?_⟩
  · decide +kernel
  · decide +kernel

theorem docs_commits :
    ((run (act ⟨false, [], [js "docs/**"]⟩ noRenames plainPathspec) [.finish (js "r1")]
        (CommittingRun.start (newFiles [js "docs/a.md"]))).commits.map fun entry =>
      decide (entry.commit.parent (js "docs/a.md") = entry.commit.tree (js "docs/a.md"))) =
      [false] := by
  decide +kernel

/-- A path that a pattern exempts is in the commit of the end of the run, made in place. -/
theorem not_exempted_paths :
    ¬ ∀ config renames pathspec checkout ops plan,
      checkDirty renames checkout.toWorktree config.allowDirtyPaths false plan = .ok () →
        ∀ entry ∈ (run (act config renames pathspec) ops (CommittingRun.start checkout)).commits,
          entry.Spares (Exempt renames checkout.toWorktree config.allowDirtyPaths) := by
  intro spares
  have member : false ∈
      (run (act ⟨false, [], [js "docs/**"]⟩ noRenames plainPathspec) [.finish (js "r1")]
        (CommittingRun.start (newFiles [js "docs/a.md"]))).commits.map fun entry =>
      decide (entry.commit.parent (js "docs/a.md") = entry.commit.tree (js "docs/a.md")) := by
    rw [docs_commits]
    exact List.mem_cons_self
  obtain ⟨entry, made, differs⟩ := List.mem_map.mp member
  exact spares ⟨false, [], [js "docs/**"]⟩ noRenames plainPathspec (newFiles [js "docs/a.md"])
    [.finish (js "r1")] _ docs_accepted entry made _ docs_exempt (of_decide_eq_false differs)

end SpecAsCode.Runtime.Committing
