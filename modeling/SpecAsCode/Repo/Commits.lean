import SpecAsCode.Repo.Content

/-!
# What a commit contains

`commitAll` stages everything, or the names that its exclusions leave.
-/

namespace SpecAsCode.Repo

open SpecAsCode.Js
open SpecAsCode.Core
open SpecAsCode.Executor
open SpecAsCode.Text

/-- A commit that was made, with the tree of its parent. -/
structure Commit where
  revision : JsString
  parent : Tree
  tree : Tree

/-- The path differs between the commit and its parent. -/
def Commit.Differs (commit : Commit) (path : JsString) : Prop :=
  commit.parent path ≠ commit.tree path

/-- How git reads the paths it is given: a name selects at least the path it is. -/
structure Pathspec where
  selects : JsString → JsString → Bool
  self : ∀ path, selects path path = true

namespace Worktree

variable (renames : RenameDetection) (worktree : Worktree)

/-! ## Uncommitted paths -/

/-- The version that `git add` takes: an ignored path is left alone if it is not in the index. -/
def addable (path : JsString) : Option (List Octet) :=
  if worktree.index path = none ∧ worktree.ignored path = true then none else worktree.tree path

/-- The path is not as it was committed, and not state of the runtime. -/
def Uncommitted (path : JsString) : Prop :=
  isSpcState path = false ∧ worktree.addable path ≠ worktree.head path

variable {renames worktree}

theorem uncommitted_iff {path : JsString} :
    worktree.Uncommitted path ↔ worktree.stagedAll path ≠ worktree.head path := by
  rw [Uncommitted, stagedAll, addable]
  cases isSpcState path with
  | false => simp
  | true => simp

theorem Uncommitted.listed {path : JsString} (uncommitted : worktree.Uncommitted path) :
    path ∈ worktree.paths := by
  by_contra outside
  obtain ⟨committed, -, actual⟩ := worktree.listed path outside
  refine uncommitted.2 ?_
  rw [addable, committed, actual, ite_self]

/-- A path that is renamed in the index has a line for its new name. -/
theorem trackedLine_of_renamed {old new : JsString}
    (pair : (old, new) ∈ renames.pairs worktree.head worktree.index) :
    (worktree.trackedLine renames new).isSome := by
  have kept : (renames.pairs worktree.head worktree.index).any
      (fun pair => pair.1 = new) = false := by
    rw [List.any_eq_false]
    intro other member same
    rw [decide_eq_true_iff] at same
    obtain ⟨committed, -, -, -⟩ := renames.sound _ _ other member
    obtain ⟨-, -, absent, -⟩ := renames.sound _ _ _ pair
    exact committed (same ▸ absent)
  have found : ((renames.pairs worktree.head worktree.index).find?
      fun pair => pair.2 = new).isSome := by
    rw [List.find?_isSome]
    exact ⟨_, pair, by simp⟩
  obtain ⟨other, here⟩ := Option.isSome_iff_exists.mp found
  rw [trackedLine]
  simp only [kept, here]
  rfl

/-- A path whose letters are both blank is as it was committed, unless it is only in the tree. -/
theorem addable_of_blank {path : JsString} (staged : worktree.stagedLetter path = unit ' ')
    (unstaged : worktree.unstagedLetter path = unit ' ')
    (tracked : worktree.isUntracked path = false) : worktree.addable path = worktree.head path := by
  rw [stagedLetter, changeLetter_eq_space] at staged
  rw [addable]
  cases index : worktree.index path with
  | none =>
      rw [staged, index]
      rw [isUntracked, index] at tracked
      cases ignored : worktree.ignored path with
      | true => rw [if_pos ⟨rfl, rfl⟩]
      | false =>
          rw [if_neg fun both => Bool.false_ne_true both.2]
          simpa [ignored] using tracked
  | some content =>
      rw [unstagedLetter, if_neg (by rw [index]; exact Option.some_ne_none content),
        changeLetter_eq_space] at unstaged
      rw [if_neg fun both => Option.some_ne_none content both.1, ← unstaged, staged]

/-- Where something is uncommitted, git lists something. -/
theorem statusLines_ne_nil {path : JsString} (uncommitted : worktree.Uncommitted path) :
    worktree.statusLines renames ≠ [] := by
  have listed : ∀ {other line}, other ∈ worktree.paths →
      worktree.trackedLine renames other = some line → worktree.statusLines renames ≠ [] :=
    fun member shown => List.ne_nil_of_mem
      (List.mem_append_left _ (List.mem_filterMap.mpr ⟨_, member, shown⟩))
  by_cases moved : ∃ pair ∈ renames.pairs worktree.head worktree.index, pair.1 = path
  · obtain ⟨⟨old, new⟩, pair, -⟩ := moved
    obtain ⟨line, shown⟩ := Option.isSome_iff_exists.mp (trackedLine_of_renamed pair)
    refine @listed new line ?_ shown
    by_contra outside
    obtain ⟨-, -, -, present⟩ := renames.sound _ _ _ pair
    exact present (worktree.listed new outside).2.1
  · have kept : ¬ (renames.pairs worktree.head worktree.index).any
        (fun pair => pair.1 = path) = true := by
      rw [List.any_eq_true]
      rintro ⟨pair, member, same⟩
      exact moved ⟨pair, member, by simpa using same⟩
    cases tracked : worktree.trackedLine renames path with
    | some line => exact listed uncommitted.listed tracked
    | none =>
        rw [trackedLine] at tracked
        simp only [if_neg kept] at tracked
        split at tracked
        · cases tracked
        · split at tracked
          · next blank =>
              cases untracked : worktree.isUntracked path with
              | true =>
                  have shown : worktree.untrackedLine path =
                      some (stripQuotes (statusField path), js "??") := if_pos untracked
                  exact List.ne_nil_of_mem (List.mem_append_right _
                    (List.mem_filterMap.mpr ⟨path, uncommitted.listed, shown⟩))
              | false =>
                  exact absurd (addable_of_blank blank.1 blank.2 untracked) uncommitted.2
          · cases tracked

theorem status_ne_nil {path : JsString} (uncommitted : worktree.Uncommitted path) :
    (worktree.statusPorcelain renames).entries ≠ [] := by
  obtain ⟨line, member⟩ := List.exists_mem_of_ne_nil _
    (@statusLines_ne_nil renames worktree path uncommitted)
  have key : line.1 ∈ (worktree.statusPorcelain renames).entries.map Prod.fst := by
    rw [statusPorcelain, OrderedMap.mem_keys_ofEntries]
    exact List.mem_map_of_mem member
  intro empty
  rw [empty] at key
  cases key

/-! ## Commits of everything -/

/-- The commit that `commitAll` makes, without exclusions. -/
def commitOfAll (renames : RenameDetection) (worktree : Worktree) (revision : JsString) :
    Option Commit :=
  (worktree.commitAll renames revision).2.map fun made =>
    ⟨made, worktree.head, (worktree.commitAll renames revision).1.head⟩

/-- The commit has exactly the uncommitted paths. -/
theorem differs_commitOfAll {revision : JsString} {commit : Commit}
    (made : worktree.commitOfAll renames revision = some commit) {path : JsString} :
    commit.Differs path ↔ worktree.Uncommitted path := by
  rw [commitOfAll, commitAll] at made
  rw [uncommitted_iff]
  split_ifs at made
  · cases made
  · cases made
  · obtain rfl := Option.some.inj made
    exact ne_comm

/-- A commit is made if anything is uncommitted. -/
theorem commitOfAll_isSome {revision path : JsString} (uncommitted : worktree.Uncommitted path) :
    (worktree.commitOfAll renames revision).isSome := by
  have staged : ¬ (worktree.paths.all fun path =>
      worktree.stagedAll path = worktree.head path) = true := by
    rw [List.all_eq_true]
    intro same
    exact uncommitted_iff.mp uncommitted (by simpa using same path uncommitted.listed)
  rw [commitOfAll, commitAll, if_neg (status_ne_nil uncommitted), if_neg staged]
  rfl

/-! ## Commits with exclusions -/

section Exclusions

variable (renames : RenameDetection) (pathspec : Pathspec) (worktree : Worktree)

/-- The names that are left to be staged. -/
def namesLeft (exclude : List JsString) : List JsString :=
  ((worktree.statusPorcelain renames).entries.map Prod.fst).filter fun name =>
    !exclude.contains name && !startsWith name (js ".spc/")

/-- `git add` refuses a name that selects nothing. -/
def selectsSome (name : JsString) : Bool :=
  worktree.paths.any fun path => pathspec.selects name path &&
    ((worktree.index path).isSome || (worktree.tree path).isSome && !worktree.ignored path)

/-- The index after `git add` with some names. -/
def stagedNames (names : List JsString) : Tree :=
  fun path =>
    if names.any (fun name => pathspec.selects name path) = true then worktree.addable path
    else worktree.index path

theorem listed_stagedNames (names : List JsString) :
    ∀ path, path ∉ worktree.paths → worktree.stagedNames pathspec names path = none ∧
      worktree.stagedNames pathspec names path = none ∧ worktree.tree path = none := by
  intro path outside
  obtain ⟨-, staged, actual⟩ := worktree.listed path outside
  have none : worktree.stagedNames pathspec names path = none := by
    rw [stagedNames, addable, staged, actual, ite_self, ite_self]
  exact ⟨none, none, actual⟩

theorem listed_stagedIndex (names : List JsString) :
    ∀ path, path ∉ worktree.paths → worktree.head path = none ∧
      worktree.stagedNames pathspec names path = none ∧ worktree.tree path = none :=
  fun path outside => ⟨(worktree.listed path outside).1,
    (worktree.listed_stagedNames pathspec names path outside).2⟩

/-- There is something to stage, and `git add` takes it. -/
def addsNames (exclude : List JsString) : Bool :=
  worktree.namesLeft renames exclude != [] &&
    (worktree.namesLeft renames exclude).all (worktree.selectsSome pathspec)

/-- `commitAll` with exclusions.  The whole index is committed, also what was staged before. -/
def commitLeft (exclude : List JsString) (revision : JsString) : Worktree × Option JsString :=
  let staged := worktree.stagedNames pathspec (worktree.namesLeft renames exclude)
  if worktree.addsNames renames pathspec exclude = false then
    (worktree, none)
  else if worktree.paths.all fun path => staged path = worktree.head path then
    ({ worktree with
        index := staged
        listed := worktree.listed_stagedIndex pathspec _ },
      none)
  else
    ({ worktree with
        revision
        head := staged
        index := staged
        listed := worktree.listed_stagedNames pathspec _ }, some revision)

/-- The commit that `commitAll` makes, with exclusions. -/
def commitOfLeft (exclude : List JsString) (revision : JsString) : Option Commit :=
  (worktree.commitLeft renames pathspec exclude revision).2.map fun made =>
    ⟨made, worktree.head, (worktree.commitLeft renames pathspec exclude revision).1.head⟩

variable {renames pathspec worktree}

theorem differs_commitOfLeft {exclude : List JsString} {revision : JsString} {commit : Commit}
    (made : worktree.commitOfLeft renames pathspec exclude revision = some commit)
    {path : JsString} :
    commit.Differs path ↔
      worktree.stagedNames pathspec (worktree.namesLeft renames exclude) path ≠
        worktree.head path := by
  rw [commitOfLeft, commitLeft] at made
  split_ifs at made
  · cases made
  · cases made
  · obtain rfl := Option.some.inj made
    exact ne_comm

theorem commitOfLeft_isSome {exclude : List JsString} {revision path : JsString}
    (adds : worktree.addsNames renames pathspec exclude = true)
    (staged : worktree.stagedNames pathspec (worktree.namesLeft renames exclude) path ≠
      worktree.head path) :
    (worktree.commitOfLeft renames pathspec exclude revision).isSome := by
  have some : ¬ (worktree.paths.all fun path =>
      worktree.stagedNames pathspec (worktree.namesLeft renames exclude) path =
        worktree.head path) = true := by
    rw [List.all_eq_true]
    intro same
    refine staged ?_
    by_cases listed : path ∈ worktree.paths
    · simpa using same path listed
    · rw [(worktree.listed_stagedNames pathspec _ path listed).1, (worktree.listed path listed).1]
  rw [commitOfLeft, commitLeft, if_neg (by rw [adds]; exact Bool.noConfusion), if_neg some]
  rfl

theorem addsNames_of_made {exclude : List JsString} {revision : JsString} {commit : Commit}
    (made : worktree.commitOfLeft renames pathspec exclude revision = some commit) :
    worktree.addsNames renames pathspec exclude = true := by
  by_contra refused
  rw [commitOfLeft, commitLeft, if_pos (Bool.eq_false_iff.mpr refused)] at made
  cases made

end Exclusions

end Worktree

end SpecAsCode.Repo
