import SpecAsCode.Repo.Commits
import SpecAsCode.Runtime.ResolveFollowup
import SpecAsCode.Verifier.CommandCache

/-!
# Tracked drift

A clean working tree has the content of its commit, and two commits have one content if git
prints no name of a file between them.  A name of nothing but spaces is printed as it is.
-/

namespace SpecAsCode.Runtime

open SpecAsCode.Js
open SpecAsCode.Executor (Tree)
open SpecAsCode.Repo
open SpecAsCode.Verifier (IsPrintable lsFilesName lsFilesName_printable)

/-! ## A repository with a checkout -/

/-- A commit, with its files and the commits that lead to it. -/
structure CommitObject where
  tree : Tree
  paths : List JsString
  listed : ∀ path, path ∉ paths → tree path = none
  ancestors : List JsString

/-- The staged and the actual files of a checkout. -/
structure WorkingFiles where
  index : Tree
  tree : Tree
  ignored : JsString → Bool
  paths : List JsString
  listed : ∀ path, path ∉ paths → index path = none ∧ tree path = none

structure Repository where
  commits : JsString → Option CommitObject
  revision : JsString
  head : CommitObject
  stored : commits revision = some head
  working : WorkingFiles

def Repository.worktree (repository : Repository) : Worktree where
  revision := repository.revision
  head := repository.head.tree
  index := repository.working.index
  tree := repository.working.tree
  ignored := repository.working.ignored
  paths := repository.head.paths ++ repository.working.paths
  listed path outside := by
    rw [List.mem_append, not_or] at outside
    exact ⟨repository.head.listed path outside.1, repository.working.listed path outside.2⟩

/-- `statusPorcelain(repoRoot).dirty`. -/
def Repository.dirty (renames : RenameDetection) (repository : Repository) : Bool :=
  (repository.worktree.statusPorcelain renames).entries ≠ []

/-- The actual content of the tracked files. -/
def trackedContent (files : WorkingFiles) : Tree := fun path =>
  if files.index path = none then none else files.tree path

/-- `git diff --name-only old..new`. -/
def diffNames (renames : RenameDetection) (old new : CommitObject) : JsString :=
  ((old.paths ++ new.paths).dedup.filter fun path =>
      old.tree path ≠ new.tree path ∧
        ¬ (renames.pairs old.tree new.tree).any fun pair => pair.1 = path).flatMap
    fun path => lsFilesName path ++ js "\n"

/-! ## A clean working tree -/

section Clean

variable {renames : RenameDetection} {worktree : Worktree}

theorem statusLines_eq_nil (clean : (worktree.statusPorcelain renames).entries = []) :
    worktree.statusLines renames = [] := by
  by_contra some_lines
  obtain ⟨line, member⟩ := List.exists_mem_of_ne_nil _ some_lines
  have key : line.1 ∈ (worktree.statusPorcelain renames).entries.map Prod.fst := by
    rw [Worktree.statusPorcelain, OrderedMap.mem_keys_ofEntries]
    exact List.mem_map_of_mem member
  rw [clean] at key
  cases key

/-- A path without a line is staged as it is committed, and is what is staged. -/
theorem letters_of_clean (clean : (worktree.statusPorcelain renames).entries = [])
    {path : JsString} (listed : path ∈ worktree.paths) :
    worktree.stagedLetter path = unit ' ' ∧ worktree.unstagedLetter path = unit ' ' := by
  have silent : ∀ other ∈ worktree.paths, worktree.trackedLine renames other = none := by
    have lines := statusLines_eq_nil clean
    rw [Worktree.statusLines, List.append_eq_nil_iff, List.filterMap_eq_nil_iff] at lines
    exact lines.1
  have unpaired : renames.pairs worktree.head worktree.index = [] := by
    rw [List.eq_nil_iff_forall_not_mem]
    rintro ⟨old, new⟩ pair
    obtain ⟨-, -, -, present⟩ := renames.sound _ _ _ pair
    have member : new ∈ worktree.paths := by
      by_contra outside
      exact present (worktree.listed new outside).2.1
    have shown := Worktree.trackedLine_of_renamed pair
    rw [silent new member] at shown
    cases shown
  have line := silent path listed
  rw [Worktree.trackedLine, unpaired] at line
  by_contra letters
  simp [letters] at line

theorem index_of_clean (clean : (worktree.statusPorcelain renames).entries = [])
    (path : JsString) : worktree.head path = worktree.index path ∧
      (worktree.index path ≠ none → worktree.tree path = worktree.index path) := by
  by_cases listed : path ∈ worktree.paths
  · obtain ⟨staged, unstaged⟩ := letters_of_clean clean listed
    rw [Worktree.stagedLetter, changeLetter_eq_space] at staged
    refine ⟨staged, fun tracked => ?_⟩
    rw [Worktree.unstagedLetter, if_neg tracked, changeLetter_eq_space] at unstaged
    exact unstaged.symm
  · obtain ⟨committed, staged, -⟩ := worktree.listed path listed
    exact ⟨committed.trans staged.symm, fun tracked => absurd staged tracked⟩

end Clean

theorem Repository.trackedContent_of_clean {renames : RenameDetection} {repository : Repository}
    (clean : repository.dirty renames = false) :
    trackedContent repository.working = repository.head.tree := by
  rw [Repository.dirty, decide_eq_false_iff_not, not_not] at clean
  funext path
  obtain ⟨staged, actual⟩ := index_of_clean clean path
  rw [trackedContent]
  split
  · next untracked => exact (staged.trans untracked).symm
  · next tracked => exact (actual tracked).trans staged.symm

/-! ## Names between two commits -/

/-- A name of nothing but spaces. -/
def IsBlank (path : JsString) : Prop :=
  ∀ code ∈ path, isSpace code = true

/-- No file of a commit has a blank name. -/
def CommitObject.Named (object : CommitObject) : Prop :=
  ∀ path, IsBlank path → object.tree path = none

theorem isBlank_of_trim {text : JsString} (empty : trim text = []) : IsBlank text := by
  rw [trim, List.reverse_eq_nil_iff, List.dropWhile_eq_nil_iff] at empty
  have rest : text.dropWhile isSpace = [] := by
    cases shape : text.dropWhile isSpace with
    | nil => rfl
    | cons code rest =>
        have first : isSpace code = false := by
          have stops := List.head?_dropWhile_not isSpace text
          rw [shape] at stops
          simpa using stops
        rw [empty code (by rw [shape]; exact List.mem_reverse.mpr List.mem_cons_self)] at first
        cases first
  exact List.dropWhile_eq_nil_iff.mp rest

/-- A name that is printed as spaces is spaces. -/
theorem isBlank_of_lsFilesName {path : JsString} (blank : IsBlank (lsFilesName path)) :
    IsBlank path := by
  rw [lsFilesName] at blank
  split at blank
  · exact blank
  · exact absurd (blank _ List.mem_cons_self) (by decide)

/-- Where git prints no name, nothing differs, or what differs has a blank name. -/
theorem tree_eq_of_diffNames {renames : RenameDetection} {old new : CommitObject}
    (oldNamed : old.Named) (newNamed : new.Named)
    (empty : trim (diffNames renames old new) = []) : old.tree = new.tree := by
  have silent : ∀ path, old.tree path ≠ new.tree path →
      ¬ (renames.pairs old.tree new.tree).any (fun pair => pair.1 = path) → False := by
    intro path changed kept
    have listed : path ∈ old.paths ++ new.paths := by
      rw [List.mem_append]
      by_contra outside
      rw [not_or] at outside
      exact changed ((old.listed path outside.1).trans (new.listed path outside.2).symm)
    have blank : IsBlank (lsFilesName path) := fun code member =>
      isBlank_of_trim empty code (List.mem_flatMap.mpr ⟨path, List.mem_filter.mpr
        ⟨List.mem_dedup.mpr listed, decide_eq_true ⟨changed, kept⟩⟩, List.mem_append_left _ member⟩)
    have named := isBlank_of_lsFilesName blank
    exact changed ((oldNamed path named).trans (newNamed path named).symm)
  funext path
  by_contra changed
  refine silent path changed fun away => ?_
  -- what is renamed is printed under its new name
  obtain ⟨pair, member, same⟩ := List.any_eq_true.mp away
  obtain ⟨-, -, absent, present⟩ := renames.sound _ _ pair member
  refine silent pair.2 (by rw [absent]; exact present.symm) fun again => ?_
  obtain ⟨other, otherMember, otherSame⟩ := List.any_eq_true.mp again
  obtain ⟨committed, -, -, -⟩ := renames.sound _ _ other otherMember
  rw [of_decide_eq_true otherSame] at committed
  exact committed absent

end SpecAsCode.Runtime
