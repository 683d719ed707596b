import SpecAsCode.Repo.Worktree

/-!
# Content snapshots and commits

A snapshot has the content of every path that is not as it was committed, by the name git
prints, and a delta compares two snapshots.
-/

namespace SpecAsCode.Repo

open SpecAsCode.Js
open SpecAsCode.Core
open SpecAsCode.Executor
open SpecAsCode.Text

/-! ## Snapshots -/

/-- The identity of a content in a snapshot.  A content stands for its hash. -/
inductive ContentIdentity where
  | deleted
  /-- The blob that git has for a staged content. -/
  | blob (content : List Octet)
  /-- The hash of the file that has the name. -/
  | hashed (content : List Octet)
  | unknown
  | unreadable
  deriving DecidableEq

abbrev ContentSnapshot := OrderedMap JsString ContentIdentity

/-- A worktree, and the files in it that may be read. -/
structure Checkout extends Worktree where
  readable : JsString → Bool

namespace Checkout

variable (renames : RenameDetection) (checkout : Checkout)

/-- The version of a path that is compared with the committed one: only paths of the index are
looked at. -/
def compared : Tree :=
  fun path => if checkout.index path = none then none else checkout.tree path

/-- The path is changed for `git diff HEAD`.  A file that git cannot read counts as changed. -/
def Changed (path : JsString) : Prop :=
  checkout.head path ≠ checkout.compared path ∨
    checkout.compared path ≠ none ∧ checkout.readable path = false

instance changed_decidable (path : JsString) : Decidable (checkout.Changed path) :=
  inferInstanceAs (Decidable (_ ∨ _))

/-- The file was moved away, for git. -/
def MovedAway (path : JsString) : Prop :=
  ∃ pair ∈ renames.pairs checkout.head checkout.compared, pair.1 = path

instance movedAway_decidable (path : JsString) : Decidable (checkout.MovedAway renames path) :=
  inferInstanceAs (Decidable (∃ pair ∈ _, _))

/-- The identity of a file that `git diff --raw HEAD` shows as changed: git has no blob for a
content that is not the staged one. -/
def rawIdentity (path : JsString) : ContentIdentity :=
  match checkout.compared path with
  | none => .deleted
  | some content =>
      if checkout.readable path = false then .unknown
      else if checkout.index path = some content then .blob content
      else .hashed content

/-- The entry for a line of `git diff --raw HEAD`: only the destination of a rename is kept,
and a name in quotes is skipped. -/
def rawEntry (path : JsString) : Option (JsString × ContentIdentity) :=
  if checkout.Changed path ∧ ¬ checkout.MovedAway renames path ∧ printedName path = path then
    some (path, checkout.rawIdentity path)
  else
    none

/-- The identity of the file that has a name. -/
def fileIdentity (name : JsString) : ContentIdentity :=
  match checkout.tree name with
  | some content => if checkout.readable name then .hashed content else .unreadable
  | none => .unreadable

/-- The entry for a path that is not tracked: the file with the printed name is read. -/
def untrackedEntry (path : JsString) : Option (JsString × ContentIdentity) :=
  if checkout.isUntracked path then
    let name := stripQuotes (statusField path)
    some (name, checkout.fileIdentity name)
  else
    none

def contentSnapshot : ContentSnapshot :=
  OrderedMap.ofEntries (checkout.paths.filterMap (checkout.rawEntry renames) ++
    checkout.paths.filterMap checkout.untrackedEntry)

end Checkout

/-! ## Deltas -/

inductive ContentChange where
  | created
  | modified
  | deleted
  deriving DecidableEq, Repr

/-- The change of a name that the later snapshot has. -/
def laterChange (before : ContentSnapshot) (tracked : JsString → Bool)
    (entry : JsString × ContentIdentity) : Option (JsString × ContentChange) :=
  let prior := before.get? entry.1
  if prior = some entry.2 then
    none
  else if entry.2 = .deleted then
    some (entry.1, .deleted)
  else if prior = none then
    some (entry.1, if tracked entry.1 then .modified else .created)
  else
    some (entry.1, .modified)

/-- `contentDelta`: the names whose identity differs, and how. -/
def contentDelta (before after : ContentSnapshot) (tracked : JsString → Bool) :
    OrderedMap JsString ContentChange :=
  OrderedMap.ofEntries (after.entries.filterMap (laterChange before tracked) ++
    (before.entries.filter fun entry => (after.get? entry.1).isNone).map
      fun entry => (entry.1, .deleted))

/-- `git ls-files --error-unmatch`. -/
def Worktree.isTracked (worktree : Worktree) (name : JsString) : Bool :=
  (worktree.index name).isSome

/-- The runtime's own bookkeeping. -/
def SPC_STATE_PREFIXES : List JsString :=
  [js ".spc/runs/", js ".spc/plans/", js ".spc/worktrees/", js ".spc/cache/", js ".spc/harness/"]

/-- The changes between a snapshot and a checkout, without the runtime's own. -/
def changesSince (renames : RenameDetection) (before : ContentSnapshot) (checkout : Checkout) :
    List (JsString × ContentChange) :=
  (contentDelta before (checkout.contentSnapshot renames) checkout.isTracked).entries.filter
    fun entry => !SPC_STATE_PREFIXES.any fun folder => startsWith entry.1 folder

/-! ## Commits -/

def SPC_STATE_PATHS : List JsString :=
  [js ".spc/runs", js ".spc/plans", js ".spc/worktrees", js ".spc/cache", js ".spc/harness",
    js ".spc/apply.lease", js ".spc/patch-log.jsonl", js ".spc/apply.lock",
    js ".spc/execution-intent.json", js ".spc/execution-intent.lock"]

/-- The path is one of the state paths, or in one. -/
def isSpcState (path : JsString) : Bool :=
  SPC_STATE_PATHS.any fun state => path == state || startsWith path (state ++ js "/")

namespace Worktree

/-- The index after `git add -A` and the reset of the state paths. -/
def stagedAll (worktree : Worktree) : Tree :=
  fun path =>
    if isSpcState path = true then worktree.head path
    else if worktree.index path = none ∧ worktree.ignored path = true then none
    else worktree.tree path

theorem listed_stagedAll (worktree : Worktree) :
    ∀ path, path ∉ worktree.paths → worktree.stagedAll path = none ∧
      worktree.stagedAll path = none ∧ worktree.tree path = none := by
  intro path outside
  obtain ⟨committed, -, actual⟩ := worktree.listed path outside
  have none : worktree.stagedAll path = none := by simp [stagedAll, committed, actual]
  exact ⟨none, none, actual⟩

theorem listed_staged (worktree : Worktree) :
    ∀ path, path ∉ worktree.paths → worktree.head path = none ∧
      worktree.stagedAll path = none ∧ worktree.tree path = none := by
  intro path outside
  exact ⟨(worktree.listed path outside).1, worktree.listed_stagedAll path outside |>.2⟩

/-- `commitAll`, without exclusions: the worktree, and the revision if there is a commit. -/
def commitAll (renames : RenameDetection) (worktree : Worktree) (revision : JsString) :
    Worktree × Option JsString :=
  if (worktree.statusPorcelain renames).entries = [] then
    (worktree, none)
  else if worktree.paths.all fun path => worktree.stagedAll path = worktree.head path then
    ({ worktree with index := worktree.stagedAll, listed := worktree.listed_staged }, none)
  else
    ({ worktree with
        revision
        head := worktree.stagedAll
        index := worktree.stagedAll
        listed := worktree.listed_stagedAll }, some revision)

end Worktree

end SpecAsCode.Repo
