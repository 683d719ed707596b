import SpecAsCode.Executor.PatchStaging
import SpecAsCode.Verifier.CommandCache

/-!
# Results that are used again

The digests of a result are taken from the root of the cache, also for a command that was
executed in another worktree.
-/

namespace SpecAsCode.Verifier

open SpecAsCode.Js
open SpecAsCode.Executor (Tree oneLetterHash oneLetterHash_injective)
open SpecAsCode.Repo
open SpecAsCode.Text

/-! ## Histories of a cache -/

/-- A run of a command in some tree, with the root of the cache at its end. -/
structure SweepRun where
  root : Workspace
  executed : Workspace
  command : JsString
  expected : Int
  executionId : JsString
  run : CommandRunResult

/-- What `verifyCommand` hands to the cache. -/
def SweepRun.result (sweepRun : SweepRun) : CachedRunResult where
  executionId := sweepRun.executionId
  exitCode := sweepRun.run.exitCode
  stdout := sweepRun.run.stdout
  stderr := sweepRun.run.stderr
  timedOut := sweepRun.run.timedOut

/-- Only clean, matching executions are cached. -/
def SweepRun.isKept (sweepRun : SweepRun) : Bool :=
  decide (sweepRun.run.exitCode = some (JsNumber.ofInt sweepRun.expected)) &&
    sweepRun.run.deniedReason.isNone && !sweepRun.run.timedOut

/-- The runs of some sweeps, each with an id of its own. -/
structure CacheHistory where
  runs : List SweepRun
  distinct : (runs.map SweepRun.executionId).Nodup

section Cache

variable (sha256Hex : List Octet → JsString)

/-- The cache after a run; a run that cannot be recorded leaves it as it is. -/
def CommandCache.afterRun (cache : CommandCache) (sweepRun : SweepRun) : CommandCache :=
  if sweepRun.isKept then
    (cache.record sha256Hex sweepRun.root sweepRun.command sweepRun.result).getD cache
  else
    cache

def CacheHistory.cache (history : CacheHistory) : CommandCache :=
  history.runs.foldl (CommandCache.afterRun sha256Hex) .empty

/-! `selects` are the directories of the packages that `pnpm` selects for a command in a tree. -/

variable (selects : Workspace → JsString → List JsString)

/-- A result that a sweep uses again comes from a tree with the same packages. -/
def ReuseSound (history : CacheHistory) (root executing : Workspace) (command : JsString) : Prop :=
  ∀ sweepRun ∈ history.runs, sweepRun.command = command →
    (history.cache sha256Hex).reusable sha256Hex root command = some sweepRun.result →
      ∀ directory, directory ∈ selects sweepRun.executed command ∨
          directory ∈ selects executing command →
        SamePackage sweepRun.executed executing directory

/-- The digests cover the packages of a command, as a run left them and as they are. -/
def ReuseCovered (sweepRun : SweepRun) (root executing : Workspace) (command : JsString) : Prop :=
  ∀ scope directories others directory, parseFilterScope command = some scope →
    resolveScopeDirs sweepRun.root scope = some directories →
      resolveScopeDirs root scope = some others →
        (directory ∈ selects sweepRun.executed command ∨ directory ∈ selects executing command) →
          directories = others ∧
            DigestCovers sweepRun.root sweepRun.executed directories directory ∧
            DigestCovers root executing directories directory ∧
            DigestsCompare sweepRun.root root directories

end Cache

variable {sha256Hex : List Octet → JsString} {cache : CommandCache} {command : JsString}
  {entry : CacheEntry}

/-- The entry that a run leaves. -/
def SweepRun.Leaves (sha256Hex : List Octet → JsString) (sweepRun : SweepRun)
    (entry : CacheEntry) : Prop :=
  ∃ scope, parseFilterScope sweepRun.command = some scope ∧
    cacheEntry sha256Hex sweepRun.root scope sweepRun.result = some entry

theorem CommandCache.get?_afterRun {sweepRun : SweepRun}
    (found : (cache.afterRun sha256Hex sweepRun).get? command = some entry) :
    cache.get? command = some entry ∨
      (sweepRun.command = command ∧ sweepRun.Leaves sha256Hex entry) := by
  rw [CommandCache.afterRun] at found
  split at found
  · rw [CommandCache.record] at found
    cases parsed : parseFilterScope sweepRun.command with
    | none =>
        rw [parsed] at found
        exact Or.inl found
    | some scope =>
        cases made : cacheEntry sha256Hex sweepRun.root scope sweepRun.result with
        | none =>
            simp only [parsed, made, Option.map_none, Option.getD_none] at found
            exact Or.inl found
        | some written =>
            simp only [parsed, made, Option.map_some, Option.getD_some] at found
            by_cases same : command = sweepRun.command
            · subst same
              rw [OrderedMap.get?_set_self, Option.some.injEq] at found
              exact Or.inr ⟨rfl, scope, parsed, found ▸ made⟩
            · rw [OrderedMap.get?_set_ne _ same] at found
              exact Or.inl found
  · exact Or.inl found

/-- Every entry was left by a run of its command. -/
theorem CommandCache.get?_foldl_afterRun {runs : List SweepRun}
    (found : (runs.foldl (CommandCache.afterRun sha256Hex) .empty).get? command = some entry) :
    ∃ sweepRun ∈ runs, sweepRun.command = command ∧ sweepRun.Leaves sha256Hex entry := by
  induction runs using List.reverseRecOn with
  | nil => cases found
  | append_singleton runs sweepRun inductionHypothesis =>
      rw [List.foldl_append] at found
      rcases get?_afterRun found with earlier | ⟨same, leaves⟩
      · obtain ⟨other, member, rest⟩ := inductionHypothesis earlier
        exact ⟨other, List.mem_append_left _ member, rest⟩
      · exact ⟨sweepRun, List.mem_append_right _ List.mem_cons_self, same, leaves⟩

theorem CommandCache.reusable_eq_some {root : Workspace} {result : CachedRunResult}
    (reused : cache.reusable sha256Hex root command = some result) :
    ∃ entry scope directories, cache.get? command = some entry ∧ entry.result = result ∧
      parseFilterScope command = some scope ∧ resolveScopeDirs root scope = some directories ∧
      sourceDigest sha256Hex root directories = some entry.sourceDigest ∧
      distDigest sha256Hex root directories = some entry.distDigest := by
  obtain ⟨entry, found, reused⟩ := Option.bind_eq_some_iff.mp reused
  obtain ⟨scope, parsed, reused⟩ := Option.bind_eq_some_iff.mp reused
  split at reused
  · cases reused
  · obtain ⟨directories, resolved, reused⟩ := Option.bind_eq_some_iff.mp reused
    split at reused
    · next digests =>
        exact ⟨entry, scope, directories, found, Option.some.inj reused, parsed, resolved,
          digests⟩
    · cases reused

theorem cacheEntry_eq_some {root : Workspace} {scope : CacheScope} {result : CachedRunResult}
    (made : cacheEntry sha256Hex root scope result = some entry) :
    entry.result = result ∧ ∃ directories, resolveScopeDirs root scope = some directories ∧
      sourceDigest sha256Hex root directories = some entry.sourceDigest ∧
      distDigest sha256Hex root directories = some entry.distDigest := by
  obtain ⟨directories, resolved, made⟩ := Option.bind_eq_some_iff.mp made
  obtain ⟨source, sourceFound, made⟩ := Option.bind_eq_some_iff.mp made
  obtain ⟨dist, distFound, rfl⟩ := Option.map_eq_some_iff.mp made
  exact ⟨rfl, directories, resolved, sourceFound, distFound⟩

/-- A result is used again where its digests are found again. -/
theorem CommandCache.reusable_afterRun {sweepRun : SweepRun} {root : Workspace}
    {scope : CacheScope} {directories others : List JsString} {source dist : JsString}
    (kept : sweepRun.isKept = true) (parsed : parseFilterScope sweepRun.command = some scope)
    (recordedResolved : resolveScopeDirs sweepRun.root scope = some directories)
    (recordedSource : sourceDigest sha256Hex sweepRun.root directories = some source)
    (recordedDist : distDigest sha256Hex sweepRun.root directories = some dist)
    (currentResolved : resolveScopeDirs root scope = some others)
    (currentSource : sourceDigest sha256Hex root others = some source)
    (currentDist : distDigest sha256Hex root others = some dist) :
    (cache.afterRun sha256Hex sweepRun).reusable sha256Hex root sweepRun.command =
      some sweepRun.result := by
  have made : cacheEntry sha256Hex sweepRun.root scope sweepRun.result =
      some ⟨scope.key, source, dist, sweepRun.result⟩ := by
    rw [cacheEntry, recordedResolved, Option.bind_some, recordedSource, Option.bind_some,
      recordedDist, Option.map_some]
  have written : (cache.afterRun sha256Hex sweepRun).get? sweepRun.command =
      some ⟨scope.key, source, dist, sweepRun.result⟩ := by
    rw [CommandCache.afterRun, if_pos kept, CommandCache.record]
    simp only [parsed, made, Option.map_some, Option.getD_some]
    exact OrderedMap.get?_set_self _ _ _
  rw [CommandCache.reusable, written, Option.bind_some, parsed, Option.bind_some, if_neg (by simp),
    currentResolved, Option.bind_some, if_pos ⟨currentSource, currentDist⟩]

theorem resolveScopeDirs_one {workspace : Workspace} {name directory : JsString}
    (known : workspace.packageDirs.map (·.get? name) = some (some directory)) :
    resolveScopeDirs workspace ⟨some [name], false⟩ = some [directory] := by
  obtain ⟨byName, listed, found⟩ := Option.map_eq_some_iff.mp known
  have closed : closeOver workspace byName false [] [name] [] = some [directory] := by
    rw [closeOver, if_neg List.not_mem_nil]
    split
    · next unknown =>
        rw [found] at unknown
        cases unknown
    · next other same =>
        rw [found, Option.some.injEq] at same
        rw [if_neg Bool.false_ne_true, closeOver, same, List.nil_append]
  rw [resolveScopeDirs, listed, Option.bind_some]
  simp only [closed, Option.map_some]
  rfl

/-! ## Two workspaces -/

def manifest (name : JsString) : List Octet :=
  encodeUtf8 (JsValue.object [(js "name", .string name)]).stringify

/-- Some files with their contents. -/
def treeOf (files : List (JsString × List Octet)) : Tree := fun path =>
  (files.find? fun file => file.1 == path).map Prod.snd

theorem treeOf_eq_none {files : List (JsString × List Octet)} {path : JsString}
    (outside : path ∉ files.map Prod.fst) : treeOf files path = none := by
  rw [treeOf, List.find?_eq_none.mpr, Option.map_none]
  intro file member same
  exact outside (List.mem_map.mpr ⟨file, member, eq_of_beq same⟩)

/-- A workspace with all its files committed. -/
def committed (files : List (JsString × List Octet))
    (named : ∀ path ∈ files.map Prod.fst, isWellFormedText path = true ∧ (0 : CodeUnit) ∉ path) :
    Workspace where
  revision := js "f00d"
  head := treeOf files
  index := treeOf files
  tree := treeOf files
  ignored _ := false
  paths := files.map Prod.fst
  listed _ outside := ⟨treeOf_eq_none outside, treeOf_eq_none outside, treeOf_eq_none outside⟩
  gitAnswers := true
  named := named

/-- A clean run of a command. -/
def cleanRun (root executed : Workspace) (command : JsString) : SweepRun where
  root := root
  executed := executed
  command := command
  expected := 0
  executionId := js "e-1"
  run :=
    { command := command
      cwd := []
      exitCode := some (JsNumber.ofInt 0)
      stdout := []
      stderr := []
      stdoutDigest := []
      stderrDigest := []
      durationMs := none
      timedOut := false
      signal := none
      allowed := true
      deniedReason := none }

def oneRun (root executed : Workspace) (command : JsString) : CacheHistory :=
  ⟨[cleanRun root executed command], List.nodup_singleton _⟩

/-- A workspace with one package in it, and a file outside of the package. -/
def coreWorkspace (readme : Octet) : Workspace :=
  committed [(js "pnpm-workspace.yaml", encodeUtf8 (js "packages:\n  - packages/core\n")),
      (js "packages/core/package.json", manifest (js "core")),
      (js "packages/core/src/index.ts", [10]), (js "packages/core/dist/index.js", [20]),
      (js "README.md", [readme])]
    (by simp only [List.map_cons, List.map_nil]; decide +kernel)

def coreDirectory : JsString :=
  js "packages/core"

def coreCommand : JsString :=
  js "pnpm --filter core test"

theorem digestCovers_core {readme : Octet} (either : readme ∈ [(65 : Octet), 66]) :
    DigestCovers (coreWorkspace readme) (coreWorkspace readme) [coreDirectory] coreDirectory where
  resolved := List.mem_cons_self
  nonroot := by decide
  answers := rfl
  listed := by
    have shown : ∀ readme ∈ [(65 : Octet), 66], ∀ path ∈ (coreWorkspace readme).tracked,
        (pathInside coreDirectory path).isSome = true →
          printedName path = path ∧ isExcluded path = false ∨
            (coreWorkspace readme).sources coreDirectory path = none := by
      decide +kernel
    intro path present
    obtain ⟨content, source⟩ := Option.ne_none_iff_exists'.mp present
    obtain ⟨tracked, ⟨rest, inside, -⟩, -⟩ := Workspace.sources_eq_some.mp source
    rcases shown readme either path tracked (inside ▸ Option.isSome_some) with printed | missing
    · exact printed
    · exact absurd missing present
  executed := ⟨rfl, rfl⟩

/-- A repository that is one package. -/
def appWorkspace (index : Octet) : Workspace :=
  committed [(js "package.json", manifest (js "app")), (js "index.ts", [index])]
    (by simp only [List.map_cons, List.map_nil]; decide +kernel)

def appCommand : JsString :=
  js "pnpm --filter app test"

end SpecAsCode.Verifier
