import SpecAsCode.Cli.ScopedDiffVerify
import SpecAsCode.Verifier.CommandScope

/-!
# What a scoped diff leaves out

A criterion is skipped for a diff when its own test finds it untouched, or when another
criterion with its id is.  Its own test compares the path as it is spelled, and the files that
are tracked now.
-/

namespace SpecAsCode.Cli

open SpecAsCode.Js
open SpecAsCode.Schema
open SpecAsCode.Executor
open SpecAsCode.Verifier
open SpecAsCode.Repo

/-- The files of a revision.  A path that is not listed has none. -/
structure Revision where
  tree : Tree
  paths : List JsString
  listed : ∀ path, path ∉ paths → tree path = none

/-- `git diff --name-only -z --no-renames base HEAD`: a file that moved is gone from one path
and new at another. -/
def changedPaths (base : Revision) (workspace : Workspace) : List JsString :=
  (base.paths ++ workspace.paths).filter fun path => base.tree path ≠ workspace.head path

theorem mem_changedPaths {base : Revision} {workspace : Workspace} {path : JsString} :
    path ∈ changedPaths base workspace ↔ base.tree path ≠ workspace.head path := by
  rw [changedPaths, List.mem_filter, decide_eq_true_eq, and_iff_right_iff_imp]
  intro different
  by_contra unlisted
  rw [List.mem_append, not_or] at unlisted
  exact different ((base.listed path unlisted.1).trans (workspace.listed path unlisted.2).1.symm)

/-- What `runScopedDiffVerify` decides from.  A workspace that cannot be read ends it before it
skips anything. -/
def DiffScope.of (base : Revision) (workspace : Workspace) (suites : Option SuiteRegistry) :
    DiffScope where
  changed := changedPaths base workspace
  scopeFiles command :=
    (parseFilterScope command).bind fun scope =>
      (resolveScopeDirs workspace scope).map (trackedFiles workspace)
  suites := suites

/-- The file of the repository that a criterion asserts on, as git spells it. -/
def assertedFile (path : JsString) : JsString :=
  (js "/").intercalate (Path.resolveParts true path)

/-- The criteria of some specifications. -/
def criteriaOf (specs : List (List DesiredProperty)) : List AcceptanceCriterion :=
  specs.flatten.flatMap (·.acceptance)

variable (scope : DiffScope)

/-- The command that a criterion runs. -/
def DiffScope.commandOf : AcceptanceCriterion → Option JsString
  | .command _ command _ _ _ => some command
  | .suite _ ref _ => some ((scope.suites.bind (· ref)).elim [] (·.command))
  | .file .. => none
  | .agent .. => none
  | .human .. => none

/-! `reads` are the directories of the packages that `pnpm` selects for a command. -/

variable (reads : JsString → List JsString)

/-- A changed path in a package that a command reads. -/
def DiffScope.Touches (command path : JsString) : Prop :=
  path ∈ scope.changed ∧ ∃ directory ∈ reads command, (pathInside directory path).isSome = true

/-- The diff changes neither the file of a criterion nor the packages its command reads. -/
def DiffScope.Untouched (criterion : AcceptanceCriterion) : Prop :=
  (∀ id path assertion discriminating, criterion = .file id path assertion discriminating →
    assertedFile path ∉ scope.changed) ∧
  ∀ command, scope.commandOf criterion = some command → ∀ path, ¬ scope.Touches reads command path

/-- A criterion that is left out of its property. -/
def DiffScope.LeftOut (specs : List (List DesiredProperty)) (criterion : AcceptanceCriterion) :
    Prop :=
  ∃ property ∈ specs.flatten, criterion ∈ property.acceptance ∧
    criterion ∉ (withoutSkipped (scope.skipIds specs) property).acceptance

/-- Only untouched criteria are left out, each of them for what it is itself. -/
structure DiffScope.SkipsDisjoint (specs : List (List DesiredProperty)) : Prop where
  untouched : ∀ criterion, scope.LeftOut specs criterion → scope.Untouched reads criterion
  own : ∀ criterion ∈ criteriaOf specs,
    scope.LeftOut specs criterion ↔ scope.skips criterion = true

/-- The diff is seen by the test of every criterion. -/
structure DiffScope.SeesDiff (specs : List (List DesiredProperty)) : Prop where
  /-- A changed file is spelled as git spells it. -/
  spelled : ∀ id path assertion discriminating,
    .file id path assertion discriminating ∈ criteriaOf specs →
      assertedFile path ∈ scope.changed → path ∈ scope.changed
  /-- A changed path of a package that is not listed for the command comes with another one that
  is, or nothing is listed. -/
  listed : ∀ criterion ∈ criteriaOf specs, ∀ command files,
    scope.commandOf criterion = some command → command ≠ [] →
      scope.scopeFiles command = some files → ∀ path, scope.Touches reads command path →
        path ∉ files → files = [] ∨ ∃ file ∈ files, file ∈ scope.changed
  /-- Criteria with one id are decided alike. -/
  alike : ∀ criterion ∈ criteriaOf specs, ∀ other ∈ criteriaOf specs,
    criterion.id = other.id → scope.skips criterion = scope.skips other

variable {scope reads} {specs : List (List DesiredProperty)} {criterion : AcceptanceCriterion}

theorem DiffScope.leftOut_iff : scope.LeftOut specs criterion ↔
    criterion ∈ criteriaOf specs ∧
      ∃ other ∈ criteriaOf specs, other.id = criterion.id ∧ scope.skips other = true := by
  have skipped : (scope.skipIds specs).contains criterion.id = true ↔
      ∃ other ∈ criteriaOf specs, other.id = criterion.id ∧ scope.skips other = true := by
    rw [List.contains_iff_mem, DiffScope.skipIds, List.mem_map]
    simp only [List.mem_filter, criteriaOf]
    exact ⟨fun ⟨other, ⟨member, skips⟩, same⟩ => ⟨other, member, same, skips⟩,
      fun ⟨other, member, same, skips⟩ => ⟨other, ⟨member, skips⟩, same⟩⟩
  rw [← skipped]
  constructor
  · rintro ⟨property, member, accepted, missing⟩
    refine ⟨List.mem_flatMap.mpr ⟨property, member, accepted⟩, ?_⟩
    by_contra kept
    exact missing (List.mem_filter.mpr ⟨accepted, by simpa using kept⟩)
  · rintro ⟨member, dropped⟩
    obtain ⟨property, listed, accepted⟩ := List.mem_flatMap.mp member
    refine ⟨property, listed, accepted, fun kept => ?_⟩
    rw [withoutSkipped, List.mem_filter, dropped] at kept
    cases kept.2

/-- A command is skipped when files are listed for it and none of them changed. -/
theorem DiffScope.skipsCommand_iff {command : JsString} : scope.skipsCommand command = true ↔
    command ≠ [] ∧ ∃ files, scope.scopeFiles command = some files ∧ files ≠ [] ∧
      ∀ file ∈ files, file ∉ scope.changed := by
  rw [DiffScope.skipsCommand]
  by_cases empty : command = []
  · simp [empty]
  · cases scope.scopeFiles command with
    | none => simp [empty]
    | some files => simp [empty]

theorem DiffScope.skips_command {command : JsString}
    (runs : scope.commandOf criterion = some command) :
    scope.skips criterion = scope.skipsCommand command := by
  cases criterion with
  | command id text expected timeout discriminating => cases runs; rfl
  | suite id ref discriminating => cases runs; rfl
  | file id path assertion discriminating => cases runs
  | agent id instruction discriminating => cases runs
  | human id instruction discriminating => cases runs

/-- A criterion that is found untouched is untouched, where its test sees the diff. -/
theorem DiffScope.SeesDiff.untouched (sees : scope.SeesDiff reads specs)
    (member : criterion ∈ criteriaOf specs) (skips : scope.skips criterion = true) :
    scope.Untouched reads criterion := by
  constructor
  · rintro id path assertion discriminating rfl changed
    have spelled := sees.spelled id path assertion discriminating member changed
    rw [DiffScope.skips, Bool.not_eq_true', List.contains_eq_mem, decide_eq_false_iff_not] at skips
    exact skips spelled
  · intro command runs path touched
    rw [DiffScope.skips_command runs, DiffScope.skipsCommand_iff] at skips
    obtain ⟨nonempty, files, declared, some_files, unchanged⟩ := skips
    rcases sees.listed criterion member command files runs nonempty declared path touched
      (fun inside => unchanged path inside touched.1) with none | ⟨file, inside, changed⟩
    · exact some_files none
    · exact unchanged file inside changed

theorem DiffScope.skipsDisjoint_iff_seesDiff (scope : DiffScope) (reads : JsString → List JsString)
    (specs : List (List DesiredProperty)) :
    scope.SkipsDisjoint reads specs ↔ scope.SeesDiff reads specs := by
  constructor
  · intro disjoint
    have skipped : ∀ criterion ∈ criteriaOf specs, scope.skips criterion = true →
        scope.Untouched reads criterion := fun criterion member skips =>
      disjoint.untouched criterion ((disjoint.own criterion member).mpr skips)
    refine ⟨?_, ?_, ?_⟩
    · intro id path assertion discriminating member changed
      by_contra unchanged
      refine (skipped _ member ?_).1 id path assertion discriminating rfl changed
      rw [DiffScope.skips, Bool.not_eq_true', List.contains_eq_mem, decide_eq_false_iff_not]
      exact unchanged
    · intro criterion member command files runs nonempty declared path touched _
      by_contra unseen
      rw [not_or] at unseen
      have skips : scope.skips criterion = true := by
        rw [DiffScope.skips_command runs, DiffScope.skipsCommand_iff]
        exact ⟨nonempty, files, declared, unseen.1,
          fun file inside changed => unseen.2 ⟨file, inside, changed⟩⟩
      exact (skipped criterion member skips).2 command runs path touched
    · intro criterion member other otherMember same
      rw [Bool.eq_iff_iff, ← disjoint.own criterion member, ← disjoint.own other otherMember,
        DiffScope.leftOut_iff, DiffScope.leftOut_iff, same]
      simp only [member, otherMember, true_and]
  · intro sees
    have own : ∀ criterion ∈ criteriaOf specs,
        scope.LeftOut specs criterion ↔ scope.skips criterion = true := by
      intro criterion member
      rw [DiffScope.leftOut_iff]
      constructor
      · rintro ⟨_, other, otherMember, same, skips⟩
        rwa [← sees.alike other otherMember criterion member same]
      · exact fun skips => ⟨member, criterion, member, rfl, skips⟩
    refine ⟨fun criterion left => ?_, own⟩
    have member := (DiffScope.leftOut_iff.mp left).1
    exact sees.untouched member ((own criterion member).mp left)

/-- The test of every criterion sees the diff between a base revision and the workspace. -/
structure DiffSeen (base : Revision) (workspace : Workspace) (suites : Option SuiteRegistry)
    (reads : JsString → List JsString) (specs : List (List DesiredProperty)) : Prop where
  /-- A file criterion spells a changed file as git does. -/
  spelled : ∀ id path assertion discriminating,
    .file id path assertion discriminating ∈ criteriaOf specs →
      assertedFile path ∈ changedPaths base workspace → path ∈ changedPaths base workspace
  /-- A changed path in a package of a command is one of the tracked files of its scope, or
  another one of them changed, or there are none. -/
  listed : ∀ criterion ∈ criteriaOf specs, ∀ command declared directories,
    (DiffScope.of base workspace suites).commandOf criterion = some command →
      parseFilterScope command = some declared →
        resolveScopeDirs workspace declared = some directories →
          ∀ path, (DiffScope.of base workspace suites).Touches reads command path →
            path ∉ trackedFiles workspace directories →
              trackedFiles workspace directories = [] ∨
                ∃ file ∈ trackedFiles workspace directories, file ∈ changedPaths base workspace
  /-- Criteria with one id are found untouched together. -/
  alike : ∀ criterion ∈ criteriaOf specs, ∀ other ∈ criteriaOf specs,
    criterion.id = other.id →
      (DiffScope.of base workspace suites).skips criterion =
        (DiffScope.of base workspace suites).skips other

theorem diffSeen_iff {base : Revision} {workspace : Workspace} {suites : Option SuiteRegistry} :
    DiffSeen base workspace suites reads specs ↔
      (DiffScope.of base workspace suites).SeesDiff reads specs := by
  constructor
  · intro seen
    refine ⟨seen.spelled, ?_, seen.alike⟩
    intro criterion member command files runs _ declared path touched unlisted
    obtain ⟨parsed, parses, resolved⟩ := Option.bind_eq_some_iff.mp declared
    obtain ⟨directories, resolves, rfl⟩ := Option.map_eq_some_iff.mp resolved
    exact seen.listed criterion member command parsed directories runs parses resolves path touched
      unlisted
  · intro sees
    refine ⟨sees.spelled, ?_, sees.alike⟩
    intro criterion member command declared directories runs parses resolves path touched unlisted
    have nonempty : command ≠ [] := by
      rintro rfl
      cases parses
    refine sees.listed criterion member command _ runs nonempty ?_ path touched unlisted
    show (parseFilterScope command).bind _ = _
    rw [parses, Option.bind_some, resolves, Option.map_some]

/-- What a scoped diff leaves out is untouched by the diff, and is left out for what it is,
exactly if the test of every criterion sees the diff. -/
theorem skipsDisjoint_iff (base : Revision) (workspace : Workspace)
    (suites : Option SuiteRegistry) (reads : JsString → List JsString)
    (specs : List (List DesiredProperty)) :
    (DiffScope.of base workspace suites).SkipsDisjoint reads specs ↔
      DiffSeen base workspace suites reads specs := by
  rw [diffSeen_iff, DiffScope.skipsDisjoint_iff_seesDiff]

/-! Two specifications that use one criterion id, and a diff that changes the file of the
second one. -/

def guideFile : JsString :=
  js "docs/guide.md"

def readmeFile : JsString :=
  js "README.md"

def twoFiles (guide : List Text.Octet) : Tree := fun path =>
  if path = guideFile then some guide else if path = readmeFile then some [] else none

theorem listed_twoFiles (guide : List Text.Octet) {path : JsString}
    (outside : path ∉ [guideFile, readmeFile]) : twoFiles guide path = none := by
  simp only [List.mem_cons, List.not_mem_nil, or_false, not_or] at outside
  rw [twoFiles, if_neg outside.1, if_neg outside.2]

def beforeGuide : Revision :=
  ⟨twoFiles [], [guideFile, readmeFile], fun _ => listed_twoFiles []⟩

def afterGuide : Workspace where
  revision := js "f00d"
  head := twoFiles [10]
  index := twoFiles [10]
  tree := twoFiles [10]
  ignored _ := false
  paths := [guideFile, readmeFile]
  listed _ outside := ⟨listed_twoFiles [10] outside, listed_twoFiles [10] outside,
    listed_twoFiles [10] outside⟩
  gitAnswers := true
  named := by decide +kernel

/-- The criterion `FILE-1`, that a file exists. -/
def fileCriterion (path : JsString) : AcceptanceCriterion :=
  .file (js "FILE-1") path ⟨some true, none, none⟩ none

def fileProperty (path : JsString) : DesiredProperty where
  id := js "DOCS-1"
  statement := js "the file exists"
  priority := .must
  dependsOn := []
  acceptance := [fileCriterion path]

def fileSpecs : List (List DesiredProperty) :=
  [[fileProperty readmeFile], [fileProperty guideFile]]

theorem not_skipsDisjoint :
    ¬ ∀ base workspace suites reads specs,
      (DiffScope.of base workspace suites).SkipsDisjoint reads specs := by
  intro claimed
  have disjoint := claimed beforeGuide afterGuide none (fun _ => []) fileSpecs
  have left : (DiffScope.of beforeGuide afterGuide none).LeftOut fileSpecs (fileCriterion guideFile) :=
    DiffScope.leftOut_iff.mpr
      ⟨by decide, fileCriterion readmeFile, by decide, rfl, by decide +kernel⟩
  have changed : assertedFile guideFile ∈ (DiffScope.of beforeGuide afterGuide none).changed := by
    decide +kernel
  exact (disjoint.untouched _ left).1 _ _ _ _ rfl changed

end SpecAsCode.Cli
