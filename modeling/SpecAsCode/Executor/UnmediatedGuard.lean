import SpecAsCode.Core.Glob
import SpecAsCode.Executor.Patch

/-!
# The submission guard

An answer is refused while the tree holds changes under the write targets of its task that
no record of the task accounts for, or commits that were made behind its back.
-/

namespace SpecAsCode.Executor

open SpecAsCode.Js
open SpecAsCode.Core
open SpecAsCode.Text

/-- What git and the file system show of a worktree. -/
structure GitView where
  /-- `git rev-parse HEAD`, trimmed. -/
  head : Option JsString
  /-- The names of `git diff --name-only` from a revision to `HEAD`. -/
  delta : JsString → Option (List JsString)
  /-- The paths of `statusPorcelain`; none when it throws. -/
  status : Option (List JsString)
  /-- The text of a file; none when it cannot be read. -/
  read : JsString → Option JsString

inductive AttributionKind where
  | applied
  | declared
  deriving DecidableEq, Repr

structure AttributionWrite where
  path : JsString
  digest : JsString
  kind : AttributionKind
  deriving DecidableEq

structure SubmissionCheckInput where
  baselineRevision : JsString
  writeTargets : List JsString
  attribution : List AttributionWrite
  /-- True when it is left out. -/
  attributionStoreExists : Bool
  /-- False when it is left out. -/
  priorRecordedWork : Bool
  /-- Empty when it is left out. -/
  protectedPatterns : List JsString

inductive SubmissionDecision where
  | allow
  | refuse
  deriving DecidableEq, Repr

inductive RefusalCode where
  | unmediatedChanges
  | guardVersionSkew
  deriving DecidableEq, Repr

structure SubmissionCheck where
  decision : SubmissionDecision
  code : Option RefusalCode
  unattributed : List JsString
  message : Option JsString
  deriving DecidableEq

def recovery : JsString :=
  js ("revert the unattributed changes and propose them as patch operations (multi-op chains " ++
    "compose in one invocation: spc patch build --batch <spec.json>; a single follow-up chains " ++
    "with spc patch build --after <ops.json>; then spc patch verify, spc agent dry-run, spc " ++
    "agent submit)")

/-- `paths.join(", ")`. -/
def commaList (paths : List JsString) : JsString :=
  (js ", ").intercalate paths

section Guard

variable (sha256Hex : List Octet → JsString) (view : GitView) (input : SubmissionCheckInput)

/-- `refuseBypass`. -/
def refuseBypass (head : JsString) (offenders : List JsString) : SubmissionCheck where
  decision := .refuse
  code := some .unmediatedChanges
  unattributed := offenders
  message := some (js "HEAD " ++ head.take 12 ++ js " diverged from the dispatch baseline " ++
    input.baselineRevision.take 12 ++ js " - committed edits are unmediated changes" ++
    (if offenders = [] then [] else js " (non-protected paths: " ++ commaList offenders ++ js ")") ++
    js "; " ++ recovery)

/-- The check for commits: a refusal, or none when the tree itself is to be looked at. -/
def committedBypass : Option SubmissionCheck :=
  match view.head with
  | none => none
  | some head =>
      if head = input.baselineRevision then
        none
      else if input.protectedPatterns = [] then
        some (refuseBypass input head [])
      else
        match view.delta input.baselineRevision with
        | none => some (refuseBypass input head [])
        | some changed =>
            let isProtected := fun path => globMatchAny input.protectedPatterns path
            if changed ≠ [] ∧ changed.all isProtected = true then
              none
            else
              some (refuseBypass input head
                ((changed.filter fun path => !isProtected path).take 5))

/-- A record accounts for what a path holds; the first record of the path is asked. -/
def isAttributed (path : JsString) : Bool :=
  match input.attribution.find? fun write => write.path = path with
  | none => false
  | some record =>
      match view.read path with
      | none => false
      | some content => fileDigest sha256Hex content = record.digest

/-- The paths under the write targets that no record accounts for. -/
def unattributedPaths (entries : List JsString) : List JsString :=
  (entries.filter (globMatchAny input.writeTargets)).filter fun path =>
    !isAttributed sha256Hex view input path

/-- `evaluateSubmission`. -/
def evaluateSubmission : SubmissionCheck :=
  match committedBypass view input with
  | some refusal => refusal
  | none =>
      match view.status with
      | none => ⟨.allow, none, [], none⟩
      | some entries =>
          let unattributed := unattributedPaths sha256Hex view input entries
          if unattributed = [] then
            ⟨.allow, none, [], none⟩
          else if input.attributionStoreExists = false ∧ input.priorRecordedWork = true then
            ⟨.refuse, some .guardVersionSkew, unattributed,
              some (js "GUARD_VERSION_SKEW: " ++ commaList unattributed ++
                js (" is dirty under the task's write targets while the run recorded prior work " ++
                  "but has no attribution store - a run binary that predates attribution " ++
                  "recording; the dirt is likely its own unrecorded mediated work - restart the " ++
                  "run on the current binary."))⟩
          else
            ⟨.refuse, some .unmediatedChanges, unattributed,
              some (js "unmediated changes under the task's write targets: " ++
                commaList unattributed ++ js " - " ++ recovery)⟩

end Guard

/-! ## What the guard refuses -/

section Refusals

variable (sha256Hex : List Octet → JsString) (view : GitView)

/-- The commits since a revision are confined to protected paths. -/
def AuthorOnly (baseline : JsString) (patterns : List JsString) : Prop :=
  patterns ≠ [] ∧ ∃ changed, view.delta baseline = some changed ∧ changed ≠ [] ∧
    ∀ path ∈ changed, globMatchAny patterns path = true

/-- The head moved off a revision by more than what its author may commit. -/
def HeadMoved (baseline : JsString) (patterns : List JsString) : Prop :=
  ∃ head, view.head = some head ∧ head ≠ baseline ∧ ¬ AuthorOnly view baseline patterns

/-- A path under the targets holds what no record accounts for. -/
def UnaccountedDirt (targets : List JsString) (attribution : List AttributionWrite) : Prop :=
  ∃ entries, view.status = some entries ∧ ∃ path ∈ entries, globMatchAny targets path = true ∧
    ¬ ∃ record, attribution.find? (fun write => write.path = path) = some record ∧
      ∃ content, view.read path = some content ∧ fileDigest sha256Hex content = record.digest

variable {sha256Hex view}

theorem isAttributed_iff {input : SubmissionCheckInput} {path : JsString} :
    isAttributed sha256Hex view input path = true ↔
      ∃ record, input.attribution.find? (fun write => write.path = path) = some record ∧
        ∃ content, view.read path = some content ∧ fileDigest sha256Hex content = record.digest := by
  rw [isAttributed]
  cases input.attribution.find? fun write => write.path = path with
  | none => simp
  | some record =>
      cases view.read path with
      | none => simp
      | some content => simp

theorem committedBypass_isSome (input : SubmissionCheckInput) :
    (committedBypass view input).isSome = true ↔
      HeadMoved view input.baselineRevision input.protectedPatterns := by
  rw [committedBypass, HeadMoved, AuthorOnly]
  cases view.head with
  | none => simp
  | some head =>
      by_cases same : head = input.baselineRevision
      · simp [same]
      · by_cases unprotected : input.protectedPatterns = []
        · simp [same, unprotected]
        · cases view.delta input.baselineRevision with
          | none => simp [same, unprotected]
          | some changed =>
              simp only [same, unprotected, if_false, Option.some.injEq, exists_eq_left', ne_eq,
                not_false_eq_true, true_and, List.all_eq_true]
              split
              · next confined => simpa [confined.1] using confined.2
              · next outside => simp [outside]

theorem unattributedPaths_ne_nil {input : SubmissionCheckInput} {entries : List JsString} :
    unattributedPaths sha256Hex view input entries ≠ [] ↔
      ∃ path ∈ entries, globMatchAny input.writeTargets path = true ∧
        isAttributed sha256Hex view input path = false := by
  rw [unattributedPaths, ne_eq, List.filter_eq_nil_iff]
  simp

/-- A bypass is a refusal. -/
theorem committedBypass_refuses {input : SubmissionCheckInput} {check : SubmissionCheck}
    (bypass : committedBypass view input = some check) : check.decision = .refuse := by
  rw [committedBypass] at bypass
  cases known : view.head with
  | none =>
      rw [known] at bypass
      cases bypass
  | some head =>
      simp only [known] at bypass
      split at bypass
      · cases bypass
      split at bypass
      · cases bypass
        rfl
      cases delta : view.delta input.baselineRevision with
      | none =>
          rw [delta] at bypass
          cases bypass
          rfl
      | some changed =>
          simp only [delta] at bypass
          split at bypass
          · cases bypass
          · cases bypass
            rfl

/-- What the guard refuses. -/
theorem evaluateSubmission_refuse_iff (input : SubmissionCheckInput) :
    (evaluateSubmission sha256Hex view input).decision = .refuse ↔
      HeadMoved view input.baselineRevision input.protectedPatterns ∨
        UnaccountedDirt sha256Hex view input.writeTargets input.attribution := by
  rw [← committedBypass_isSome, evaluateSubmission]
  cases bypass : committedBypass view input with
  | some check => simp [committedBypass_refuses bypass]
  | none =>
      simp only [Option.isSome_none, Bool.false_eq_true, false_or, UnaccountedDirt]
      cases view.status with
      | none => simp
      | some entries =>
          simp only [Option.some.injEq, exists_eq_left', ← @isAttributed_iff sha256Hex view input,
            Bool.not_eq_true]
          rw [← unattributedPaths_ne_nil]
          split
          · next none => simp [none]
          · next some =>
              split
              · simp [some]
              · simp [some]

end Refusals

end SpecAsCode.Executor
