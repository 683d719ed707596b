import SpecAsCode.Core.RelPath
import SpecAsCode.Js.JsonObject
import SpecAsCode.Schema.Followup
import SpecAsCode.Verifier.OracleValidity
import SpecAsCode.Verifier.Suites

/-!
# Checking one criterion

What a check makes of what it observed: an evidence record for the criterion and, where a
person has to step in, a draft of a follow-up.
-/

namespace SpecAsCode.Verifier

open SpecAsCode.Js
open SpecAsCode.Core
open SpecAsCode.Schema

/-- A time, as a record carries it. -/
abbrev Stamp := { text : JsString // text ≠ [] }

theorem Stamp.ne_nil (stamp : Stamp) : stamp.1 ≠ [] :=
  stamp.2

/-- A record before it gets its identifier, its chain pointer and its digest. -/
structure EvidenceDraft where
  runId : JsString
  taskId : Option JsString
  criterionId : Option JsString
  propertyRefs : List JsString
  kind : EvidenceKind
  outcome : EvidenceOutcome
  producer : EvidenceProducer
  timestamp : Stamp
  repositoryRevision : JsString
  red : Bool
  payload : Json

/-! ## The surroundings of a check -/

inductive PolicyValue where
  | allow
  | approval
  | deny
  deriving DecidableEq, Repr

/-- What `evaluateCommandPolicy` says about a command. -/
structure CommandDecision where
  category : JsString
  policy : PolicyValue
  reason : JsString

structure CommandRunResult where
  command : JsString
  cwd : JsString
  exitCode : Option JsNumber
  stdout : JsString
  stderr : JsString
  stdoutDigest : JsString
  stderrDigest : JsString
  durationMs : Option JsNumber
  timedOut : Bool
  signal : Option JsString
  allowed : Bool
  deniedReason : Option JsString

/-- The physical execution a result comes from. -/
structure Execution where
  executionId : JsString
  reused : Bool
  originRunId : JsString

/-- The runs of a command: the one that was made or found in a memo, and the one that a
timeout leads to. -/
structure CommandObservation where
  run : CommandRunResult
  execution : Execution
  retry : CommandRunResult
  retryId : JsString

/-- What stands at the path of a file criterion. -/
structure FileObservation where
  isFile : Bool
  content : Option JsString
  size : JsNumber

structure AgentVerdict where
  outcome : EvidenceOutcome
  justification : JsString

/-- The answer of a verifier model; none when the provider raised an error. -/
structure AgentObservation where
  verdict : Option AgentVerdict
  cachedVerdict : Bool

/-- What a check finds outside. -/
structure Observation where
  command : CommandObservation
  file : FileObservation
  agent : AgentObservation

/-- `CriterionContext`. -/
structure CriterionContext where
  runId : JsString
  taskId : Option JsString
  repositoryRevision : JsString
  /-- `evaluateCommandPolicy` under the configuration. -/
  policy : JsString → CommandDecision
  /-- The name of the provider, if there is one. -/
  provider : Option JsString
  approvedCommands : List JsString
  environmentReady : Bool
  red : Bool
  suiteProvenance : OrderedMap JsString SuiteProvenance

structure CriterionResult where
  evidence : EvidenceDraft
  followUp : Option FollowUpDraft
  commandRun : Option CommandRunResult
  execution : Option Execution

/-! ## The output of a command -/

/-- Some pieces occur one after another. -/
def inOrder : List JsString → JsString → Bool
  | [], _ => true
  | piece :: pieces, text =>
      text.tails.any fun tail => piece.isPrefixOf tail && inOrder pieces (tail.drop piece.length)

/-- A pattern of literal pieces with `[^\n]*` between them, without regard to case. -/
def onOneLine (pieces : List JsString) (output : JsString) : Bool :=
  ((output.map lowerAscii).splitOn (unit '\n')).any (inOrder pieces)

/-- `INFRA_DEATH_SIGNATURES.some((re) => re.test(output))`. -/
def showsInfraDeath (output : JsString) : Bool :=
  [[js "vitest", js "worker", js "exited unexpectedly"],
    [js "vitest", js "process", js "crashed"],
    [js "vitest", js "process", js "exited unexpectedly"],
    [js "worker process ", js " terminated"],
    [js "worker process ", js " exited unexpectedly"],
    [js "test runner crashed"],
    [js "error: listen eaddrinuse"],
    [js "listen eacces"]].any fun pieces => onOneLine pieces output

/-- `/tests?\s+no tests/i.test(output)`. -/
def showsNoTests (output : JsString) : Bool :=
  (output.map lowerAscii).tails.any fun tail =>
    [js "test", js "tests"].any fun word =>
      word.isPrefixOf tail &&
        let gap := tail.drop word.length
        gap.takeWhile isSpace != [] && (js "no tests").isPrefixOf (gap.dropWhile isSpace)

/-- The signs that a suite never collected its tests. -/
def showsNoSuite (output : JsString) : Bool :=
  showsNoTests output ||
    [js "cannot find module", js "failed suites", js "failed to load",
      js "must contain at least one test"].any fun piece =>
        includes (output.map lowerAscii) piece

/-! ## The checks -/

section Checks

variable (context : CriterionContext) (property : DesiredProperty) (now : Stamp)

/-- The fields all records of a check share. -/
def draftFor (criterionId : JsString) (kind : EvidenceKind) (outcome : EvidenceOutcome)
    (producer : EvidenceProducer) (red : Bool) (payload : Json) : EvidenceDraft where
  runId := context.runId
  taskId := context.taskId
  criterionId := some criterionId
  propertyRefs := [property.id]
  kind := kind
  outcome := outcome
  producer := producer
  timestamp := now
  repositoryRevision := context.repositoryRevision
  red := red
  payload := payload

/-- An investigation follow-up: it has no options. -/
def investigation (criterionId title description : JsString) : FollowUpDraft where
  type := .investigation
  blocking := false
  title := title
  description := description
  propertyId := some property.id
  taskId := context.taskId
  options := none
  recommendedDefault := none
  criterionId := some criterionId
  command := none

/-- The follow-up of a command that needs approval. -/
def approvalFollowUp (criterionId command category : JsString) : FollowUpDraft where
  type := .approval
  blocking := false
  title := js "Approve command for " ++ property.id ++ js ": " ++ command
  description := js "The acceptance command is policy-gated (\"" ++ category ++
    js "\"). Approving runs it during verification; rejecting keeps this property indeterminate."
  propertyId := some property.id
  taskId := context.taskId
  options := some
    [⟨js "approve", js "Allow this exact command during verification."⟩,
      ⟨js "reject", js "Keep the command blocked; the property stays indeterminate."⟩]
  recommendedDefault := some (js "approve")
  criterionId := some criterionId
  command := some command

/-- What a command that ran says about its criterion, before deaths of the machine are told
from failed assertions. -/
def rawOutcome (expected : Int) (run : CommandRunResult) : EvidenceOutcome :=
  if run.deniedReason.isSome then
    .inconclusive
  else if run.exitCode = some (JsNumber.ofInt expected) then
    .supports
  else
    .contradicts

/-- The output that is searched for signatures. -/
def outputOf (run : CommandRunResult) : JsString :=
  run.stdout ++ js "\n" ++ run.stderr

/-- The machine died, not the assertion. -/
def isInfraDeath (expected : Int) (run : CommandRunResult) : Bool :=
  rawOutcome expected run == .contradicts && !run.timedOut && showsInfraDeath (outputOf run)

def isBudgetTimeout (expected : Int) (run : CommandRunResult) : Bool :=
  rawOutcome expected run == .contradicts && run.timedOut

/-- `evidenceOutcome`. -/
def commandOutcome (expected : Int) (run : CommandRunResult) : EvidenceOutcome :=
  if isInfraDeath expected run || isBudgetTimeout expected run then
    .inconclusive
  else
    rawOutcome expected run

/-- `failureShape`, the last of the marks that are spread in. -/
def failureShape (expected : Int) (run : CommandRunResult) : Option JsString :=
  if isBudgetTimeout expected run then
    some (js "budget-timeout")
  else if isInfraDeath expected run then
    some (js "environment-death")
  else if rawOutcome expected run == .contradicts && showsNoSuite (outputOf run) then
    some (js "suite-did-not-run")
  else
    none

/-- The payload of a command that ran. -/
def commandPayload (criterionId command : JsString) (expected : Int) (run : CommandRunResult)
    (first : Option CommandRunResult) (execution : Execution) : Json :=
  let suite := context.suiteProvenance.get? criterionId
  Json.object
    [(js "command", some (.text command)),
      (js "expectedExitCode", some (.number (JsNumber.ofInt expected))),
      (js "exitCode", some (run.exitCode.elim .null .number)),
      (js "timedOut", some (.bool run.timedOut)),
      (js "durationMs", run.durationMs.map .number),
      (js "stdout", some (.text run.stdout)),
      (js "stderr", some (.text run.stderr)),
      (js "failureShape", (failureShape expected run).map .text),
      (js "attempts", first.map fun _ => .number (JsNumber.ofNat 2)),
      (js "firstAttemptTimedOut", first.map fun _ => .bool true),
      (js "firstAttemptDurationMs", first.bind fun attempt => attempt.durationMs.map .number),
      (js "signal", run.signal.map .text),
      (js "oracleValidity",
        if rawOutcome expected run == .contradicts && classifyOracleValidity command (outputOf run) then
          some (.text (js "invalid"))
        else
          none),
      (js "deniedReason", run.deniedReason.map .text),
      (js "executionId", some (.text execution.executionId)),
      (js "reusedFrom", if execution.reused then some (.text execution.originRunId) else none),
      (js "suite", suite.map fun found => .text found.suite),
      (js "suiteDigest", suite.map fun found => .text found.suiteDigest)]
    (by simp only [Ordered, List.map]; decide +kernel)

/-- `verifyCommand`. -/
def verifyCommand (id command : JsString) (expectExitCode : Option Int)
    (observed : CommandObservation) : CriterionResult :=
  let decision := context.policy command
  if decision.policy = .approval ∧ command ∉ context.approvedCommands then
    { evidence := draftFor context property now id .command .inconclusive
        ⟨.runtime, some (js "awaiting-approval")⟩ false
        (Json.object [(js "command", some (.text command)), (js "reason", some (.text decision.reason))]
          (by simp only [Ordered, List.map]; decide))
      followUp := some (approvalFollowUp context property id command decision.category)
      commandRun := none
      execution := none }
  else if context.environmentReady = false then
    { evidence :=
        { draftFor context property now id .command .inconclusive ⟨.runtime, none⟩ false
            (Json.object
              [(js "command", some (.text command)),
                (js "reason", some (.text (js
                  "environment preparation failed - the observation could not be made; not a behavioral contradiction")))]
              (by simp only [Ordered, List.map]; decide)) with
          taskId := none }
      followUp := none
      commandRun := none
      execution := none }
  else
    let expected := expectExitCode.getD 0
    -- A timeout is tried again once; the second run decides.
    let retried := observed.run.timedOut && observed.run.deniedReason.isNone
    let run := if retried then observed.retry else observed.run
    let execution := if retried then ⟨observed.retryId, false, context.runId⟩ else observed.execution
    let first := if retried then some observed.run else none
    { evidence := draftFor context property now id
        (if decision.category = js "test" then .test else .command) (commandOutcome expected run)
        ⟨.runtime, none⟩ context.red
        (commandPayload context id command expected run first execution)
      followUp := run.deniedReason.map fun reason =>
        investigation context property id
          (js "Command policy blocked verification of " ++ property.id)
          (js "Acceptance command \"" ++ command ++ js "\" was blocked: " ++ reason ++
            js ". Adjust command policy or the acceptance criterion.")
      commandRun := some run
      execution := some execution }

/-- The checks of a file assertion, in the order in which they are made. -/
def fileChecks (assertion : FileAssert) (observed : FileObservation) : List (JsString × Option Bool) :=
  let holds (part : JsString) : Bool := observed.content.any fun content => includes content part
  [(js "exists", assertion.present.map fun present => observed.isFile == present),
    (js "contains", assertion.contains.map fun part => observed.isFile && holds part),
    (js "notContains", assertion.notContains.map fun part => !observed.isFile || !holds part)]

theorem keys_fileChecks (assertion : FileAssert) (observed : FileObservation) :
    (fileChecks assertion observed).map Prod.fst = [js "exists", js "contains", js "notContains"] :=
  rfl

/-- `verifyFile`. -/
def verifyFile (id path : JsString) (assertion : FileAssert) (observed : FileObservation) :
    CriterionResult :=
  if isSafeRelativePath path then
    let checks := fileChecks assertion observed
    { evidence := draftFor context property now id .file
        (if checks.all fun check => check.2.getD true then .supports else .contradicts)
        ⟨.runtime, none⟩ context.red
        (Json.object
          [(js "path", some (.text path)),
            (js "assert", some (Json.object
              [(js "exists", assertion.present.map .bool), (js "contains", assertion.contains.map .text),
                (js "notContains", assertion.notContains.map .text)] (by simp only [Ordered, List.map]; decide))),
            (js "checks", some (Json.object (checks.map fun check => (check.1, check.2.map .bool)) (by
              have keys := keys_fileChecks assertion observed
              rw [Ordered, List.map_map]
              show (checks.map Prod.fst).Pairwise KeysInOrder
              rw [show checks.map Prod.fst = _ from keys]
              decide))),
            (js "observed", some (Json.object
              [(js "exists", some (.bool observed.isFile)),
                (js "size", some (.number (if observed.isFile then observed.size else JsNumber.ofNat 0)))]
              (by simp only [Ordered, List.map]; decide)))]
          (by simp only [Ordered, List.map]; decide))
      followUp := none
      commandRun := none
      execution := none }
  else
    { evidence := draftFor context property now id .file .inconclusive
        ⟨.runtime, some (js "unsafe-criterion-path")⟩ false
        (Json.object
          [(js "path", some (.text path)),
            (js "reason", some (.text (js "criterion path is not a safe relative path")))] (by simp only [Ordered, List.map]; decide))
      followUp := some (investigation context property id
        (js "Unsafe file criterion path for " ++ property.id)
        (js "Criterion " ++ id ++ js " path \"" ++ path ++ js "\" escapes the repository; fix the spec."))
      commandRun := none
      execution := none }

/-- `verifyAgent`. -/
def verifyAgent (id instruction : JsString) (observed : AgentObservation) :
    Except VerifyError CriterionResult :=
  match context.provider with
  | none => .ok
      { evidence := draftFor context property now id .agent .inconclusive
          ⟨.runtime, some (js "no-provider")⟩ false
          (Json.object
            [(js "reason", some (.text (js "no LLM provider configured for agent verification")))]
            (by simp only [Ordered, List.map]; decide))
        followUp := some (investigation context property id
          (js "Agent verification unavailable for " ++ property.id)
          (js "Criterion " ++ id ++
            js " requires an agent verifier but no provider is configured."))
        commandRun := none
        execution := none }
  | some name =>
      match observed.verdict with
      | none => .error (.provider id)
      | some verdict => .ok
          { evidence := draftFor context property now id .agent verdict.outcome ⟨.agent, some name⟩
              false
              (Json.object
                [(js "instruction", some (.text instruction)),
                  (js "justification", some (.text verdict.justification)),
                  (js "cachedVerdict", if observed.cachedVerdict then some (.bool true) else none)]
                (by simp only [Ordered, List.map]; decide))
            followUp := none
            commandRun := none
            execution := none }

/-- `verifyHuman`: the placeholder that stands until a person has answered. -/
def verifyHuman (id instruction : JsString) : CriterionResult where
  evidence := draftFor context property now id .human .inconclusive
    ⟨.runtime, some (js "awaiting-human")⟩ false
    (Json.object
      [(js "instruction", some (.text instruction)), (js "status", some (.text (js "outstanding")))]
      (by simp only [Ordered, List.map]; decide))
  followUp := some
    { type := .manualVerification
      blocking := false
      title := js "Manual review: " ++ property.id
      description := instruction
      propertyId := some property.id
      taskId := context.taskId
      options := some
        [⟨js "confirm", js "The property holds as far as human review can establish."⟩,
          ⟨js "reject", js "The property does not hold."⟩]
      recommendedDefault := some (js "confirm")
      criterionId := some id
      command := none }
  commandRun := none
  execution := none

/-- `verifyCriterion`. -/
def verifyCriterion (observed : Observation) :
    AcceptanceCriterion → Except VerifyError CriterionResult
  | .command id command expectExitCode _ _ =>
      .ok (verifyCommand context property now id command expectExitCode observed.command)
  | .file id path assertion _ => .ok (verifyFile context property now id path assertion observed.file)
  | .agent id instruction _ => verifyAgent context property now id instruction observed.agent
  | .human id instruction _ => .ok (verifyHuman context property now id instruction)
  | .suite _ _ _ => .error .suiteUnresolved

/-! ## What every check has in common -/

/-- A record that a deterministic check makes at run time. -/
def isCheckKind (kind : EvidenceKind) : Bool :=
  kind == .command || kind == .test || kind == .file

/-- What is known of the result of a check, whatever it observed. -/
structure Checked (criterion : AcceptanceCriterion) (result : CriterionResult) : Prop where
  criterionId : result.evidence.criterionId = some criterion.id
  propertyRefs : result.evidence.propertyRefs = [property.id]
  timestamp : result.evidence.timestamp = now
  unattended : result.evidence.producer.type ≠ .human
  deterministic : isDeterministicCriterion criterion = true →
    isCheckKind result.evidence.kind = true ∧ result.evidence.producer.type = .runtime
  red : result.evidence.red = true → context.red = true
  notWaived : result.evidence.kind = .human →
    (result.evidence.payload.1.property (js "waive")).isTrue = false
  placeholder : criterion.type = .human →
    result.evidence.kind = .human ∧ result.evidence.outcome = .inconclusive ∧
      result.evidence.red = false ∧ result.followUp.isSome = true
  addressed : ∀ draft, result.followUp = some draft →
    draft.criterionId = some criterion.id ∧ draft.propertyId = some property.id

variable {context property now}

theorem verifyCommand_checked (id command : JsString) (expectExitCode : Option Int)
    (timeoutMs : Option Nat) (discriminating : Option Bool) (observed : CommandObservation) :
    Checked context property now (.command id command expectExitCode timeoutMs discriminating)
      (verifyCommand context property now id command expectExitCode observed) := by
  rw [verifyCommand]
  simp only
  split
  · -- The command waits for an approval.
    exact ⟨rfl, rfl, rfl, by simp [draftFor], fun _ => ⟨rfl, rfl⟩, by simp [draftFor],
      by simp [draftFor], by simp [AcceptanceCriterion.type], by
        intro draft made
        cases made
        exact ⟨rfl, rfl⟩⟩
  split
  · -- The environment could not be prepared.
    exact ⟨rfl, rfl, rfl, by simp [draftFor], fun _ => ⟨rfl, rfl⟩, by simp [draftFor],
      by simp [draftFor], by simp [AcceptanceCriterion.type], by simp⟩
  · -- The command ran, or was refused while it was tried.
    refine ⟨rfl, rfl, rfl, by simp [draftFor], fun _ => ⟨?_, rfl⟩, by simp [draftFor], ?_,
      by simp [AcceptanceCriterion.type], ?_⟩
    · simp only [draftFor]
      split <;> rfl
    · simp only [draftFor]
      split <;> simp
    · intro draft made
      obtain ⟨reason, -, rfl⟩ := Option.map_eq_some_iff.mp made
      exact ⟨rfl, rfl⟩

theorem verifyFile_checked (id path : JsString) (assertion : FileAssert)
    (discriminating : Option Bool) (observed : FileObservation) :
    Checked context property now (.file id path assertion discriminating)
      (verifyFile context property now id path assertion observed) := by
  rw [verifyFile]
  split
  · exact ⟨rfl, rfl, rfl, by simp [draftFor], fun _ => ⟨rfl, rfl⟩, by simp [draftFor],
      by simp [draftFor], by simp [AcceptanceCriterion.type], by simp⟩
  · exact ⟨rfl, rfl, rfl, by simp [draftFor], fun _ => ⟨rfl, rfl⟩, by simp [draftFor],
      by simp [draftFor], by simp [AcceptanceCriterion.type], by
        intro draft made
        cases made
        exact ⟨rfl, rfl⟩⟩

theorem verifyAgent_checked {id instruction : JsString} {discriminating : Option Bool}
    {observed : AgentObservation} {result : CriterionResult}
    (verified : verifyAgent context property now id instruction observed = .ok result) :
    Checked context property now (.agent id instruction discriminating) result := by
  rw [verifyAgent] at verified
  split at verified
  · cases verified
    exact ⟨rfl, rfl, rfl, by simp [draftFor], by simp [isDeterministicCriterion, AcceptanceCriterion.type],
      by simp [draftFor], by simp [draftFor], by simp [AcceptanceCriterion.type], by
        intro draft made
        cases made
        exact ⟨rfl, rfl⟩⟩
  · split at verified
    · cases verified
    · cases verified
      exact ⟨rfl, rfl, rfl, by simp [draftFor],
        by simp [isDeterministicCriterion, AcceptanceCriterion.type], by simp [draftFor],
        by simp [draftFor], by simp [AcceptanceCriterion.type], by simp⟩

theorem verifyHuman_checked (id instruction : JsString) (discriminating : Option Bool) :
    Checked context property now (.human id instruction discriminating)
      (verifyHuman context property now id instruction) := by
  refine ⟨rfl, rfl, rfl, by simp [verifyHuman, draftFor],
    by simp [isDeterministicCriterion, AcceptanceCriterion.type], by simp [verifyHuman, draftFor],
    fun _ => ?_, fun _ => ⟨rfl, rfl, rfl, rfl⟩, ?_⟩
  · rfl
  · intro draft made
    cases made
    exact ⟨rfl, rfl⟩

/-- Every check reports on its own criterion, and none of them speaks for a person. -/
theorem verifyCriterion_checked {observed : Observation} {criterion : AcceptanceCriterion}
    {result : CriterionResult}
    (verified : verifyCriterion context property now observed criterion = .ok result) :
    Checked context property now criterion result := by
  cases criterion with
  | command id command expectExitCode timeoutMs discriminating =>
      cases verified
      exact verifyCommand_checked id command expectExitCode timeoutMs discriminating observed.command
  | file id path assertion discriminating =>
      cases verified
      exact verifyFile_checked id path assertion discriminating observed.file
  | suite => cases verified
  | agent id instruction discriminating => exact verifyAgent_checked verified
  | human id instruction discriminating =>
      cases verified
      exact verifyHuman_checked id instruction discriminating

end Checks

end SpecAsCode.Verifier
