import SpecAsCode.Executor.Commands

/-!
# Verdicts of command criteria

The result that decides a command criterion is one that the sweep has memoized, one from the
cache, or one of a run of its own, which a timeout repeats once.
-/

namespace SpecAsCode.Verifier

open SpecAsCode.Js
open SpecAsCode.Core
open SpecAsCode.Schema
open SpecAsCode.Executor (CommandsConfig Spawned allowed_allowing classifyCommand
  evaluateCommandPolicy evaluateCommandPolicy_allowed evaluateCommandPolicy_category runCommand)

/-! ## Where a result comes from -/

/-- A result of the sweep, with the policy and the shell it comes from. -/
structure SharedCommandRun where
  executionId : JsString
  originRunId : JsString
  config : CommandsConfig
  spawned : Spawned

/-- `CachedRunResult`. -/
structure CachedRunResult where
  executionId : JsString
  exitCode : Option JsNumber
  stdout : JsString
  stderr : JsString
  timedOut : Bool

/-- `cacheHit as unknown as CommandRunResult`: the fields that were not recorded are missing. -/
def CachedRunResult.result (cached : CachedRunResult) (command : JsString) : CommandRunResult where
  command := command
  cwd := []
  exitCode := cached.exitCode
  stdout := cached.stdout
  stderr := cached.stderr
  stdoutDigest := []
  stderrDigest := []
  durationMs := none
  timedOut := cached.timedOut
  signal := none
  allowed := false
  deniedReason := none

/-- What a check of a command can draw on: the memo of the sweep, the cache, and the shells that
it would start. -/
structure CommandSources where
  memo : Option SharedCommandRun
  cache : Option CachedRunResult
  executionId : JsString
  first : Spawned
  retryId : JsString
  second : Spawned

/-- What is fixed for a check of a command. -/
structure CommandSetting where
  digestOf : JsString → JsString
  cwd : JsString
  config : CommandsConfig
  context : CriterionContext

namespace CommandSetting

variable (setting : CommandSetting) (command : JsString) (sources : CommandSources)

/-- The policy as the criterion asks for it. -/
def policy (command : JsString) : CommandDecision :=
  let decision := evaluateCommandPolicy command setting.config
  ⟨decision.category.text, decision.policy, decision.reason⟩

/-- `commandsConfig` of a run: an approved category is allowed. -/
def effectiveConfig : CommandsConfig :=
  let decision := evaluateCommandPolicy command setting.config
  if decision.policy = .approval then
    setting.config.allowing decision.category
  else
    setting.config

def memoized (run : SharedCommandRun) : CommandRunResult :=
  runCommand setting.digestOf command setting.cwd run.config run.spawned

def attempt (spawned : Spawned) : CommandRunResult :=
  runCommand setting.digestOf command setting.cwd (setting.effectiveConfig command) spawned

/-- The result before a retry, with the execution it comes from. -/
def firstResult : CommandRunResult × Execution :=
  match sources.memo with
  | some run => (setting.memoized command run, ⟨run.executionId, true, run.originRunId⟩)
  | none =>
      match sources.cache with
      | some cached => (cached.result command, ⟨cached.executionId, true, js "cache"⟩)
      | none =>
          (setting.attempt command sources.first,
            ⟨sources.executionId, false, setting.context.runId⟩)

def observe : CommandObservation where
  run := (setting.firstResult command sources).1
  execution := (setting.firstResult command sources).2
  retry := setting.attempt command sources.second
  retryId := sources.retryId

/-- `verifyCommand`, with the policy, the memo, the cache and the runs in place. -/
def verify (property : DesiredProperty) (now : Stamp) (id : JsString) (expectExitCode : Option Int) :
    CriterionResult :=
  verifyCommand { setting.context with policy := setting.policy } property now id command
    expectExitCode (setting.observe command sources)

/-! ## What is said of a verdict -/

/-- The policy in force permits the command, or it was approved and is not denied. -/
def Permitted : Prop :=
  (evaluateCommandPolicy command setting.config).policy = .allow ∨
    ((evaluateCommandPolicy command setting.config).policy = .approval ∧
      command ∈ setting.context.approvedCommands)

/-- Nothing keeps the check from looking at a result. -/
def Examined : Prop :=
  ¬ ((evaluateCommandPolicy command setting.config).policy = .approval ∧
      command ∉ setting.context.approvedCommands) ∧
    setting.context.environmentReady = true

/-- The result before a retry is one of a command that ran. -/
def firstExecuted : Bool :=
  match sources.memo with
  | some run => (evaluateCommandPolicy command run.config).allowed && run.spawned.started
  | none =>
      match sources.cache with
      | some _ => true
      | none =>
          (evaluateCommandPolicy command (setting.effectiveConfig command)).allowed &&
            sources.first.started

def retried : Bool :=
  let run := (setting.firstResult command sources).1
  run.timedOut && run.deniedReason.isNone

/-- The result that decides. -/
def finalResult : CommandRunResult :=
  if setting.retried command sources then
    setting.attempt command sources.second
  else
    (setting.firstResult command sources).1

def finalExecuted : Bool :=
  if setting.retried command sources then
    (evaluateCommandPolicy command (setting.effectiveConfig command)).allowed &&
      sources.second.started
  else
    setting.firstExecuted command sources

/-- The result has the expected exit code. -/
def Expected (expectExitCode : Option Int) (run : CommandRunResult) : Prop :=
  run.exitCode = some (JsNumber.ofInt (expectExitCode.getD 0))

/-- The run finished in time, and nothing in its output says that the machine died. -/
structure Clean (run : CommandRunResult) : Prop where
  inTime : run.timedOut = false
  alive : showsInfraDeath (outputOf run) = false

def MaySupport (expectExitCode : Option Int) : Prop :=
  setting.Permitted command ∧ Expected expectExitCode (setting.finalResult command sources) ∧
    Clean (setting.finalResult command sources)

def MayContradict (expectExitCode : Option Int) : Prop :=
  setting.finalExecuted command sources = true ∧
    ¬ Expected expectExitCode (setting.finalResult command sources) ∧
    Clean (setting.finalResult command sources)

/-- What is asked of the outcome of a command criterion. -/
structure VerdictAsStated (expectExitCode : Option Int) (outcome : EvidenceOutcome) : Prop where
  supports : outcome = .supports → setting.MaySupport command sources expectExitCode
  contradicts : outcome = .contradicts → setting.MayContradict command sources expectExitCode
  otherwise : ¬ setting.MaySupport command sources expectExitCode →
    ¬ setting.MayContradict command sources expectExitCode → outcome = .inconclusive

/-- The result that decides is not one with the expected exit code that is not permitted,
timed out or shows a death of the machine, nor one of a command that could not be started. -/
structure ResultSound (expectExitCode : Option Int) (run : CommandRunResult) : Prop where
  expected : Expected expectExitCode run → setting.Permitted command ∧ Clean run
  unexpected : run.deniedReason = none → ¬ Expected expectExitCode run → Clean run →
    setting.finalExecuted command sources = true

end CommandSetting

/-! ## Outcomes -/

open CommandSetting

variable {setting : CommandSetting} {command : JsString} {sources : CommandSources}

theorem deniedReason_runCommand {digestOf : JsString → JsString} {cwd : JsString}
    {config : CommandsConfig} {spawned : Spawned} {reason : JsString}
    (denied : (runCommand digestOf command cwd config spawned).deniedReason = some reason) :
    (runCommand digestOf command cwd config spawned).exitCode = none ∧
      (evaluateCommandPolicy command config).allowed = false := by
  rw [runCommand] at denied ⊢
  split_ifs at denied ⊢ with allowed
  exact ⟨rfl, by simpa using allowed⟩

/-- A result with a reason for its denial has no exit code. -/
theorem finalResult_denied {reason : JsString}
    (denied : (setting.finalResult command sources).deniedReason = some reason) :
    (setting.finalResult command sources).exitCode = none ∧
      setting.finalExecuted command sources = false := by
  rw [finalResult] at denied ⊢
  rw [finalExecuted]
  split_ifs at denied ⊢ with retried
  · obtain ⟨exit, refused⟩ := deniedReason_runCommand denied
    exact ⟨exit, by rw [refused]; rfl⟩
  · rw [firstResult] at denied ⊢
    rw [firstExecuted]
    cases memo : sources.memo with
    | some run =>
        simp only [memo] at denied ⊢
        obtain ⟨exit, refused⟩ := deniedReason_runCommand denied
        exact ⟨exit, by rw [refused]; rfl⟩
    | none =>
        cases cache : sources.cache with
        | some cached =>
            simp only [memo, cache] at denied
            cases denied
        | none =>
            simp only [memo, cache] at denied ⊢
            obtain ⟨exit, refused⟩ := deniedReason_runCommand denied
            exact ⟨exit, by rw [refused]; rfl⟩

/-- The outcome of a check that looks at a result. -/
theorem outcome_of_examined (examined : setting.Examined command) (property : DesiredProperty)
    (now : Stamp) (id : JsString) (expectExitCode : Option Int) :
    (setting.verify command sources property now id expectExitCode).evidence.outcome =
      commandOutcome (expectExitCode.getD 0) (setting.finalResult command sources) := by
  obtain ⟨approved, ready⟩ := examined
  rw [verify, verifyCommand]
  simp only [CommandSetting.policy]
  rw [if_neg approved, if_neg (by rw [ready]; simp)]
  rfl

theorem outcome_of_not_examined (unexamined : ¬ setting.Examined command)
    (property : DesiredProperty) (now : Stamp) (id : JsString) (expectExitCode : Option Int) :
    (setting.verify command sources property now id expectExitCode).evidence.outcome =
      .inconclusive := by
  rw [verify, verifyCommand]
  simp only [CommandSetting.policy]
  by_cases waiting : (evaluateCommandPolicy command setting.config).policy = .approval ∧
      command ∉ setting.context.approvedCommands
  · rw [if_pos waiting]
    rfl
  · have unready : setting.context.environmentReady = false := by
      by_contra ready
      exact unexamined ⟨waiting, by simpa using ready⟩
    rw [if_neg waiting, if_pos unready]
    rfl

variable {expectExitCode : Option Int}

theorem commandOutcome_supports {run : CommandRunResult} :
    commandOutcome (expectExitCode.getD 0) run = .supports ↔
      run.deniedReason = none ∧ Expected expectExitCode run := by
  rw [commandOutcome, isInfraDeath, isBudgetTimeout, rawOutcome, Expected]
  cases run.deniedReason with
  | some reason => simp
  | none =>
      by_cases exit : run.exitCode = some (JsNumber.ofInt (expectExitCode.getD 0))
      · simp [exit]
      · cases run.timedOut <;> cases showsInfraDeath (outputOf run) <;> simp [exit]

theorem commandOutcome_contradicts {run : CommandRunResult} :
    commandOutcome (expectExitCode.getD 0) run = .contradicts ↔
      run.deniedReason = none ∧ ¬ Expected expectExitCode run ∧ Clean run := by
  rw [commandOutcome, isInfraDeath, isBudgetTimeout, rawOutcome, Expected]
  have clean : Clean run ↔ run.timedOut = false ∧ showsInfraDeath (outputOf run) = false :=
    ⟨fun clean => ⟨clean.inTime, clean.alive⟩, fun both => ⟨both.1, both.2⟩⟩
  rw [clean]
  cases run.deniedReason with
  | some reason => simp
  | none =>
      by_cases exit : run.exitCode = some (JsNumber.ofInt (expectExitCode.getD 0))
      · simp [exit]
      · cases run.timedOut <;> cases showsInfraDeath (outputOf run) <;> simp [exit]

/-- An expected exit code is the one of a result without a denial. -/
theorem deniedReason_of_expected
    (expected : Expected expectExitCode (setting.finalResult command sources)) :
    (setting.finalResult command sources).deniedReason = none := by
  cases denied : (setting.finalResult command sources).deniedReason with
  | none => rfl
  | some reason =>
      rw [Expected, (finalResult_denied denied).1] at expected
      cases expected

/-- The outcome is as stated exactly when the result that decides is sound. -/
theorem verdictAsStated_iff_resultSound (property : DesiredProperty) (now : Stamp) (id : JsString) :
    setting.VerdictAsStated command sources expectExitCode
        (setting.verify command sources property now id expectExitCode).evidence.outcome ↔
      (setting.Examined command →
        setting.ResultSound command sources expectExitCode (setting.finalResult command sources)) := by
  by_cases examined : setting.Examined command
  · rw [outcome_of_examined examined]
    constructor
    · intro stated _
      refine ⟨fun expected => ?_, fun accepted unexpected clean => ?_⟩
      · have may := stated.supports
          (commandOutcome_supports.mpr ⟨deniedReason_of_expected expected, expected⟩)
        exact ⟨may.1, may.2.2⟩
      · exact (stated.contradicts (commandOutcome_contradicts.mpr ⟨accepted, unexpected, clean⟩)).1
    · intro sound
      have supports : commandOutcome (expectExitCode.getD 0) (setting.finalResult command sources) =
          .supports → setting.MaySupport command sources expectExitCode := by
        intro outcome
        have expected := (commandOutcome_supports.mp outcome).2
        obtain ⟨permitted, clean⟩ := (sound examined).expected expected
        exact ⟨permitted, expected, clean⟩
      have contradicts : commandOutcome (expectExitCode.getD 0)
          (setting.finalResult command sources) = .contradicts →
          setting.MayContradict command sources expectExitCode := by
        intro outcome
        obtain ⟨accepted, unexpected, clean⟩ := commandOutcome_contradicts.mp outcome
        exact ⟨(sound examined).unexpected accepted unexpected clean, unexpected, clean⟩
      refine ⟨supports, contradicts, fun unsupported uncontradicted => ?_⟩
      cases outcome : commandOutcome (expectExitCode.getD 0) (setting.finalResult command sources) with
      | supports => exact absurd (supports outcome) unsupported
      | contradicts => exact absurd (contradicts outcome) uncontradicted
      | inconclusive => rfl
  · rw [outcome_of_not_examined examined]
    refine iff_of_true ⟨?_, ?_, fun _ _ => rfl⟩ fun here => absurd here examined
    · rintro ⟨⟩
    · rintro ⟨⟩

/-! ## Results of runs of its own -/

/-- The shell that decides when nothing is reused. -/
def lastSpawned (sources : CommandSources) : Spawned :=
  if sources.first.timedOut then sources.second else sources.first

/-- The output of a shell that is searched for signatures. -/
def spawnedOutput (spawned : Spawned) : JsString :=
  spawned.stdout ++ js "\n" ++ spawned.stderr

/-- A shell that ended with the expected exit code did so in time and without a death of the
machine; one that could not be started shows the one or the other. -/
structure SpawnSound (expectExitCode : Option Int) (spawned : Spawned) : Prop where
  exited : spawned.started = true → spawned.exitCode = some (JsNumber.ofInt (expectExitCode.getD 0)) →
    spawned.timedOut = false ∧ showsInfraDeath (spawnedOutput spawned) = false
  failed : spawned.started = false →
    spawned.timedOut = true ∨ showsInfraDeath (spawnedOutput spawned) = true

theorem effective_allowed (permitted : setting.Permitted command) :
    (evaluateCommandPolicy command (setting.effectiveConfig command)).allowed = true := by
  rw [effectiveConfig]
  simp only [evaluateCommandPolicy_category]
  split_ifs with approval
  · exact allowed_allowing command setting.config
  · exact (evaluateCommandPolicy_allowed command setting.config).mpr
      (permitted.resolve_right fun both => approval both.1)

/-- What is recorded of a shell that was allowed. -/
theorem attempt_of_permitted (permitted : setting.Permitted command) (spawned : Spawned) :
    (setting.attempt command spawned).deniedReason = none ∧
      (setting.attempt command spawned).exitCode =
        (if spawned.started then spawned.exitCode else none) ∧
      (setting.attempt command spawned).timedOut = spawned.timedOut ∧
      outputOf (setting.attempt command spawned) = spawnedOutput spawned := by
  rw [attempt, runCommand]
  simp only [effective_allowed permitted, if_true, true_and]
  rfl

theorem final_of_fresh (permitted : setting.Permitted command) (noMemo : sources.memo = none)
    (noCache : sources.cache = none) :
    setting.finalResult command sources = setting.attempt command (lastSpawned sources) ∧
      setting.finalExecuted command sources = (lastSpawned sources).started := by
  have first : (setting.firstResult command sources).1 = setting.attempt command sources.first := by
    rw [firstResult]
    simp only [noMemo, noCache]
  have again : setting.retried command sources = sources.first.timedOut := by
    obtain ⟨accepted, -, late, -⟩ := attempt_of_permitted permitted sources.first
    rw [retried, first, accepted, late]
    exact Bool.and_true _
  have executed : setting.firstExecuted command sources = sources.first.started := by
    rw [firstExecuted]
    simp only [noMemo, noCache, effective_allowed permitted, Bool.true_and]
  rw [finalResult, finalExecuted, again, first, executed, lastSpawned,
    effective_allowed permitted, Bool.true_and]
  split_ifs <;> exact ⟨rfl, rfl⟩

theorem resultSound_fresh_iff (permitted : setting.Permitted command)
    (noMemo : sources.memo = none) (noCache : sources.cache = none) :
    setting.ResultSound command sources expectExitCode (setting.finalResult command sources) ↔
      SpawnSound expectExitCode (lastSpawned sources) := by
  obtain ⟨result, executed⟩ := final_of_fresh permitted noMemo noCache
  obtain ⟨accepted, exit, late, output⟩ := attempt_of_permitted permitted (lastSpawned sources)
  have clean : Clean (setting.attempt command (lastSpawned sources)) ↔
      (lastSpawned sources).timedOut = false ∧
        showsInfraDeath (spawnedOutput (lastSpawned sources)) = false := by
    rw [← late, ← output]
    exact ⟨fun clean => ⟨clean.inTime, clean.alive⟩, fun both => ⟨both.1, both.2⟩⟩
  constructor
  · intro sound
    rw [result] at sound
    refine ⟨fun started expected => ?_, fun failed => ?_⟩
    · refine clean.mp (sound.expected ?_).2
      rw [Expected, exit, if_pos started]
      exact expected
    · by_contra both
      rw [not_or, Bool.not_eq_true, Bool.not_eq_true] at both
      have unexpected : ¬ Expected expectExitCode (setting.attempt command (lastSpawned sources)) := by
        rw [Expected, exit, failed]
        simp
      have started := sound.unexpected accepted unexpected (clean.mpr both)
      rw [executed, failed] at started
      cases started
  · intro sound
    rw [result]
    refine ⟨fun expected => ⟨permitted, ?_⟩, fun _ _ machine => ?_⟩
    · rw [Expected, exit] at expected
      cases started : (lastSpawned sources).started with
      | true =>
          rw [started, if_pos rfl] at expected
          exact clean.mpr (sound.exited started expected)
      | false =>
          rw [started] at expected
          cases expected
    · rw [executed]
      by_contra failed
      obtain ⟨inTime, alive⟩ := clean.mp machine
      rcases sound.failed (by simpa using failed) with late | dead
      · rw [late] at inTime
        cases inTime
      · rw [dead] at alive
        cases alive

/-- The verdict of a command criterion is as stated exactly when the result that decides is
sound.  For results of runs of its own this is a condition on the shell. -/
theorem verdictAsStated_iff (setting : CommandSetting) (command : JsString)
    (sources : CommandSources) (property : DesiredProperty) (now : Stamp) (id : JsString)
    (expectExitCode : Option Int) :
    (setting.VerdictAsStated command sources expectExitCode
        (setting.verify command sources property now id expectExitCode).evidence.outcome ↔
      (setting.Examined command →
        setting.ResultSound command sources expectExitCode (setting.finalResult command sources))) ∧
    (setting.Permitted command → sources.memo = none → sources.cache = none →
      (setting.VerdictAsStated command sources expectExitCode
          (setting.verify command sources property now id expectExitCode).evidence.outcome ↔
        (setting.Examined command → SpawnSound expectExitCode (lastSpawned sources)))) := by
  refine ⟨verdictAsStated_iff_resultSound property now id, fun permitted noMemo noCache => ?_⟩
  rw [verdictAsStated_iff_resultSound property now id,
    resultSound_fresh_iff permitted noMemo noCache]

/-! ## A runner that died with the expected exit code -/

def openCommands : CommandsConfig where
  network := .deny
  packageInstall := .approval
  migration := .approval
  deployment := .deny
  publish := .deny
  gitPush := .deny
  destructive := .deny
  unknown := .allow

def plainSetting : CommandSetting where
  digestOf := id
  cwd := js "/repo"
  config := openCommands
  context :=
    { runId := js "run-1"
      taskId := none
      repositoryRevision := js "HEAD"
      policy := fun _ => ⟨[], .allow, []⟩
      provider := none
      approvedCommands := []
      environmentReady := true
      red := false
      suiteProvenance := OrderedMap.empty }

/-- A shell that exits with 0 although a server could not be bound. -/
def boundElsewhere : Spawned where
  started := true
  exitCode := some (JsNumber.ofInt 0)
  signal := none
  stdout := js "Error: listen EADDRINUSE: address already in use :::3000"
  stderr := []
  stdoutDigest := []
  stderrDigest := []
  durationMs := JsNumber.ofNat 1
  timedOut := false

def plainSources : CommandSources where
  memo := none
  cache := none
  executionId := js "execution-1"
  first := boundElsewhere
  retryId := js "execution-2"
  second := boundElsewhere

def plainProperty : DesiredProperty where
  id := js "REQ-1"
  statement := js "It works."
  priority := .must
  dependsOn := []
  acceptance := []

theorem plainTime_ne_nil : js "2026-01-01T00:00:00.000Z" ≠ [] := by
  decide

def plainTime : Stamp :=
  ⟨js "2026-01-01T00:00:00.000Z", plainTime_ne_nil⟩

/-- A death of the machine supports a criterion. -/
theorem not_verdictAsStated :
    ¬ plainSetting.VerdictAsStated (js "vitest run") plainSources none
      (plainSetting.verify (js "vitest run") plainSources plainProperty plainTime (js "AC-1")
        none).evidence.outcome := by
  intro stated
  have policy : (evaluateCommandPolicy (js "vitest run") plainSetting.config).policy = .allow := by
    decide +kernel
  have examined : plainSetting.Examined (js "vitest run") := by
    refine ⟨fun both => ?_, rfl⟩
    rw [policy] at both
    cases both.1
  have sound := (verdictAsStated_iff_resultSound _ _ _).mp stated examined
  have alive := (((resultSound_fresh_iff (Or.inl policy) rfl rfl).mp sound).exited rfl rfl).2
  revert alive
  decide +kernel

end SpecAsCode.Verifier
