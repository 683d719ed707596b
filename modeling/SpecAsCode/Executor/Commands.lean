import SpecAsCode.Js.Regex
import SpecAsCode.Verifier.Criteria

/-!
# Command policy

Every command is put in a category by its text, and the configuration decides category by
category whether a command may run.
-/

namespace SpecAsCode.Executor

open SpecAsCode.Js
open SpecAsCode.Verifier (CommandRunResult PolicyValue)

inductive CommandCategory where
  | inspect
  | build
  | test
  | lint
  | typecheck
  | packageInstall
  | network
  | publish
  | gitPush
  | deployment
  | migration
  | destructive
  | unknown
  deriving DecidableEq, Repr

def CommandCategory.text : CommandCategory → JsString
  | .inspect => js "inspect"
  | .build => js "build"
  | .test => js "test"
  | .lint => js "lint"
  | .typecheck => js "typecheck"
  | .packageInstall => js "packageInstall"
  | .network => js "network"
  | .publish => js "publish"
  | .gitPush => js "gitPush"
  | .deployment => js "deployment"
  | .migration => js "migration"
  | .destructive => js "destructive"
  | .unknown => js "unknown"

/-! ## Classification -/

section Patterns

open Regex

/-- `(npm|pnpm|yarn|bun)`. -/
def packageManager : Regex :=
  words ["npm", "pnpm", "yarn", "bun"]

/-- `(run\s+)?`. -/
def optionalRun : Regex :=
  optional (seq (literal (js "run")) spaces)

/-- Matched without regard to case. -/
def destructivePattern : Regex :=
  all [before,
    any [
      all [literal (js "rm"), spaces,
        alt
          (all [literal (js "-"), star letter, literal (js "r"), star letter, literal (js "f")])
          (all [literal (js "-"), star letter, literal (js "f"), star letter, literal (js "r")])],
      literal (js "mkfs"),
      all [literal (js "dd"), spaces, literal (js "if=")],
      all [literal (js "git"), spaces,
        any [pair "push" "--force", pair "reset" "--hard", pair "clean" "-fd"]],
      all [literal (js "drop"), spaces, words ["table", "database"]],
      literal (js "shutdown"),
      literal (js "reboot")],
    after]

def gitPushPattern : Regex :=
  all [start, pair "git" "push", after]

def publishPattern : Regex :=
  alt
    (all [before, packageManager, spaces, words ["publish", "release"], after])
    (all [before, any [pair "cargo" "publish", pair "twine" "upload"], after])

def deploymentPattern : Regex :=
  all [before,
    any [literal (js "kubectl"), literal (js "helm"), pair "terraform" "apply",
      pair "serverless" "deploy", pair "vercel" "deploy", pair "netlify" "deploy"],
    after]

def migrationPattern : Regex :=
  any [all [before, literal (js "migrate"), after], pair "prisma" "migrate",
    pair "rails" "db:migrate", pair "typeorm" "migration"]

def packageInstallPattern : Regex :=
  any [
    all [start, packageManager, spaces,
      words ["install", "i", "add", "remove", "rm", "update", "upgrade", "ci"], after],
    all [start, words ["pip", "pip3"], spaces, literal (js "install"), after],
    all [start, words ["cargo", "go"], spaces, words ["add", "get"], after]]

def networkPattern : Regex :=
  alt
    (all [start,
      words ["curl", "wget", "ssh", "scp", "rsync", "ftp", "telnet", "nc", "netcat"], after])
    (all [literal (js "http"), optional (literal (js "s")), literal (js "://")])

/-- `[\w:.:-]`. -/
def scriptName : Regex :=
  one fun code => (unit 'a' ≤ code && code ≤ unit 'z') || (unit 'A' ≤ code && code ≤ unit 'Z') ||
    (unit '0' ≤ code && code ≤ unit '9') || code == unit '_' || code == unit ':' ||
    code == unit '.' || code == unit '-'

def testPattern : Regex :=
  any [
    all [before,
      any [pair "node" "--test", literal (js "vitest"), literal (js "jest"), literal (js "mocha"),
        literal (js "pytest"), pair "go" "test", pair "cargo" "test", pair "ruby" "-Itest"],
      after],
    all [start, packageManager, spaces, optionalRun, literal (js "test"), after],
    all [start, packageManager, spaces, literal (js "run"), spaces, star scriptName,
      literal (js "test"), after]]

def typecheckPattern : Regex :=
  alt
    (all [before,
      any [pair "tsc" "--noEmit", literal (js "pyright"), literal (js "mypy"), literal (js "flow")],
      after])
    (all [start, packageManager, spaces, optionalRun, words ["typecheck", "tsc"], after])

def buildPattern : Regex :=
  alt
    (all [start, packageManager, spaces, optionalRun, literal (js "build"), after])
    (all [start,
      any [literal (js "make"), pair "cargo" "build", pair "go" "build", literal (js "gradle")],
      after])

def lintPattern : Regex :=
  alt
    (all [before, words ["eslint", "biome", "ruff", "flake8", "rubocop", "golangci-lint"], after])
    (all [start, packageManager, spaces, optionalRun, literal (js "lint"), after])

def inspectPattern : Regex :=
  all [start,
    words ["git", "ls", "cat", "head", "tail", "grep", "rg", "find", "fd", "wc", "stat", "file",
      "du", "which", "env", "pwd"],
    after]

end Patterns

/-- `CATEGORY_PATTERNS`, as tests of the trimmed command. -/
def categoryPatterns : List (CommandCategory × (JsString → Bool)) :=
  [(.destructive, fun command => destructivePattern.test (command.map Verifier.lowerAscii)),
    (.gitPush, gitPushPattern.test),
    (.publish, publishPattern.test),
    (.deployment, deploymentPattern.test),
    (.migration, migrationPattern.test),
    (.packageInstall, packageInstallPattern.test),
    (.network, networkPattern.test),
    (.test, testPattern.test),
    (.typecheck, typecheckPattern.test),
    (.build, buildPattern.test),
    (.lint, lintPattern.test),
    (.inspect, inspectPattern.test)]

def classifyCommand (command : JsString) : CommandCategory :=
  ((categoryPatterns.find? fun entry => entry.2 (trim command)).map Prod.fst).getD .unknown

example : classifyCommand (js "pnpm --filter core exec vitest run") = .test := by
  decide +kernel

/-! ## Policy -/

structure CommandsConfig where
  network : PolicyValue
  packageInstall : PolicyValue
  migration : PolicyValue
  deployment : PolicyValue
  publish : PolicyValue
  gitPush : PolicyValue
  destructive : PolicyValue
  unknown : PolicyValue
  deriving DecidableEq

/-- `config[POLICY_KEY[category]]`, for the categories that have a key. -/
def CommandsConfig.policyOf (config : CommandsConfig) : CommandCategory → Option PolicyValue
  | .network => some config.network
  | .packageInstall => some config.packageInstall
  | .migration => some config.migration
  | .deployment => some config.deployment
  | .publish => some config.publish
  | .gitPush => some config.gitPush
  | .destructive => some config.destructive
  | .unknown => some config.unknown
  | _ => none

/-- `{ ...config, [category]: "allow" }`. -/
def CommandsConfig.allowing (config : CommandsConfig) : CommandCategory → CommandsConfig
  | .network => { config with network := .allow }
  | .packageInstall => { config with packageInstall := .allow }
  | .migration => { config with migration := .allow }
  | .deployment => { config with deployment := .allow }
  | .publish => { config with publish := .allow }
  | .gitPush => { config with gitPush := .allow }
  | .destructive => { config with destructive := .allow }
  | .unknown => { config with unknown := .allow }
  | _ => config

structure CommandDecision where
  category : CommandCategory
  policy : PolicyValue
  allowed : Bool
  reason : JsString

def evaluateCommandPolicy (command : JsString) (config : CommandsConfig) : CommandDecision :=
  let category := classifyCommand command
  match config.policyOf category with
  | none => ⟨category, .allow, true, category.text ++ js " commands are allowed by default"⟩
  | some .allow =>
      ⟨category, .allow, true, category.text ++ js " commands are allowed by configuration"⟩
  | some .approval =>
      ⟨category, .approval, false, category.text ++
        js " commands require approval; V0 has no interactive approval, configure \"commands." ++
        category.text ++ js ": allow\" if this is intended"⟩
  | some .deny =>
      ⟨category, .deny, false, category.text ++ js " commands are denied by configuration"⟩

/-! ## Runs -/

/-- How a spawned shell ends: with its exit, or with the error that it could not be started.
The outputs are the ones that are recorded, cut to the limit and with secrets redacted. -/
structure Spawned where
  started : Bool
  exitCode : Option JsNumber
  signal : Option JsString
  stdout : JsString
  stderr : JsString
  stdoutDigest : JsString
  stderrDigest : JsString
  durationMs : JsNumber
  timedOut : Bool

/-- `runCommand`. -/
def runCommand (digestOf : JsString → JsString) (command cwd : JsString) (config : CommandsConfig)
    (spawned : Spawned) : CommandRunResult :=
  let decision := evaluateCommandPolicy command config
  if decision.allowed then
    { command := command
      cwd := cwd
      exitCode := if spawned.started then spawned.exitCode else none
      stdout := spawned.stdout
      stderr := spawned.stderr
      stdoutDigest := spawned.stdoutDigest
      stderrDigest := spawned.stderrDigest
      durationMs := some spawned.durationMs
      timedOut := spawned.timedOut
      signal := if spawned.started then spawned.signal else none
      allowed := true
      deniedReason := none }
  else
    { command := command
      cwd := cwd
      exitCode := none
      stdout := []
      stderr := decision.reason
      stdoutDigest := digestOf []
      stderrDigest := digestOf decision.reason
      durationMs := some (JsNumber.ofNat 0)
      timedOut := false
      signal := none
      allowed := false
      deniedReason := some decision.reason }

/-! ## What is decided -/

/-- The policy that is in force for a command: the one of its category, or to allow it. -/
theorem evaluateCommandPolicy_policy (command : JsString) (config : CommandsConfig) :
    (evaluateCommandPolicy command config).policy =
      (config.policyOf (classifyCommand command)).getD .allow := by
  rw [evaluateCommandPolicy]
  cases config.policyOf (classifyCommand command) with
  | none => rfl
  | some policy => cases policy <;> rfl

theorem evaluateCommandPolicy_category (command : JsString) (config : CommandsConfig) :
    (evaluateCommandPolicy command config).category = classifyCommand command := by
  rw [evaluateCommandPolicy]
  cases config.policyOf (classifyCommand command) with
  | none => rfl
  | some policy => cases policy <;> rfl

/-- A command is allowed if and only if its policy is to allow it. -/
theorem evaluateCommandPolicy_allowed (command : JsString) (config : CommandsConfig) :
    (evaluateCommandPolicy command config).allowed = true ↔
      (evaluateCommandPolicy command config).policy = .allow := by
  rw [evaluateCommandPolicy]
  cases config.policyOf (classifyCommand command) with
  | none => exact iff_of_true rfl rfl
  | some policy => cases policy <;> simp

theorem policyOf_allowing (config : CommandsConfig) (category : CommandCategory) :
    ((config.allowing category).policyOf category).getD .allow = .allow := by
  cases category <;> rfl

/-- An approved category is allowed. -/
theorem allowed_allowing (command : JsString) (config : CommandsConfig) :
    (evaluateCommandPolicy command (config.allowing (classifyCommand command))).allowed = true := by
  rw [evaluateCommandPolicy_allowed, evaluateCommandPolicy_policy, policyOf_allowing]

end SpecAsCode.Executor
