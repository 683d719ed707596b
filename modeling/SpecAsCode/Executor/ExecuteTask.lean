import SpecAsCode.Executor.Enforce
import SpecAsCode.Executor.UnmediatedGuard
import SpecAsCode.Lib.History

/-!
# The execution of a task

`executeTask` asks the model for a change set until one passes every gate, and then writes it.  A
refusal that the model may correct is recorded before it is asked again.
-/

namespace SpecAsCode.Executor

open SpecAsCode.Js
open SpecAsCode.Core
open SpecAsCode.Text
open SpecAsCode.History

/-! ## Physical containment -/

/-- What `lstatSync` shows of the entries below a root: whether an entry is a symbolic link, or
nothing when it throws. -/
structure Entries where
  lstat : List JsString → Option Bool
  /-- Below an entry that cannot be looked at there is nothing to see. -/
  nested : ∀ entry part, lstat entry = none → lstat (entry ++ [part]) = none

/-- `path.join(current, part)`, for the parts of a safe path. -/
def joinPart (current : List JsString) (part : JsString) : List JsString :=
  if part = [] ∨ part = js "." then current else current ++ [part]

/-- The loop of `isPhysicallyContained`. -/
def containedFrom (entries : Entries) : List JsString → List JsString → Bool
  | _, [] => true
  | current, part :: rest =>
      match entries.lstat (joinPart current part) with
      | none => true
      | some isSymbolicLink =>
          !isSymbolicLink && containedFrom entries (joinPart current part) rest

def isPhysicallyContained (entries : Entries) (relPath : JsString) : Bool :=
  isSafeRelativePath relPath && containedFrom entries [] (segments relPath)

/-! ## The gates -/

/-- What the call is made with. -/
structure ExecuteInput where
  taskId : JsString
  attempt : Nat
  writeTargets : List JsString
  attribution : List AttributionWrite
  priorRecordedWork : Bool

/-- What the gates see of the worktree. -/
structure World where
  tree : Tree
  entries : Entries
  view : GitView
  attributionStoreExists : Bool

/-- What becomes of an answer. -/
inductive Verdict where
  | failed (code message : JsString)
  | refused (check : SubmissionCheck)
  | stageRejected (refusal : StageRefusal)
  | staged (changes : StagedChanges)

def ELIGIBLE_STAGE_CODES : List JsString :=
  [PATCH_BASE_MISSING, PATCH_BASE_MISMATCH, PATCH_ANCHOR_ABSENT, PATCH_ANCHOR_NOT_UNIQUE]

def STAGE_ROUND_BOUND : Nat := 3

/-- The check that is made of every path. -/
def unsafeChange (world : World) (change : ProposedChange) : Bool :=
  !isSafeRelativePath change.path || !isPhysicallyContained world.entries change.path

/-- The gates, in their order. -/
def judge (sha256Hex : List Octet → JsString) (input : ExecuteInput) (dispatchBaseline : JsString)
    (world : World) (changes : List ProposedChange) : Verdict :=
  match enforceWriteScope input.writeTargets (changes.map ProposedChange.path) with
  | violation :: _ => .failed violation.code (violation.code ++ js ": " ++ violation.reason)
  | [] =>
      match changes.find? (unsafeChange world) with
      | some change => .failed (js "UNSAFE_PATH") (js "UNSAFE_PATH: " ++ change.path)
      | none =>
          let submission := evaluateSubmission sha256Hex world.view
            { baselineRevision := dispatchBaseline
              writeTargets := input.writeTargets
              attribution := input.attribution
              attributionStoreExists := world.attributionStoreExists
              priorRecordedWork := input.priorRecordedWork
              protectedPatterns := [] }
          if submission.decision = .refuse then
            .refused submission
          else
            match stageChanges sha256Hex world.tree changes with
            | .error refusal =>
                if refusal.code ∈ ELIGIBLE_STAGE_CODES then .stageRejected refusal
                else .failed refusal.code refusal.message
            | .ok staged => .staged staged

/-! ## The loop -/

/-- What is seen of the calls for a task: dispatches, records in the event log, and what is done to
the worktree. -/
inductive AttemptEvent where
  | began (priorStageRejections : Nat)
  | dispatched (previousRejection : Option JsString)
  | submissionRefused (taskId : JsString) (attempt : Nat) (code : RefusalCode) (message : JsString)
      (paths : List JsString)
  | stageRejected (taskId : JsString) (attempt : Nat) (code message : JsString)
  | wrote (path : JsString)
  | removed (path : JsString)
  deriving DecidableEq

def AttemptEvent.isDispatch : AttemptEvent → Bool
  | .dispatched _ => true
  | _ => false

/-- What the loop keeps while it waits for an answer. -/
structure StagingCall where
  priorStageRejections : Nat
  stageRejections : Nat
  submissionRefusals : Nat
  dispatchBaseline : JsString
  deriving DecidableEq

inductive Reply where
  | threw
  | answered (changes : List ProposedChange) (world : World)

def unmediatedMessage : JsString :=
  js "unmediated changes under write targets"

/-- The record of a refusal by the submission guard. -/
def refusalRecord (input : ExecuteInput) (check : SubmissionCheck) : AttemptEvent :=
  .submissionRefused input.taskId input.attempt (check.code.getD .unmediatedChanges)
    (check.message.getD unmediatedMessage) check.unattributed

/-- What is done with an answer, and the call that waits for the next one. -/
def handle (input : ExecuteInput) (call : StagingCall) :
    Verdict → List AttemptEvent × Option StagingCall
  | .failed _ _ => ([], none)
  | .refused check =>
      if STAGE_ROUND_BOUND <
          call.priorStageRejections + call.stageRejections + (call.submissionRefusals + 1) then
        ([refusalRecord input check], none)
      else
        ([refusalRecord input check, .dispatched (some (check.message.getD unmediatedMessage))],
          some { call with submissionRefusals := call.submissionRefusals + 1 })
  | .stageRejected refusal =>
      if STAGE_ROUND_BOUND < call.priorStageRejections + (call.stageRejections + 1) then
        ([.stageRejected input.taskId input.attempt refusal.code refusal.message], none)
      else
        ([.stageRejected input.taskId input.attempt refusal.code refusal.message,
            .dispatched (some refusal.message)],
          some { call with stageRejections := call.stageRejections + 1 })
  | .staged changes =>
      (changes.writes.map (fun write => .wrote write.path) ++ changes.deletes.map .removed, none)

/-- `stagingRoundsFrom`. -/
def stagingRoundsFrom (events : List AttemptEvent) (taskId : JsString) (attempt : Nat) : Nat :=
  (events.filter fun event =>
    match event with
    | .stageRejected id number _ _ => id = taskId && number = attempt
    | _ => false).length

/-! ## Calls and crashes -/

/-- The calls that are made for an attempt at a task. -/
structure AttemptRun where
  log : List AttemptEvent
  call : Option StagingCall

inductive AttemptOp where
  /-- `executeTask` is called, also for an attempt that a crash has interrupted. -/
  | begin (dispatchBaseline : JsString)
  | reply (reply : Reply)
  /-- The process ends while it does what a reply asks for, after some of the events before the
  next dispatch. -/
  | crash (reply : Reply) (events : Nat)
  /-- Another attempt or another task records a refusal. -/
  | foreign (taskId : JsString) (attempt : Nat) (code message : JsString)

namespace AttemptRun

variable (sha256Hex : List Octet → JsString) (input : ExecuteInput)

/-- What a reply asks for. -/
def answer (call : StagingCall) : Reply → List AttemptEvent × Option StagingCall
  | .threw => ([], none)
  | .answered changes world =>
      handle input call (judge sha256Hex input call.dispatchBaseline world changes)

/-- The events that an operation adds, and the call that is under way after it. -/
def effect (op : AttemptOp) (run : AttemptRun) : List AttemptEvent × Option StagingCall :=
  match op, run.call with
  | .begin dispatchBaseline, none =>
      let prior := stagingRoundsFrom run.log input.taskId input.attempt
      ([.began prior, .dispatched none], some ⟨prior, 0, 0, dispatchBaseline⟩)
  | .reply reply, some call => answer sha256Hex input call reply
  | .crash reply events, some call =>
      (((answer sha256Hex input call reply).1.takeWhile fun event => !event.isDispatch).take events,
        none)
  | .foreign taskId attempt code message, call =>
      if taskId = input.taskId ∧ attempt = input.attempt then ([], call)
      else ([.stageRejected taskId attempt code message], call)
  | _, call => ([], call)

def act (op : AttemptOp) (run : AttemptRun) : AttemptRun where
  log := run.log ++ (run.effect sha256Hex input op).1
  call := (run.effect sha256Hex input op).2

def start : AttemptRun where
  log := []
  call := none

end AttemptRun

end SpecAsCode.Executor
