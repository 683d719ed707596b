import SpecAsCode.Js.OrderedMap
import SpecAsCode.Schema.Property

/-!
# States

The state of a run and of its tasks.
-/

namespace SpecAsCode.Schema

open SpecAsCode.Js

inductive TaskStatus where
  | pending
  | ready
  | running
  | completed
  | failed
  | blocked
  | needsReplan
  | skipped
  | cancelled
  deriving DecidableEq, Repr

/-- The status as the schema spells it. -/
def TaskStatus.text : TaskStatus → JsString
  | .pending => js "pending"
  | .ready => js "ready"
  | .running => js "running"
  | .completed => js "completed"
  | .failed => js "failed"
  | .blocked => js "blocked"
  | .needsReplan => js "needs_replan"
  | .skipped => js "skipped"
  | .cancelled => js "cancelled"

inductive RunStatus where
  | running
  | succeeded
  | partiallySatisfied
  | blocked
  | failed
  | cancelled
  | timedOut
  deriving DecidableEq, Repr

/-- The status as the schema spells it. -/
def RunStatus.text : RunStatus → JsString
  | .running => js "running"
  | .succeeded => js "succeeded"
  | .partiallySatisfied => js "partially_satisfied"
  | .blocked => js "blocked"
  | .failed => js "failed"
  | .cancelled => js "cancelled"
  | .timedOut => js "timed_out"

structure TaskFailure where
  code : JsString
  message : JsString
  deriving DecidableEq

structure TaskState where
  taskId : JsString
  status : TaskStatus
  attempt : Nat
  startedAt : Option JsString
  completedAt : Option JsString
  revision : Option JsString
  emptyDeltaAfterPriorFailure : Option Bool
  failure : Option TaskFailure
  deriving DecidableEq

inductive RunKind where
  | apply
  | verify
  deriving DecidableEq, Repr

def RunKind.text : RunKind → JsString
  | .apply => js "apply"
  | .verify => js "verify"

/-- The state of a run, as `state.json` holds it. -/
structure RunState where
  runId : JsString
  kind : RunKind
  specId : JsString
  specDigest : JsString
  planId : Option JsString
  planDigest : Option JsString
  status : RunStatus
  baseRevision : Option JsString
  resultRevision : Option JsString
  branch : Option JsString
  worktree : Option JsString
  createdAt : JsString
  updatedAt : JsString
  modelCalls : Nat
  replans : Nat
  tasks : OrderedMap JsString TaskState
  requirements : OrderedMap JsString RequirementState

end SpecAsCode.Schema
