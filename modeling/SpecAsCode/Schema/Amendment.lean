import SpecAsCode.Schema.Plan

/-!
# Amendments

An amendment changes a plan by a list of operations.
-/

namespace SpecAsCode.Schema

open SpecAsCode.Js

inductive AmendmentOperation where
  | addTask (task : Task)
  | removeTask (taskId : JsString)
  | replaceTask (taskId : JsString) (task : Task)
  | addDependency (taskId dependsOnTaskId : JsString)
  | changeTarget (taskId : JsString) (targets : TaskTargets)
  deriving DecidableEq

/-- The task that an operation brings into the plan. -/
def AmendmentOperation.introduced : AmendmentOperation → Option Task
  | .addTask task => some task
  | .replaceTask _ task => some task
  | _ => none

/-- The tasks that an amendment adds or puts in the place of others. -/
def introducedTasks (operations : List AmendmentOperation) : List Task :=
  operations.filterMap AmendmentOperation.introduced

end SpecAsCode.Schema
