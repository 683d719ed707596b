import SpecAsCode.Core.Cycles
import SpecAsCode.Core.ValidatePlan
import SpecAsCode.Lib.History
import SpecAsCode.Schema.Amendment

/-!
# Applying amendments

The operations of an amendment act on the tasks of a plan one after another.  An operation that
is refused leaves the tasks alone, and then no plan is returned.
-/

namespace SpecAsCode.Core

open SpecAsCode.Js
open SpecAsCode.Lib
open SpecAsCode.Schema
open SpecAsCode.History

def ids (tasks : List Task) : List JsString :=
  tasks.map Task.id

/-! ## The operations -/

/-- SPC2013. -/
def executedTouched (id : JsString) : Diagnostic :=
  error (js "SPC2013")
    (js "amendment touches task " ++ id ++
      js ", which already executed; execution history is immutable.") none

/-- SPC2012, for the operations on one task. -/
def taskMissing (operation id : JsString) : Diagnostic :=
  error (js "SPC2012") (operation ++ js ": task " ++ id ++ js " not found.") none

/-- SPC2014. -/
def taskExists (operation id : JsString) : Diagnostic :=
  error (js "SPC2014") (operation ++ js ": task " ++ id ++ js " already exists.") none

/-- A dependent of a removed task loses that dependency. -/
def withoutDependency (id : JsString) (task : Task) : Task :=
  if id ∈ task.dependencies then
    { task with dependsOn := some (task.dependencies.filter fun dep => dep ≠ id) }
  else
    task

/-- A dependent of a replaced task depends on the replacement. -/
def renameDependency (id other : JsString) (task : Task) : Task :=
  if id ∈ task.dependencies then
    { task with
      dependsOn := some (once [] (task.dependencies.filter (fun dep => dep ≠ id) ++ [other])) }
  else
    task

/-- `[...new Set([...(t.dependsOn ?? []), dependsOnTaskId])]`. -/
def moreDependencies (task : Task) (dependsOnTaskId : JsString) : List JsString :=
  once [] (task.dependencies ++ [dependsOnTaskId])

/-- The edges of the tasks with one dependency more. -/
def edgesWith (tasks : List Task) (taskId dependsOnTaskId id : JsString) : List JsString :=
  if id = taskId then
    once [] (dependencyEdges tasks id ++ [dependsOnTaskId])
  else
    dependencyEdges tasks id

/-- Why an operation is refused, when it is. -/
def refusal (executed : List JsString) (tasks : List Task) :
    AmendmentOperation → Option Diagnostic
  | .addTask task =>
      if (taskById tasks task.id).isSome then
        some (taskExists (js "addTask") task.id)
      else
        none
  | .removeTask taskId =>
      if (taskById tasks taskId).isNone then
        some (taskMissing (js "removeTask") taskId)
      else if taskId ∈ executed then
        some (executedTouched taskId)
      else
        none
  | .replaceTask taskId replacement =>
      if (taskById tasks taskId).isNone then
        some (taskMissing (js "replaceTask") taskId)
      else if taskId ∈ executed then
        some (executedTouched taskId)
      else if replacement.id ≠ taskId ∧ (taskById tasks replacement.id).isSome then
        some (taskExists (js "replaceTask") replacement.id)
      else
        none
  | .addDependency taskId dependsOnTaskId =>
      if (taskById tasks taskId).isNone ∨ (taskById tasks dependsOnTaskId).isNone then
        some (error (js "SPC2012")
          (js "addDependency: " ++ taskId ++ js " or " ++ dependsOnTaskId ++ js " not found.") none)
      else if ((findCycle (graphFuel tasks) (ids tasks)
          (edgesWith tasks taskId dependsOnTaskId)).join).isSome then
        some (error (js "SPC2015")
          (js "addDependency " ++ taskId ++ js " -> " ++ dependsOnTaskId ++
            js " would create a cycle.") none)
      else
        none
  | .changeTarget taskId _ =>
      if (taskById tasks taskId).isNone then
        some (taskMissing (js "changeTarget") taskId)
      else if taskId ∈ executed then
        some (executedTouched taskId)
      else
        none

/-- What an operation that is not refused makes of the tasks. -/
def amendedTasks (tasks : List Task) : AmendmentOperation → List Task
  | .addTask task => tasks ++ [task]
  | .removeTask taskId =>
      (tasks.filter fun task => task.id ≠ taskId).map (withoutDependency taskId)
  | .replaceTask taskId replacement =>
      let replaced := tasks.map fun task => if task.id = taskId then replacement else task
      if replacement.id ≠ taskId then
        replaced.map (renameDependency taskId replacement.id)
      else
        replaced
  | .addDependency taskId dependsOnTaskId =>
      tasks.map fun task =>
        if task.id = taskId then
          { task with dependsOn := some (moreDependencies task dependsOnTaskId) }
        else
          task
  | .changeTarget taskId targets =>
      tasks.map fun task =>
        if task.id = taskId then { task with targets := some targets } else task

/-! ## The amendment -/

/-- The tasks and the diagnostics of the loop over the operations. -/
structure Amending where
  tasks : List Task
  diagnostics : List Diagnostic

def amendStep (executed : List JsString) (operation : AmendmentOperation) (state : Amending) :
    Amending :=
  match refusal executed state.tasks operation with
  | none => { state with tasks := amendedTasks state.tasks operation }
  | some diagnostic => { state with diagnostics := state.diagnostics ++ [diagnostic] }

structure AmendmentApplyResult where
  plan : Option Plan
  diagnostics : List Diagnostic

/-- `applyPlanAmendment`. -/
def applyPlanAmendment (plan : Plan) (operations : List AmendmentOperation)
    (executed : List JsString) : AmendmentApplyResult :=
  let amending := run (amendStep executed) operations ⟨plan.tasks, []⟩
  if amending.diagnostics ≠ [] then
    ⟨none, amending.diagnostics⟩
  else
    match (findCycle (graphFuel amending.tasks) (ids amending.tasks)
        (dependencyEdges amending.tasks)).join with
    | some cycle =>
        ⟨none, [error (js "SPC2015")
          (js "amendment produces a dependency cycle: " ++ joinTexts (js " -> ") cycle ++ js ".")
          none]⟩
    | none => ⟨some { plan with tasks := amending.tasks }, []⟩

end SpecAsCode.Core
