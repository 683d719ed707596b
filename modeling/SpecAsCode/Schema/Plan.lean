import SpecAsCode.Schema.Property

/-!
# Plans

A plan lists the tasks that lead from a repository to the properties of a
specification.
-/

namespace SpecAsCode.Schema

open SpecAsCode.Js

inductive TaskKind where
  | inspect
  | modify
  | test
  | verify
  | cleanup
  deriving DecidableEq, Repr

inductive Risk where
  | low
  | medium
  | high
  deriving DecidableEq, Repr

/-- The path patterns a task reads and writes. -/
structure TaskTargets where
  read : Option (List JsString)
  write : Option (List JsString)
  deriving DecidableEq

structure Task where
  id : JsString
  title : JsString
  kind : TaskKind
  intent : JsString
  dependsOn : Option (List JsString)
  satisfies : Option (List JsString)
  verifies : Option (List JsString)
  targets : Option TaskTargets
  risk : Option Risk
  deriving DecidableEq

/-- `t.targets?.write ?? []`. -/
def Task.writes (task : Task) : List JsString :=
  (task.targets.bind TaskTargets.write).getD []

/-- `t.targets?.read ?? []`. -/
def Task.reads (task : Task) : List JsString :=
  (task.targets.bind TaskTargets.read).getD []

/-- `t.dependsOn ?? []`. -/
def Task.dependencies (task : Task) : List JsString :=
  task.dependsOn.getD []

/-- The specification a plan was made for. -/
structure PlanSpec where
  id : JsString
  digest : JsString
  deriving DecidableEq

structure Plan where
  id : JsString
  spec : PlanSpec
  tasks : List Task
  deriving DecidableEq

/-- What the compiler makes of a specification. -/
structure SpecIR where
  specId : JsString
  digest : JsString
  properties : List DesiredProperty

end SpecAsCode.Schema
