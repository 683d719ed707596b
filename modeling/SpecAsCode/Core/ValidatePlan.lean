import SpecAsCode.Core.Diagnostics
import SpecAsCode.Core.Glob
import SpecAsCode.Core.Graph
import SpecAsCode.Schema.Plan

/-!
# Validation of plans

`validatePlan` reports what is wrong with a plan; a plan is used when it reports no error.
-/

namespace SpecAsCode.Core

open SpecAsCode.Js
open SpecAsCode.Schema

/-! ## The dependency graph of a plan -/

/-- `byId.get(id)`: the first task with the identifier. -/
def taskById (tasks : List Task) (id : JsString) : Option Task :=
  tasks.find? fun task => task.id = id

/-- `byId.get(id)?.dependsOn ?? []`. -/
def dependencyEdges (tasks : List Task) (id : JsString) : List JsString :=
  ((taskById tasks id).map Task.dependencies).getD []

/-- A bound on the passes of the graph loops: the number of tasks and of dependencies. -/
def graphFuel (tasks : List Task) : Nat :=
  tasks.length + (tasks.map fun task => task.dependencies.length).sum +
    edgesLeft (dependencyEdges tasks) [] (tasks.map Task.id) + 1

/-- `reachableFrom(start, edges)`. -/
def dependenciesOf (tasks : List Task) (start : JsString) : List JsString :=
  (reachableFrom (graphFuel tasks) start (dependencyEdges tasks)).getD []

/-! ## The checks -/

/-- `/[*?[]/.test(raw)`. -/
def hasGlobCharacter (raw : JsString) : Bool :=
  raw.any fun code => code == unit '*' || code == unit '?' || code == unit '['

/-- `raw.replace(/\/+$/, "")`. -/
def withoutTrailingSlashes (raw : JsString) : JsString :=
  (raw.reverse.dropWhile fun code => code == slash).reverse

/-- SPC2016.  `isDirectory` is whether a path of the repository is a directory; it is missing
when there is no repository. -/
def bareDirectoryTargets (tasks : List Task) (isDirectory : Option (JsString → Bool)) :
    List Diagnostic :=
  match isDirectory with
  | none => []
  | some isDirectory =>
      tasks.flatMap fun task =>
        (task.writes.filter fun raw => !hasGlobCharacter raw && isDirectory raw).map fun raw =>
          error (js "SPC2016")
            (js "task " ++ task.id ++ js " write target \"" ++ raw ++
              js ("\" is a bare directory: it matches only the literal path under runtime glob" ++
                " enforcement, never its children - use the directory glob \"") ++
              withoutTrailingSlashes raw ++ js "/**\" instead.") none

/-- SPC2001, for the tasks after those with the given identifiers. -/
def duplicateIds : List JsString → List Task → List Diagnostic
  | _, [] => []
  | known, task :: rest =>
      (if task.id ∈ known then
        [error (js "SPC2001") (js "duplicate task id " ++ task.id ++ js ".") none]
      else
        []) ++ duplicateIds (known ++ [task.id]) rest

/-- SPC2002. -/
def unknownDependencies (tasks : List Task) : List Diagnostic :=
  tasks.flatMap fun task =>
    (task.dependencies.filter fun dep => (taskById tasks dep).isNone).map fun dep =>
      error (js "SPC2002")
        (js "task " ++ task.id ++ js " depends on unknown task " ++ dep ++ js ".")
        (some (sortUnique (tasks.map Task.id)))

/-- SPC2003. -/
def dependencyCycle (tasks : List Task) : List Diagnostic :=
  match (findCycle (graphFuel tasks) (tasks.map Task.id) (dependencyEdges tasks)).join with
  | none => []
  | some cycle =>
      [error (js "SPC2003")
        (js "task dependency cycle detected: " ++ joinTexts (js " -> ") cycle ++ js ".") none]

/-- SPC2004. -/
def unknownProperties (tasks : List Task) (properties : List DesiredProperty) : List Diagnostic :=
  tasks.flatMap fun task =>
    ((task.satisfies.getD [] ++ task.verifies.getD []).filter fun ref =>
      ref ∉ properties.map DesiredProperty.id).map fun ref =>
        error (js "SPC2004")
          (js "task " ++ task.id ++ js " references unknown property " ++ ref ++ js ".")
          (some (sortUnique (properties.map DesiredProperty.id)))

/-- SPC2005 and SPC2006. -/
def uncoveredProperties (tasks : List Task) (properties : List DesiredProperty) :
    List Diagnostic :=
  (properties.filter fun property => property.priority == .must).flatMap fun property =>
    let satisfying := tasks.filter fun task => (task.satisfies.getD []).contains property.id
    let verifying := tasks.filter fun task => (task.verifies.getD []).contains property.id
    (if satisfying.isEmpty && verifying.isEmpty then
      [error (js "SPC2005")
        (js "must-property " ++ property.id ++ js " (" ++ property.statement ++
          js ") is not addressed by any task (satisfies or verifies).") none]
    else
      []) ++
    (if verifying.isEmpty && !property.acceptance.any isDeterministicCriterion then
      [error (js "SPC2006")
        (js "must-property " ++ property.id ++
          js (" has no verification path: no verify task and no command/file acceptance" ++
            " criterion.")) none]
    else
      [])

/-- The pairs of a list, in the order of two nested loops. -/
def pairs {α : Type} : List α → List (α × α)
  | [] => []
  | first :: rest => rest.map (fun second => (first, second)) ++ pairs rest

/-- Some pattern the one task writes overlaps one the other task writes. -/
def writesOverlap (a b : List JsString) : Bool :=
  a.any fun first => b.any fun second => patternsOverlap first second

/-- One of the tasks depends on the other, directly or through tasks in between. -/
def ordered (tasks : List Task) (a b : Task) : Bool :=
  (dependenciesOf tasks b.id).contains a.id || (dependenciesOf tasks a.id).contains b.id

/-- The tasks overlap and nothing orders them. -/
def conflicting (tasks : List Task) (pair : Task × Task) : Bool :=
  writesOverlap pair.1.writes pair.2.writes && !ordered tasks pair.1 pair.2

/-- SPC2007. -/
def writeConflicts (tasks : List Task) : List Diagnostic :=
  ((pairs (tasks.filter fun task => task.writes ≠ [])).filter (conflicting tasks)).map fun pair =>
    error (js "SPC2007")
      (js "tasks " ++ pair.1.id ++ js " and " ++ pair.2.id ++
        js " have overlapping write targets but no ordering dependency between them.")
      (some ((pair.1.writes ++ pair.2.writes).insertionSort fun first second => first ≤ second))

/-- SPC2008 and SPC2009. -/
def specMismatches (plan : Plan) (ir : SpecIR) : List Diagnostic :=
  (if plan.spec.id ≠ ir.specId then
    [error (js "SPC2008")
      (js "plan references spec " ++ plan.spec.id ++ js " but was validated against " ++
        ir.specId ++ js ".") none]
  else
    []) ++
  (if plan.spec.digest ≠ ir.digest then
    [error (js "SPC2009")
      (js "plan records spec digest " ++ plan.spec.digest ++ js " but current spec digest is " ++
        ir.digest ++ js ".") none]
  else
    [])

/-- SPC2010. -/
def writingInspections (tasks : List Task) : List Diagnostic :=
  (tasks.filter fun task => task.kind == .inspect && task.writes ≠ []).map fun task =>
    error (js "SPC2010")
      (js "inspect task " ++ task.id ++ js " declares write targets; inspection is read-only.") none

/-- SPC2011.  Every pattern is a valid expression, because its characters are escaped. -/
def unsafeTargets (tasks : List Task) : List Diagnostic :=
  tasks.flatMap fun task =>
    ((task.reads ++ task.writes).filter fun pattern =>
      !isSafeRelativePath (normalizeRelPath pattern) &&
        normalizeRelPath pattern != js "**").map fun pattern =>
      error (js "SPC2011")
        (js "task " ++ task.id ++ js " target \"" ++ pattern ++
          js "\" is not a safe relative path pattern.") none

def validatePlan (plan : Plan) (ir : SpecIR) (isDirectory : Option (JsString → Bool)) :
    List Diagnostic :=
  bareDirectoryTargets plan.tasks isDirectory ++ duplicateIds [] plan.tasks ++
    unknownDependencies plan.tasks ++ dependencyCycle plan.tasks ++
    unknownProperties plan.tasks ir.properties ++ uncoveredProperties plan.tasks ir.properties ++
    writeConflicts plan.tasks ++ specMismatches plan ir ++ writingInspections plan.tasks ++
    unsafeTargets plan.tasks

/-- The callers use a plan that was reported without errors. -/
def planAccepted (plan : Plan) (ir : SpecIR) (isDirectory : Option (JsString → Bool)) : Bool :=
  !hasErrors (validatePlan plan ir isDirectory)

end SpecAsCode.Core
