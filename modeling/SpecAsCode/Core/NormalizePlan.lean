import SpecAsCode.Core.SpecDigest
import SpecAsCode.Schema.Followup
import SpecAsCode.Schema.Plan

/-!
# Normalization of plans

The lists of a plan that stand for sets are sorted before the plan is hashed; a list that is
missing stays missing.
-/

namespace SpecAsCode.Compiler

open SpecAsCode.Js
open SpecAsCode.Core
open SpecAsCode.Schema (FollowUpDraft FollowUpOption FollowUpType PlanSpec Risk Task TaskKind
  TaskTargets)

structure GeneratedBy where
  provider : JsString
  model : Option JsString
  deriving DecidableEq

structure PlanMetadata where
  id : JsString
  title : Option JsString
  createdAt : JsString
  generatedBy : Option GeneratedBy
  deriving DecidableEq

structure PlanRepository where
  revision : JsString
  snapshotDigest : JsString
  deriving DecidableEq

/-- A plan with all its fields. -/
structure PlanDocument where
  metadata : PlanMetadata
  spec : PlanSpec
  repository : PlanRepository
  tasks : List Task
  assumptions : Option (List JsString)
  followups : Option (List FollowUpDraft)
  deriving DecidableEq

/-- The part of a plan that its validation reads. -/
def PlanDocument.plan (document : PlanDocument) : Schema.Plan where
  id := document.metadata.id
  spec := document.spec
  tasks := document.tasks

/-! ## Normalization -/

def normalizeTargets (targets : TaskTargets) : TaskTargets where
  read := targets.read.map sortUnique
  write := targets.write.map sortUnique

def normalizeTask (task : Task) : Task :=
  { task with
    dependsOn := task.dependsOn.map sortUnique
    satisfies := task.satisfies.map sortUnique
    verifies := task.verifies.map sortUnique
    targets := task.targets.map normalizeTargets }

def normalizePlan (document : PlanDocument) : PlanDocument :=
  { document with tasks := document.tasks.map normalizeTask }

/-! ## Plans that say the same -/

structure SameTargets (first second : TaskTargets) : Prop where
  read : Option.Rel SameSet first.read second.read
  write : Option.Rel SameSet first.write second.write

structure SameTask (first second : Task) : Prop where
  id : first.id = second.id
  title : first.title = second.title
  kind : first.kind = second.kind
  intent : first.intent = second.intent
  dependsOn : Option.Rel SameSet first.dependsOn second.dependsOn
  satisfies : Option.Rel SameSet first.satisfies second.satisfies
  verifies : Option.Rel SameSet first.verifies second.verifies
  targets : Option.Rel SameTargets first.targets second.targets
  risk : first.risk = second.risk

/-- The plans are equal after the lists of their tasks are read as sets. -/
structure PlanDocument.Same (first second : PlanDocument) : Prop where
  metadata : first.metadata = second.metadata
  spec : first.spec = second.spec
  repository : first.repository = second.repository
  tasks : List.Forall₂ SameTask first.tasks second.tasks
  assumptions : first.assumptions = second.assumptions
  followups : first.followups = second.followups

theorem map_eq_map_iff_rel {α β : Type} {Same : α → α → Prop} {normalize : α → β}
    (equal : ∀ first second, normalize first = normalize second ↔ Same first second)
    (first second : Option α) :
    first.map normalize = second.map normalize ↔ Option.Rel Same first second := by
  cases first with
  | none =>
      cases second with
      | none => exact iff_of_true rfl .none
      | some other => exact iff_of_false (by simp) (by rintro ⟨⟩)
  | some item =>
      cases second with
      | none => exact iff_of_false (by simp) (by rintro ⟨⟩)
      | some other =>
          rw [Option.map_some, Option.map_some, Option.some.injEq, Option.rel_some_some, equal]

theorem map_sortUnique_eq_iff (first second : Option (List JsString)) :
    first.map sortUnique = second.map sortUnique ↔ Option.Rel SameSet first second :=
  map_eq_map_iff_rel (fun _ _ => sortUnique_eq_iff) first second

theorem normalizeTargets_eq_iff (first second : TaskTargets) :
    normalizeTargets first = normalizeTargets second ↔ SameTargets first second := by
  rw [normalizeTargets, normalizeTargets, TaskTargets.mk.injEq, map_sortUnique_eq_iff,
    map_sortUnique_eq_iff]
  constructor
  · rintro ⟨read, write⟩
    exact ⟨read, write⟩
  · rintro ⟨read, write⟩
    exact ⟨read, write⟩

theorem normalizeTask_eq_iff (first second : Task) :
    normalizeTask first = normalizeTask second ↔ SameTask first second := by
  simp only [normalizeTask, Task.mk.injEq, map_sortUnique_eq_iff,
    map_eq_map_iff_rel normalizeTargets_eq_iff]
  constructor
  · rintro ⟨id, title, kind, intent, dependsOn, satisfies, verifies, targets, risk⟩
    exact ⟨id, title, kind, intent, dependsOn, satisfies, verifies, targets, risk⟩
  · rintro ⟨id, title, kind, intent, dependsOn, satisfies, verifies, targets, risk⟩
    exact ⟨id, title, kind, intent, dependsOn, satisfies, verifies, targets, risk⟩

/-- Normalized plans are equal exactly when the plans say the same. -/
theorem normalizePlan_eq_iff (first second : PlanDocument) :
    normalizePlan first = normalizePlan second ↔ first.Same second := by
  simp only [normalizePlan, PlanDocument.mk.injEq, map_eq_map_iff_forall₂ normalizeTask_eq_iff]
  constructor
  · rintro ⟨metadata, spec, repository, tasks, assumptions, followups⟩
    exact ⟨metadata, spec, repository, tasks, assumptions, followups⟩
  · rintro ⟨metadata, spec, repository, tasks, assumptions, followups⟩
    exact ⟨metadata, spec, repository, tasks, assumptions, followups⟩

theorem map_sortUnique_map_sortUnique (texts : Option (List JsString)) :
    (texts.map sortUnique).map sortUnique = texts.map sortUnique := by
  cases texts <;> simp

theorem normalizeTask_normalizeTask (task : Task) :
    normalizeTask (normalizeTask task) = normalizeTask task := by
  obtain ⟨id, title, kind, intent, dependsOn, satisfies, verifies, targets, risk⟩ := task
  cases targets <;>
    simp [normalizeTask, normalizeTargets, Function.comp_def]

theorem normalizePlan_normalizePlan (document : PlanDocument) :
    normalizePlan (normalizePlan document) = normalizePlan document := by
  simp [normalizePlan, Function.comp_def, normalizeTask_normalizeTask]

end SpecAsCode.Compiler
