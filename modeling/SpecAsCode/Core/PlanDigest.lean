import SpecAsCode.Core.NormalizePlan

/-!
# What the digests keep

The digest of a plan, and what the digests of specifications and plans tell apart.
-/

namespace SpecAsCode.Compiler

open SpecAsCode.Js
open SpecAsCode.Core
open SpecAsCode.Schema (FollowUpDraft FollowUpOption FollowUpType PlanSpec Risk Task TaskKind
  TaskTargets)

/-! ## Enumerations -/

def taskKindText : TaskKind → JsString
  | .inspect => js "inspect"
  | .modify => js "modify"
  | .test => js "test"
  | .verify => js "verify"
  | .cleanup => js "cleanup"

def riskText : Risk → JsString
  | .low => js "low"
  | .medium => js "medium"
  | .high => js "high"

theorem taskKindText_injective : Function.Injective taskKindText := by
  intro first second equal
  cases first <;> cases second <;> first | rfl | exact absurd equal (by decide)

theorem riskText_injective : Function.Injective riskText := by
  intro first second equal
  cases first <;> cases second <;> first | rfl | exact absurd equal (by decide)

theorem followUpTypeText_injective : Function.Injective FollowUpType.text := by
  intro first second equal
  cases first <;> cases second <;> first | rfl | exact absurd equal (by decide)

/-! ## Tasks -/

def targetFields : List (RecordField TaskTargets) :=
  [.optional (js "read") TaskTargets.read texts,
    .optional (js "write") TaskTargets.write texts]

theorem targetKeys : RecordKeys targetFields :=
  ⟨by decide, by decide⟩

theorem same_targets (first second : TaskTargets) :
    (∀ field ∈ targetFields, field.Same first second) ↔ first = second := by
  obtain ⟨read, write⟩ := first
  obtain ⟨otherRead, otherWrite⟩ := second
  simp [targetFields, RecordField.optional, optionRel_eq_iff]

def targets : Encoder TaskTargets (· = ·) :=
  (Encoder.record targetFields targetKeys).reading same_targets

theorem strict_targets : targets.Strict :=
  (Encoder.strict_record targetKeys fun field member => by
    simp only [targetFields, List.mem_cons, List.not_mem_nil, or_false] at member
    rcases member with rfl | rfl
    · exact RecordField.strict_optional strict_texts _ _
    · exact RecordField.strict_optional strict_texts _ _).reading same_targets

def taskFields : List (RecordField Task) :=
  [.required (js "id") Task.id .text,
    .required (js "title") Task.title .text,
    .required (js "kind") Task.kind (.enumeration _ taskKindText_injective),
    .required (js "intent") Task.intent .text,
    .optional (js "dependsOn") Task.dependsOn texts,
    .optional (js "satisfies") Task.satisfies texts,
    .optional (js "verifies") Task.verifies texts,
    .optional (js "targets") Task.targets targets,
    .optional (js "risk") Task.risk (.enumeration _ riskText_injective)]

theorem taskKeys : RecordKeys taskFields :=
  ⟨by decide, by decide⟩

theorem same_task (first second : Task) :
    (∀ field ∈ taskFields, field.Same first second) ↔ first = second := by
  obtain ⟨id, title, kind, intent, dependsOn, satisfies, verifies, targets, risk⟩ := first
  simp only [taskFields, RecordField.required, RecordField.optional, List.forall_mem_cons,
    optionRel_eq_iff]
  constructor
  · rintro ⟨rfl, rfl, rfl, rfl, rfl, rfl, rfl, rfl, rfl, -⟩
    rfl
  · rintro rfl
    simp

def task : Encoder Task (· = ·) :=
  (Encoder.record taskFields taskKeys).reading same_task

theorem strict_task : task.Strict :=
  (Encoder.strict_record taskKeys fun field member => by
    simp only [taskFields, List.mem_cons, List.not_mem_nil, or_false] at member
    rcases member with rfl | rfl | rfl | rfl | rfl | rfl | rfl | rfl | rfl
    · exact RecordField.strict_required Encoder.strict_text _ _
    · exact RecordField.strict_required Encoder.strict_text _ _
    · exact RecordField.strict_required (Encoder.strict_enumeration _) _ _
    · exact RecordField.strict_required Encoder.strict_text _ _
    · exact RecordField.strict_optional strict_texts _ _
    · exact RecordField.strict_optional strict_texts _ _
    · exact RecordField.strict_optional strict_texts _ _
    · exact RecordField.strict_optional strict_targets _ _
    · exact RecordField.strict_optional (Encoder.strict_enumeration _) _ _).reading same_task

/-! ## Follow-ups -/

def optionFields : List (RecordField FollowUpOption) :=
  [.required (js "id") FollowUpOption.id .text,
    .required (js "description") FollowUpOption.description .text]

theorem optionKeys : RecordKeys optionFields :=
  ⟨by decide, by decide⟩

theorem same_option (first second : FollowUpOption) :
    (∀ field ∈ optionFields, field.Same first second) ↔ first = second := by
  obtain ⟨id, description⟩ := first
  obtain ⟨otherId, otherDescription⟩ := second
  simp [optionFields, RecordField.required]

def followUpOption : Encoder FollowUpOption (· = ·) :=
  (Encoder.record optionFields optionKeys).reading same_option

theorem strict_followUpOption : followUpOption.Strict :=
  (Encoder.strict_record optionKeys fun field member => by
    simp only [optionFields, List.mem_cons, List.not_mem_nil, or_false] at member
    rcases member with rfl | rfl
    · exact RecordField.strict_required Encoder.strict_text _ _
    · exact RecordField.strict_required Encoder.strict_text _ _).reading same_option

def draftFields : List (RecordField FollowUpDraft) :=
  [.required (js "type") FollowUpDraft.type (.enumeration _ followUpTypeText_injective),
    .required (js "blocking") FollowUpDraft.blocking .flag,
    .required (js "title") FollowUpDraft.title .text,
    .required (js "description") FollowUpDraft.description .text,
    .optional (js "propertyId") FollowUpDraft.propertyId .text,
    .optional (js "taskId") FollowUpDraft.taskId .text,
    .optional (js "options") FollowUpDraft.options followUpOption.array,
    .optional (js "recommendedDefault") FollowUpDraft.recommendedDefault .text,
    .optional (js "criterionId") FollowUpDraft.criterionId .text,
    .optional (js "command") FollowUpDraft.command .text]

theorem draftKeys : RecordKeys draftFields :=
  ⟨by decide, by decide⟩

theorem same_draft (first second : FollowUpDraft) :
    (∀ field ∈ draftFields, field.Same first second) ↔ first = second := by
  obtain ⟨type, blocking, title, description, propertyId, taskId, options, recommended,
    criterionId, command⟩ := first
  simp only [draftFields, RecordField.required, RecordField.optional, List.forall_mem_cons,
    optionRel_eq_iff]
  constructor
  · rintro ⟨rfl, rfl, rfl, rfl, rfl, rfl, rfl, rfl, rfl, rfl, -⟩
    rfl
  · rintro rfl
    simp

def followUpDraft : Encoder FollowUpDraft (· = ·) :=
  (Encoder.record draftFields draftKeys).reading same_draft

theorem strict_followUpDraft : followUpDraft.Strict :=
  (Encoder.strict_record draftKeys fun field member => by
    simp only [draftFields, List.mem_cons, List.not_mem_nil, or_false] at member
    rcases member with rfl | rfl | rfl | rfl | rfl | rfl | rfl | rfl | rfl | rfl
    · exact RecordField.strict_required (Encoder.strict_enumeration _) _ _
    · exact RecordField.strict_required Encoder.strict_flag _ _
    · exact RecordField.strict_required Encoder.strict_text _ _
    · exact RecordField.strict_required Encoder.strict_text _ _
    · exact RecordField.strict_optional Encoder.strict_text _ _
    · exact RecordField.strict_optional Encoder.strict_text _ _
    · exact RecordField.strict_optional strict_followUpOption.array _ _
    · exact RecordField.strict_optional Encoder.strict_text _ _
    · exact RecordField.strict_optional Encoder.strict_text _ _
    · exact RecordField.strict_optional Encoder.strict_text _ _).reading same_draft

/-! ## Plans -/

def generatorFields : List (RecordField GeneratedBy) :=
  [.required (js "provider") GeneratedBy.provider .text,
    .optional (js "model") GeneratedBy.model .text]

theorem generatorKeys : RecordKeys generatorFields :=
  ⟨by decide, by decide⟩

theorem same_generator (first second : GeneratedBy) :
    (∀ field ∈ generatorFields, field.Same first second) ↔ first = second := by
  obtain ⟨provider, model⟩ := first
  obtain ⟨otherProvider, otherModel⟩ := second
  simp [generatorFields, RecordField.required, RecordField.optional, optionRel_eq_iff]

def generatedBy : Encoder GeneratedBy (· = ·) :=
  (Encoder.record generatorFields generatorKeys).reading same_generator

theorem strict_generatedBy : generatedBy.Strict :=
  (Encoder.strict_record generatorKeys fun field member => by
    simp only [generatorFields, List.mem_cons, List.not_mem_nil, or_false] at member
    rcases member with rfl | rfl
    · exact RecordField.strict_required Encoder.strict_text _ _
    · exact RecordField.strict_optional Encoder.strict_text _ _).reading same_generator

def planMetadataFields : List (RecordField PlanMetadata) :=
  [.required (js "id") PlanMetadata.id .text,
    .optional (js "title") PlanMetadata.title .text,
    .required (js "createdAt") PlanMetadata.createdAt .text,
    .optional (js "generatedBy") PlanMetadata.generatedBy generatedBy]

theorem planMetadataKeys : RecordKeys planMetadataFields :=
  ⟨by decide, by decide⟩

theorem same_planMetadata (first second : PlanMetadata) :
    (∀ field ∈ planMetadataFields, field.Same first second) ↔ first = second := by
  obtain ⟨id, title, createdAt, generatedBy⟩ := first
  obtain ⟨otherId, otherTitle, otherCreatedAt, otherGenerator⟩ := second
  simp [planMetadataFields, RecordField.required, RecordField.optional, optionRel_eq_iff]

def planMetadata : Encoder PlanMetadata (· = ·) :=
  (Encoder.record planMetadataFields planMetadataKeys).reading same_planMetadata

theorem strict_planMetadata : planMetadata.Strict :=
  (Encoder.strict_record planMetadataKeys fun field member => by
    simp only [planMetadataFields, List.mem_cons, List.not_mem_nil, or_false] at member
    rcases member with rfl | rfl | rfl | rfl
    · exact RecordField.strict_required Encoder.strict_text _ _
    · exact RecordField.strict_optional Encoder.strict_text _ _
    · exact RecordField.strict_required Encoder.strict_text _ _
    · exact RecordField.strict_optional strict_generatedBy _ _).reading same_planMetadata

def planSpecFields : List (RecordField PlanSpec) :=
  [.required (js "id") PlanSpec.id .text, .required (js "digest") PlanSpec.digest .text]

theorem planSpecKeys : RecordKeys planSpecFields :=
  ⟨by decide, by decide⟩

theorem same_planSpec (first second : PlanSpec) :
    (∀ field ∈ planSpecFields, field.Same first second) ↔ first = second := by
  obtain ⟨id, digest⟩ := first
  obtain ⟨otherId, otherDigest⟩ := second
  simp [planSpecFields, RecordField.required]

def planSpec : Encoder PlanSpec (· = ·) :=
  (Encoder.record planSpecFields planSpecKeys).reading same_planSpec

theorem strict_planSpec : planSpec.Strict :=
  (Encoder.strict_record planSpecKeys fun field member => by
    simp only [planSpecFields, List.mem_cons, List.not_mem_nil, or_false] at member
    rcases member with rfl | rfl
    · exact RecordField.strict_required Encoder.strict_text _ _
    · exact RecordField.strict_required Encoder.strict_text _ _).reading same_planSpec

def repositoryFields : List (RecordField PlanRepository) :=
  [.required (js "revision") PlanRepository.revision .text,
    .required (js "snapshotDigest") PlanRepository.snapshotDigest .text]

theorem repositoryKeys : RecordKeys repositoryFields :=
  ⟨by decide, by decide⟩

theorem same_repository (first second : PlanRepository) :
    (∀ field ∈ repositoryFields, field.Same first second) ↔ first = second := by
  obtain ⟨revision, snapshotDigest⟩ := first
  obtain ⟨otherRevision, otherDigest⟩ := second
  simp [repositoryFields, RecordField.required]

def repository : Encoder PlanRepository (· = ·) :=
  (Encoder.record repositoryFields repositoryKeys).reading same_repository

theorem strict_repository : repository.Strict :=
  (Encoder.strict_record repositoryKeys fun field member => by
    simp only [repositoryFields, List.mem_cons, List.not_mem_nil, or_false] at member
    rcases member with rfl | rfl
    · exact RecordField.strict_required Encoder.strict_text _ _
    · exact RecordField.strict_required Encoder.strict_text _ _).reading same_repository

def planFields : List (RecordField PlanDocument) :=
  [.constant (js "apiVersion") (js "spc.dev/v1alpha1"),
    .constant (js "kind") (js "Plan"),
    .required (js "metadata") PlanDocument.metadata planMetadata,
    .required (js "spec") PlanDocument.spec planSpec,
    .required (js "repository") PlanDocument.repository repository,
    .required (js "tasks") PlanDocument.tasks task.array,
    .optional (js "assumptions") PlanDocument.assumptions texts,
    .optional (js "followups") PlanDocument.followups followUpDraft.array]

theorem planKeys : RecordKeys planFields :=
  ⟨by decide, by decide⟩

theorem same_plan (first second : PlanDocument) :
    (∀ field ∈ planFields, field.Same first second) ↔ first = second := by
  obtain ⟨metadata, spec, repository, tasks, assumptions, followups⟩ := first
  simp only [planFields, RecordField.constant, RecordField.required, RecordField.optional,
    List.forall_mem_cons, optionRel_eq_iff]
  constructor
  · rintro ⟨-, -, rfl, rfl, rfl, rfl, rfl, rfl, -⟩
    rfl
  · rintro rfl
    simp

/-- The value of a plan. -/
def planDocument : Encoder PlanDocument (· = ·) :=
  (Encoder.record planFields planKeys).reading same_plan

theorem strict_planDocument : planDocument.Strict :=
  (Encoder.strict_record planKeys fun field member => by
    simp only [planFields, List.mem_cons, List.not_mem_nil, or_false] at member
    rcases member with rfl | rfl | rfl | rfl | rfl | rfl | rfl | rfl
    · exact RecordField.strict_constant _ _
    · exact RecordField.strict_constant _ _
    · exact RecordField.strict_required strict_planMetadata _ _
    · exact RecordField.strict_required strict_planSpec _ _
    · exact RecordField.strict_required strict_repository _ _
    · exact RecordField.strict_required strict_task.array _ _
    · exact RecordField.strict_optional strict_texts _ _
    · exact RecordField.strict_optional strict_followUpDraft.array _ _).reading same_plan

def planDigest (sha256Hex : JsString → JsString) (document : PlanDocument) :
    Except CanonicalError JsString :=
  digestOf sha256Hex (planDocument.value (normalizePlan document))

theorem planDigest_ok (sha256Hex : JsString → JsString) (document : PlanDocument) :
    ∃ digest, planDigest sha256Hex document = .ok digest :=
  strict_planDocument.digestOf_ok sha256Hex (normalizePlan document)

/-- Two plans have one digest exactly when they say the same. -/
theorem planDigest_eq_iff {sha256Hex : JsString → JsString}
    (injective : Function.Injective sha256Hex) (first second : PlanDocument) :
    planDigest sha256Hex first = planDigest sha256Hex second ↔ first.Same second := by
  obtain ⟨digest, hashed⟩ := planDigest_ok sha256Hex first
  rw [hashed, eq_comm, planDigest, planDocument.digest_iff injective hashed, normalizePlan_eq_iff]

theorem planDigest_normalizePlan (sha256Hex : JsString → JsString) (document : PlanDocument) :
    planDigest sha256Hex (normalizePlan document) = planDigest sha256Hex document := by
  rw [planDigest, planDigest, normalizePlan_normalizePlan]

/-! ## Specifications and plans -/

/-- With an injective hash a digest keeps what a specification says, defaults filled in and
dependencies as sets with a missing list as the empty one; for a plan it keeps what the plan
says, its lists as sets with a missing list as no list; and normalizing twice changes nothing. -/
theorem digests_identify {sha256Hex : JsString → JsString}
    (injective : Function.Injective sha256Hex) :
    (∀ (first : Spec) (digest : JsString), CompilesTo sha256Hex first digest →
      ∀ second : Spec, CompilesTo sha256Hex second digest ↔ first.Same second) ∧
    (∀ first second : PlanDocument,
      planDigest sha256Hex first = planDigest sha256Hex second ↔ first.Same second) ∧
    (∀ input : SpecSource, normalizeSpec (normalizeSpec input).source = normalizeSpec input ∧
      digestOf sha256Hex (specDocument.value (normalizeSpec (normalizeSpec input).source)) =
        digestOf sha256Hex (specDocument.value (normalizeSpec input))) ∧
    ∀ document : PlanDocument, normalizePlan (normalizePlan document) = normalizePlan document ∧
      planDigest sha256Hex (normalizePlan document) = planDigest sha256Hex document := by
  refine ⟨fun first digest compiled => compilesTo_same_iff injective compiled,
    planDigest_eq_iff injective, fun input => ?_, fun document => ?_⟩
  · have twice := normalizeSpec_normalizeSpec input
    exact ⟨twice, by rw [twice]⟩
  · exact ⟨normalizePlan_normalizePlan document, planDigest_normalizePlan sha256Hex document⟩

/-- A requirement that may say what it depends on. -/
def requirementWith (dependsOn : Option (List JsString)) : Requirement where
  id := js "REQ-1"
  statement := js "It works."
  category := none
  dependsOn := dependsOn
  acceptance := none
  metadata := none
  priority := .should
  scope := none

def specWith (dependsOn : Option (List JsString)) : Spec where
  metadata := ⟨js "login", js "Login", none⟩
  goal := js "Log in."
  imports := none
  environment := none
  requirements := [requirementWith dependsOn]
  constraints := none
  outOfScope := none

def taskWith (dependsOn : Option (List JsString)) : Task where
  id := js "T001"
  title := js "Do it"
  kind := .modify
  intent := js "Make it work."
  dependsOn := dependsOn
  satisfies := none
  verifies := none
  targets := none
  risk := none

def planWith (dependsOn : Option (List JsString)) : PlanDocument where
  metadata := ⟨js "plan-1", none, js "2026-01-01T00:00:00.000Z", none⟩
  spec := ⟨js "login", js "sha256:0"⟩
  repository := ⟨js "abc", js "sha256:1"⟩
  tasks := [taskWith dependsOn]
  assumptions := none
  followups := none

theorem digests_identify_plans :
    planDigest id (planWith (some [js "T002", js "T003"])) =
        planDigest id (planWith (some [js "T003", js "T002", js "T003"])) ↔
      (planWith (some [js "T002", js "T003"])).Same
        (planWith (some [js "T003", js "T002", js "T003"])) :=
  (digests_identify Function.injective_id).2.1 _ _

theorem specWith_same : (specWith none).Same (specWith (some [])) :=
  ⟨rfl, rfl, rfl, rfl,
    .cons ⟨⟨rfl, rfl, rfl, SameSet.refl [], .nil, .none⟩, rfl, rfl⟩ .nil, .nil, rfl⟩

theorem specWith_hashed :
    (digestOf id (specDocument.value (normalizeSpec (specWith none).source))).toOption.isSome =
      true := by
  decide +kernel

/-- A missing list and an empty one: specifications that differ in nothing else have one digest,
plans have two. -/
theorem digests_of_missing_lists :
    (∃ digest, CompilesTo id (specWith none) digest ∧ CompilesTo id (specWith (some [])) digest) ∧
      ¬ Option.Rel SameSet (requirementWith none).dependsOn (requirementWith (some [])).dependsOn ∧
      planDigest id (planWith none) ≠ planDigest id (planWith (some [])) ∧
      SameSet ((taskWith none).dependsOn.getD []) ((taskWith (some [])).dependsOn.getD []) := by
  refine ⟨?_, by rintro ⟨⟩, fun equal => ?_, SameSet.refl []⟩
  · obtain ⟨digest, hashed⟩ := Option.isSome_iff_exists.mp specWith_hashed
    have compiled : CompilesTo id (specWith none) digest := by
      rw [compilesTo_iff]
      cases result : digestOf id (specDocument.value (normalizeSpec (specWith none).source)) with
      | error error => rw [result] at hashed; cases hashed
      | ok found => rw [result] at hashed; cases hashed; rfl
    exact ⟨digest, compiled, (compilesTo_same_iff Function.injective_id compiled _).mpr specWith_same⟩
  · have same := ((planDigest_eq_iff Function.injective_id _ _).mp equal).tasks
    cases same with
    | cons tasks _ => cases tasks.dependsOn

end SpecAsCode.Compiler
