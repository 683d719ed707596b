import SpecAsCode.Core.NormalizeSpec

/-!
# The hashed document of a specification

A normalized specification as the JavaScript value that is canonicalized and hashed.
-/

namespace SpecAsCode.Compiler

open SpecAsCode.Js
open SpecAsCode.Core
open SpecAsCode.Schema (CriterionType FileAssert Priority)

/-! ## Enumerations -/

def criterionType : CriterionType → JsString
  | .command => js "command"
  | .file => js "file"
  | .suite => js "suite"
  | .agent => js "agent"
  | .human => js "human"

def priorityText : Priority → JsString
  | .must => js "must"
  | .should => js "should"
  | .may => js "may"

theorem criterionType_injective : Function.Injective criterionType := by
  intro first second equal
  cases first <;> cases second <;> first | rfl | exact absurd equal (by decide)

theorem priorityText_injective : Function.Injective priorityText := by
  intro first second equal
  cases first <;> cases second <;> first | rfl | exact absurd equal (by decide)

theorem RequirementCategory.text_injective : Function.Injective RequirementCategory.text := by
  intro first second equal
  cases first <;> cases second <;> first | rfl | exact absurd equal (by decide)

theorem PropertyKind.text_injective : Function.Injective PropertyKind.text := by
  intro first second equal
  cases first <;> cases second <;> first | rfl | exact absurd equal (by decide)

/-! ## Criteria -/

def texts : Encoder (List JsString) (· = ·) :=
  Encoder.text.array

theorem strict_texts : texts.Strict :=
  Encoder.strict_text.array

def whole : Encoder Whole (· = ·) :=
  (Encoder.number.via Subtype.val).reading fun _ _ => Subtype.ext_iff.symm

def positive : Encoder Positive (· = ·) :=
  (Encoder.number.via Subtype.val).reading fun _ _ => Subtype.ext_iff.symm

def expectFields : List (RecordField CommandExpect) :=
  [.optional (js "exitCode") CommandExpect.exitCode whole]

theorem expectKeys : RecordKeys expectFields :=
  ⟨by decide, by decide⟩

theorem same_expect (first second : CommandExpect) :
    (∀ field ∈ expectFields, field.Same first second) ↔ first = second := by
  simp [expectFields, RecordField.optional, optionRel_eq_iff, CommandExpect.ext_iff]

def expect : Encoder CommandExpect (· = ·) :=
  (Encoder.record expectFields expectKeys).reading same_expect

def assertionFields : List (RecordField FileAssert) :=
  [.optional (js "exists") FileAssert.present .flag,
    .optional (js "contains") FileAssert.contains .text,
    .optional (js "notContains") FileAssert.notContains .text]

theorem assertionKeys : RecordKeys assertionFields :=
  ⟨by decide, by decide⟩

theorem same_assertion (first second : FileAssert) :
    (∀ field ∈ assertionFields, field.Same first second) ↔ first = second := by
  obtain ⟨present, contains, notContains⟩ := first
  obtain ⟨otherPresent, otherContains, otherNotContains⟩ := second
  simp [assertionFields, RecordField.optional, optionRel_eq_iff]

def assertion : Encoder FileAssert (· = ·) :=
  (Encoder.record assertionFields assertionKeys).reading same_assertion

/-- The parts of a criterion, each there for the types that have it. -/
def commandOf : AcceptanceCriterion → Option JsString
  | .command _ command _ _ _ => some command
  | _ => none

def expectOf : AcceptanceCriterion → Option CommandExpect
  | .command _ _ expect _ _ => expect
  | _ => none

def timeoutOf : AcceptanceCriterion → Option Positive
  | .command _ _ _ timeoutMs _ => timeoutMs
  | _ => none

def pathOf : AcceptanceCriterion → Option JsString
  | .file _ path _ _ => some path
  | _ => none

def assertionOf : AcceptanceCriterion → Option FileAssert
  | .file _ _ assertion _ => some assertion
  | _ => none

def refOf : AcceptanceCriterion → Option JsString
  | .suite _ ref _ => some ref
  | _ => none

def instructionOf : AcceptanceCriterion → Option JsString
  | .agent _ instruction _ => some instruction
  | .human _ instruction _ => some instruction
  | _ => none

def criterionFields : List (RecordField AcceptanceCriterion) :=
  [.required (js "id") AcceptanceCriterion.id .text,
    .required (js "type") AcceptanceCriterion.type (.enumeration _ criterionType_injective),
    .optional (js "command") commandOf .text,
    .optional (js "expect") expectOf expect,
    .optional (js "timeoutMs") timeoutOf positive,
    .optional (js "path") pathOf .text,
    .optional (js "assert") assertionOf assertion,
    .optional (js "ref") refOf .text,
    .optional (js "instruction") instructionOf .text,
    .optional (js "discriminating") AcceptanceCriterion.discriminating .flag]

theorem criterionKeys : RecordKeys criterionFields :=
  ⟨by decide, by decide⟩

/-- A criterion is made of its parts. -/
theorem eq_of_parts {first second : AcceptanceCriterion} (id : first.id = second.id)
    (type : first.type = second.type) (command : commandOf first = commandOf second)
    (expect : expectOf first = expectOf second) (timeoutMs : timeoutOf first = timeoutOf second)
    (path : pathOf first = pathOf second) (assertion : assertionOf first = assertionOf second)
    (ref : refOf first = refOf second) (instruction : instructionOf first = instructionOf second)
    (mark : first.discriminating = second.discriminating) : first = second := by
  cases first with
  | command =>
      cases second with
      | command => cases id; cases command; cases expect; cases timeoutMs; cases mark; rfl
      | _ => cases type
  | file =>
      cases second with
      | file => cases id; cases path; cases assertion; cases mark; rfl
      | _ => cases type
  | suite =>
      cases second with
      | suite => cases id; cases ref; cases mark; rfl
      | _ => cases type
  | agent =>
      cases second with
      | agent => cases id; cases instruction; cases mark; rfl
      | _ => cases type
  | human =>
      cases second with
      | human => cases id; cases instruction; cases mark; rfl
      | _ => cases type

theorem same_criterion (first second : AcceptanceCriterion) :
    (∀ field ∈ criterionFields, field.Same first second) ↔ first = second := by
  simp only [criterionFields, RecordField.required, RecordField.optional, List.forall_mem_cons,
    optionRel_eq_iff]
  constructor
  · rintro ⟨id, type, command, expect, timeoutMs, path, assertion, ref, instruction, mark, -⟩
    exact eq_of_parts id type command expect timeoutMs path assertion ref instruction mark
  · rintro rfl
    simp

def criterion : Encoder AcceptanceCriterion (· = ·) :=
  (Encoder.record criterionFields criterionKeys).reading same_criterion

/-! ## Properties -/

def scopeFields : List (RecordField ArtifactScope) :=
  [.optional (js "include") ArtifactScope.included texts,
    .optional (js "exclude") ArtifactScope.excluded texts]

theorem scopeKeys : RecordKeys scopeFields :=
  ⟨by decide, by decide⟩

theorem same_scope (first second : ArtifactScope) :
    (∀ field ∈ scopeFields, field.Same first second) ↔ first = second := by
  obtain ⟨included, excluded⟩ := first
  obtain ⟨otherIncluded, otherExcluded⟩ := second
  simp [scopeFields, RecordField.optional, optionRel_eq_iff]

def scope : Encoder ArtifactScope (· = ·) :=
  (Encoder.record scopeFields scopeKeys).reading same_scope

/-- Records with the same properties; their order is not compared. -/
def UnknownRecord.Same (first second : UnknownRecord) : Prop :=
  LogicallyEqual (.object first.members) (.object second.members)

def unknownRecord : Encoder UnknownRecord UnknownRecord.Same where
  value record := .object record.members
  defined _ := rfl
  wellFormed := UnknownRecord.wellFormed
  plain := UnknownRecord.plain
  identifies _ _ := Iff.rfl

/-- Equality of normalized properties, up to the order of the keys of their metadata. -/
structure DesiredProperty.Same (first second : DesiredProperty) : Prop where
  kind : first.kind = second.kind
  id : first.id = second.id
  statement : first.statement = second.statement
  priority : first.priority = second.priority
  category : first.category = second.category
  dependsOn : first.dependsOn = second.dependsOn
  acceptance : first.acceptance = second.acceptance
  scope : first.scope = second.scope
  metadata : Option.Rel UnknownRecord.Same first.metadata second.metadata

def propertyFields : List (RecordField DesiredProperty) :=
  [.required (js "kind") DesiredProperty.kind (.enumeration _ PropertyKind.text_injective),
    .required (js "id") DesiredProperty.id .text,
    .required (js "statement") DesiredProperty.statement .text,
    .required (js "priority") DesiredProperty.priority (.enumeration _ priorityText_injective),
    .optional (js "category") DesiredProperty.category
      (.enumeration _ RequirementCategory.text_injective),
    .required (js "dependsOn") DesiredProperty.dependsOn texts,
    .required (js "acceptance") DesiredProperty.acceptance criterion.array,
    .optional (js "scope") DesiredProperty.scope scope,
    .optional (js "metadata") DesiredProperty.metadata unknownRecord]

theorem propertyKeys : RecordKeys propertyFields :=
  ⟨by decide, by decide⟩

theorem same_property (first second : DesiredProperty) :
    (∀ field ∈ propertyFields, field.Same first second) ↔ first.Same second := by
  simp only [propertyFields, RecordField.required, RecordField.optional, List.forall_mem_cons,
    optionRel_eq_iff]
  constructor
  · rintro ⟨kind, id, statement, priority, category, dependsOn, acceptance, scope, metadata, -⟩
    exact ⟨kind, id, statement, priority, category, dependsOn, acceptance, scope, metadata⟩
  · rintro ⟨kind, id, statement, priority, category, dependsOn, acceptance, scope, metadata⟩
    exact ⟨kind, id, statement, priority, category, dependsOn, acceptance, scope, metadata,
      by simp⟩

def property : Encoder DesiredProperty DesiredProperty.Same :=
  (Encoder.record propertyFields propertyKeys).reading same_property

/-! ## Specifications -/

def metadataFields : List (RecordField SpecMetadata) :=
  [.required (js "id") SpecMetadata.id .text,
    .required (js "title") SpecMetadata.title .text,
    .optional (js "description") SpecMetadata.description .text]

theorem metadataKeys : RecordKeys metadataFields :=
  ⟨by decide, by decide⟩

theorem same_metadata (first second : SpecMetadata) :
    (∀ field ∈ metadataFields, field.Same first second) ↔ first = second := by
  obtain ⟨id, title, description⟩ := first
  obtain ⟨otherId, otherTitle, otherDescription⟩ := second
  simp [metadataFields, RecordField.required, RecordField.optional, optionRel_eq_iff]

def metadata : Encoder SpecMetadata (· = ·) :=
  (Encoder.record metadataFields metadataKeys).reading same_metadata

def environmentFields : List (RecordField Environment) :=
  [.optional (js "requiredSecrets") Environment.requiredSecrets texts]

theorem environmentKeys : RecordKeys environmentFields :=
  ⟨by decide, by decide⟩

theorem same_environment (first second : Environment) :
    (∀ field ∈ environmentFields, field.Same first second) ↔ first = second := by
  obtain ⟨requiredSecrets⟩ := first
  obtain ⟨otherSecrets⟩ := second
  simp [environmentFields, RecordField.optional, optionRel_eq_iff]

def environment : Encoder Environment (· = ·) :=
  (Encoder.record environmentFields environmentKeys).reading same_environment

/-- Equality of normalized specifications, up to the order of the keys in metadata. -/
structure NormalizedSpec.Same (first second : NormalizedSpec) : Prop where
  metadata : first.metadata = second.metadata
  goal : first.goal = second.goal
  imports : first.imports = second.imports
  environment : first.environment = second.environment
  requirements : List.Forall₂ DesiredProperty.Same first.requirements second.requirements
  constraints : List.Forall₂ DesiredProperty.Same first.constraints second.constraints
  outOfScope : first.outOfScope = second.outOfScope

def specFields : List (RecordField NormalizedSpec) :=
  [.constant (js "apiVersion") (js "spc.dev/v1alpha1"),
    .constant (js "kind") (js "Spec"),
    .required (js "metadata") NormalizedSpec.metadata metadata,
    .required (js "goal") NormalizedSpec.goal .text,
    .optional (js "imports") NormalizedSpec.imports texts,
    .optional (js "environment") NormalizedSpec.environment environment,
    .required (js "requirements") NormalizedSpec.requirements property.list,
    .required (js "constraints") NormalizedSpec.constraints property.list,
    .required (js "outOfScope") NormalizedSpec.outOfScope texts]

theorem specKeys : RecordKeys specFields :=
  ⟨by decide, by decide⟩

theorem same_spec (first second : NormalizedSpec) :
    (∀ field ∈ specFields, field.Same first second) ↔ first.Same second := by
  simp only [specFields, RecordField.constant, RecordField.required, RecordField.optional,
    List.forall_mem_cons, optionRel_eq_iff]
  constructor
  · rintro ⟨-, -, metadata, goal, imports, environment, requirements, constraints, outOfScope, -⟩
    exact ⟨metadata, goal, imports, environment, requirements, constraints, outOfScope⟩
  · rintro ⟨metadata, goal, imports, environment, requirements, constraints, outOfScope⟩
    exact ⟨trivial, trivial, metadata, goal, imports, environment, requirements, constraints,
      outOfScope, by simp⟩

/-- The value `digestOf` hashes. -/
def specDocument : Encoder NormalizedSpec NormalizedSpec.Same :=
  (Encoder.record specFields specKeys).reading same_spec

/-- `importedFiles && importedFiles.length > 0 ? { importedFiles } : {}`. -/
def listedFiles (importedFiles : Option (List JsString)) : Option (List JsString) :=
  importedFiles.filter fun files => !files.isEmpty

/-- `finalizeSpec`. -/
def finalizeSpec (sha256Hex : JsString → JsString) (spec : Spec)
    (importedFiles : Option (List JsString)) : Except CanonicalError SpecIR :=
  (digestOf sha256Hex (specDocument.value (normalizeSpec spec.source))).map fun digest =>
    { spec := normalizeSpec spec.source
      properties := (normalizeSpec spec.source).requirements ++ (normalizeSpec spec.source).constraints
      digest := digest
      importedFiles := listedFiles importedFiles }

end SpecAsCode.Compiler
