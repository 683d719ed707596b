import SpecAsCode.Core.Diagnostics
import SpecAsCode.Schema.Spec

/-!
# Normalization of specifications

The compiler fills in the defaults of a specification, sorts the lists that stand for sets, and
hashes the result.
-/

namespace SpecAsCode.Compiler

open SpecAsCode.Js
open SpecAsCode.Core
open SpecAsCode.Schema (CriterionType FileAssert Priority)

/-! ## What is read of a property -/

/-- The fields `toProperty` reads; a constraint has no scope, a requirement has a priority. -/
structure PropertySource extends PropertyCommon where
  priority : Option Priority
  scope : Option ArtifactScope

def Requirement.source (requirement : Requirement) : PropertySource :=
  { requirement.toPropertyCommon with
    priority := some requirement.priority
    scope := requirement.scope }

def Constraint.source (constraint : Constraint) : PropertySource :=
  { constraint.toPropertyCommon with
    priority := constraint.priority
    scope := none }

/-- A property that was normalized before. -/
def DesiredProperty.source (property : DesiredProperty) : PropertySource where
  id := property.id
  statement := property.statement
  category := property.category
  dependsOn := some property.dependsOn
  acceptance := some property.acceptance
  metadata := property.metadata
  priority := some property.priority
  scope := property.scope

/-- The fields `normalizeSpec` reads. -/
structure SpecSource where
  metadata : SpecMetadata
  goal : JsString
  imports : Option (List JsString)
  environment : Option Environment
  requirements : List PropertySource
  constraints : Option (List PropertySource)
  outOfScope : Option (List JsString)

def Spec.source (spec : Spec) : SpecSource where
  metadata := spec.metadata
  goal := spec.goal
  imports := spec.imports
  environment := spec.environment
  requirements := spec.requirements.map Requirement.source
  constraints := spec.constraints.map fun constraints => constraints.map Constraint.source
  outOfScope := spec.outOfScope

def NormalizedSpec.source (spec : NormalizedSpec) : SpecSource where
  metadata := spec.metadata
  goal := spec.goal
  imports := spec.imports
  environment := spec.environment
  requirements := spec.requirements.map DesiredProperty.source
  constraints := some (spec.constraints.map DesiredProperty.source)
  outOfScope := some spec.outOfScope

/-! ## Normalization -/

/-- `expect?.exitCode ?? 0`. -/
def exitCodeOf (expect : Option CommandExpect) : Whole :=
  (expect.bind CommandExpect.exitCode).getD Whole.zero

def normalizeCriterion : AcceptanceCriterion → AcceptanceCriterion
  | .command id command expect timeoutMs mark =>
      .command id command (some ⟨some (exitCodeOf expect)⟩) timeoutMs mark
  | criterion => criterion

def toProperty (kind : PropertyKind) (source : PropertySource) : DesiredProperty where
  kind := kind
  id := source.id
  statement := source.statement
  priority := source.priority.getD .must
  category := source.category
  dependsOn := sortUnique (source.dependsOn.getD [])
  acceptance := (source.acceptance.getD []).map normalizeCriterion
  scope := source.scope
  metadata := source.metadata

def normalizeSpec (input : SpecSource) : NormalizedSpec where
  metadata := input.metadata
  goal := input.goal
  imports := input.imports
  environment := input.environment
  requirements := input.requirements.map (toProperty .requirement)
  constraints := (input.constraints.getD []).map (toProperty .constraint)
  outOfScope := input.outOfScope.getD []

end SpecAsCode.Compiler
