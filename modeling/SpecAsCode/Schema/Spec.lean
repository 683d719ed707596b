import SpecAsCode.Core.Encoder
import SpecAsCode.Schema.Property

/-!
# Specifications

The specifications people write, with every field that may be left out, and the normalized
ones that the compiler makes of them and hashes.
-/

namespace SpecAsCode.Compiler

open SpecAsCode.Js
open SpecAsCode.Core
open SpecAsCode.Schema (CriterionType FileAssert Priority)

/-- `z.number().int()`. -/
abbrev Whole := { value : Double // value.name.safeInteger.isSome = true }

/-- `z.number().int().positive()`. -/
abbrev Positive := { value : Double // (JsNumber.finite value).isPositiveInteger = true }

theorem isShortest_zero : Decimal.zero.rounded = some .zero := by
  rw [Decimal.rounded]

theorem isWhole_zero : Decimal.zero.safeInteger.isSome = true := rfl

def Whole.zero : Whole :=
  ⟨⟨.zero, isShortest_zero⟩, isWhole_zero⟩

@[ext]
structure CommandExpect where
  exitCode : Option Whole
  deriving DecidableEq

/-- An acceptance criterion as it is written. -/
inductive AcceptanceCriterion where
  | command (id command : JsString) (expect : Option CommandExpect) (timeoutMs : Option Positive)
      (discriminating : Option Bool)
  | file (id path : JsString) (assertion : FileAssert) (discriminating : Option Bool)
  | suite (id ref : JsString) (discriminating : Option Bool)
  | agent (id instruction : JsString) (discriminating : Option Bool)
  | human (id instruction : JsString) (discriminating : Option Bool)
  deriving DecidableEq

namespace AcceptanceCriterion

def id : AcceptanceCriterion → JsString
  | .command id _ _ _ _ => id
  | .file id _ _ _ => id
  | .suite id _ _ => id
  | .agent id _ _ => id
  | .human id _ _ => id

def type : AcceptanceCriterion → CriterionType
  | .command .. => .command
  | .file .. => .file
  | .suite .. => .suite
  | .agent .. => .agent
  | .human .. => .human

def discriminating : AcceptanceCriterion → Option Bool
  | .command _ _ _ _ mark => mark
  | .file _ _ _ mark => mark
  | .suite _ _ mark => mark
  | .agent _ _ mark => mark
  | .human _ _ mark => mark

end AcceptanceCriterion

inductive RequirementCategory where
  | behavioral
  | security
  | performance
  | compatibility
  | operational
  | architectural
  | ux
  | compliance
  deriving DecidableEq, Repr

def RequirementCategory.text : RequirementCategory → JsString
  | .behavioral => js "behavioral"
  | .security => js "security"
  | .performance => js "performance"
  | .compatibility => js "compatibility"
  | .operational => js "operational"
  | .architectural => js "architectural"
  | .ux => js "ux"
  | .compliance => js "compliance"

structure ArtifactScope where
  included : Option (List JsString)
  excluded : Option (List JsString)
  deriving DecidableEq

/-- A record with unknown values, as the parser of a document builds it: no object in it has an
own property named `__proto__`. -/
structure UnknownRecord where
  members : Members
  wellFormed : (JsValue.object members).isWellFormed = true
  plain : withoutProto (.object members) = .object members

/-- What requirements and constraints have in common. -/
structure PropertyCommon where
  id : JsString
  statement : JsString
  category : Option RequirementCategory
  dependsOn : Option (List JsString)
  acceptance : Option (List AcceptanceCriterion)
  metadata : Option UnknownRecord

structure Requirement extends PropertyCommon where
  priority : Priority
  scope : Option ArtifactScope

structure Constraint extends PropertyCommon where
  priority : Option Priority

structure SpecMetadata where
  id : JsString
  title : JsString
  description : Option JsString
  deriving DecidableEq

structure Environment where
  requiredSecrets : Option (List JsString)
  deriving DecidableEq

/-- A specification as it is written. -/
structure Spec where
  metadata : SpecMetadata
  goal : JsString
  imports : Option (List JsString)
  environment : Option Environment
  requirements : List Requirement
  constraints : Option (List Constraint)
  outOfScope : Option (List JsString)

inductive PropertyKind where
  | requirement
  | constraint
  deriving DecidableEq, Repr

def PropertyKind.text : PropertyKind → JsString
  | .requirement => js "requirement"
  | .constraint => js "constraint"

/-- A requirement or a constraint with its defaults. -/
structure DesiredProperty where
  kind : PropertyKind
  id : JsString
  statement : JsString
  priority : Priority
  category : Option RequirementCategory
  dependsOn : List JsString
  acceptance : List AcceptanceCriterion
  scope : Option ArtifactScope
  metadata : Option UnknownRecord

structure NormalizedSpec where
  metadata : SpecMetadata
  goal : JsString
  imports : Option (List JsString)
  environment : Option Environment
  requirements : List DesiredProperty
  constraints : List DesiredProperty
  outOfScope : List JsString

/-- A compiled specification. -/
structure SpecIR where
  spec : NormalizedSpec
  properties : List DesiredProperty
  digest : JsString
  importedFiles : Option (List JsString)

end SpecAsCode.Compiler
