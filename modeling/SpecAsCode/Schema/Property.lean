import SpecAsCode.Js.Value

/-!
# Desired properties and their acceptance criteria

The normalized properties the spec compiler produces, the criteria they are
verified by, and the qualitative states the runtime derives for them.
-/

namespace SpecAsCode.Schema

open SpecAsCode.Js

/-- What a file criterion asserts about the file. -/
structure FileAssert where
  present : Option Bool
  contains : Option JsString
  notContains : Option JsString
  deriving DecidableEq

/-- An acceptance criterion, one constructor for each member of the schema's
discriminated union. -/
inductive AcceptanceCriterion where
  | command (id command : JsString) (expectExitCode : Option Int)
      (timeoutMs : Option Nat) (discriminating : Option Bool)
  | file (id path : JsString) (assertion : FileAssert) (discriminating : Option Bool)
  | suite (id ref : JsString) (discriminating : Option Bool)
  | agent (id instruction : JsString) (discriminating : Option Bool)
  | human (id instruction : JsString) (discriminating : Option Bool)
  deriving DecidableEq

/-- The `type` tag of a criterion. -/
inductive CriterionType where
  | command
  | file
  | suite
  | agent
  | human
  deriving DecidableEq, Repr

namespace AcceptanceCriterion

def id : AcceptanceCriterion → JsString
  | .command id _ _ _ _ => id
  | .file id _ _ _ => id
  | .suite id _ _ => id
  | .agent id _ _ => id
  | .human id _ _ => id

def type : AcceptanceCriterion → CriterionType
  | .command .. => .command
  | .file .. => .file
  | .suite .. => .suite
  | .agent .. => .agent
  | .human .. => .human

def discriminating : AcceptanceCriterion → Option Bool
  | .command _ _ _ _ mark => mark
  | .file _ _ _ mark => mark
  | .suite _ _ mark => mark
  | .agent _ _ mark => mark
  | .human _ _ mark => mark

end AcceptanceCriterion

/-- `isDeterministicCriterion`. -/
def isDeterministicCriterion (criterion : AcceptanceCriterion) : Bool :=
  criterion.type == .command || criterion.type == .file || criterion.type == .suite

inductive Priority where
  | must
  | should
  | may
  deriving DecidableEq, Repr

/-- A normalized requirement or constraint. -/
structure DesiredProperty where
  id : JsString
  statement : JsString
  priority : Priority
  dependsOn : List JsString
  acceptance : List AcceptanceCriterion
  deriving DecidableEq

inductive RequirementStatus where
  | unknown
  | inProgress
  | satisfied
  | unsatisfied
  | indeterminate
  | waived
  deriving DecidableEq, Repr

/-- The status as the schema spells it. -/
def RequirementStatus.text : RequirementStatus → JsString
  | .unknown => js "unknown"
  | .inProgress => js "in_progress"
  | .satisfied => js "satisfied"
  | .unsatisfied => js "unsatisfied"
  | .indeterminate => js "indeterminate"
  | .waived => js "waived"

inductive RedPhase where
  | flipped
  | passedAtBase
  | noRedEvidence
  deriving DecidableEq, Repr

def RedPhase.text : RedPhase → JsString
  | .flipped => js "flipped"
  | .passedAtBase => js "passed_at_base"
  | .noRedEvidence => js "no_red_evidence"

/-- The derived state of one property. -/
structure RequirementState where
  propertyId : JsString
  status : RequirementStatus
  evidenceIds : List JsString
  updatedAt : JsString
  reason : Option JsString
  weakEvidence : Bool
  redPhase : Option RedPhase
  deriving DecidableEq

end SpecAsCode.Schema
