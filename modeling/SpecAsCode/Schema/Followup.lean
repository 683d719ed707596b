import SpecAsCode.Js.JsString

/-!
# Follow-ups

Questions a run leaves to people, and how they were answered.
-/

namespace SpecAsCode.Schema

open SpecAsCode.Js

inductive FollowUpType where
  | humanInput
  | approval
  | missingSecret
  | missingEnvironment
  | specClarification
  | specChange
  | investigation
  | replan
  | manualVerification
  | postRun
  deriving DecidableEq, Repr

/-- The type as the schema spells it. -/
def FollowUpType.text : FollowUpType → JsString
  | .humanInput => js "human_input"
  | .approval => js "approval"
  | .missingSecret => js "missing_secret"
  | .missingEnvironment => js "missing_environment"
  | .specClarification => js "spec_clarification"
  | .specChange => js "spec_change"
  | .investigation => js "investigation"
  | .replan => js "replan"
  | .manualVerification => js "manual_verification"
  | .postRun => js "post_run"

structure FollowUpOption where
  id : JsString
  description : JsString
  deriving DecidableEq

/-- What a follow-up is created from. -/
structure FollowUpDraft where
  type : FollowUpType
  blocking : Bool
  title : JsString
  description : JsString
  propertyId : Option JsString
  taskId : Option JsString
  options : Option (List FollowUpOption)
  recommendedDefault : Option JsString
  criterionId : Option JsString
  command : Option JsString
  deriving DecidableEq

inductive FollowUpStatus where
  | opened
  | resolved
  deriving DecidableEq, Repr

theorem FollowUpStatus.eq_opened {status : FollowUpStatus} (unresolved : status ≠ .resolved) :
    status = .opened := by
  cases status with
  | opened => rfl
  | resolved => exact absurd rfl unresolved

/-- How a follow-up was answered. -/
structure Resolution where
  optionId : Option JsString
  note : Option JsString
  resolvedBy : Option JsString
  deriving DecidableEq

structure FollowUp extends FollowUpDraft where
  id : JsString
  runId : JsString
  status : FollowUpStatus
  createdAt : JsString
  resolvedAt : Option JsString
  resolution : Option Resolution
  deriving DecidableEq

/-- `followUpSchema.safeParse(item).success` on a record that has the types of a follow-up:
the texts that may not be empty. -/
def followUpSchema (followup : FollowUp) : Bool :=
  followup.title != [] && followup.description != [] && followup.id != [] &&
    followup.runId != [] && followup.createdAt != [] &&
    (followup.options.getD []).all fun option => option.id != [] && option.description != []

end SpecAsCode.Schema
