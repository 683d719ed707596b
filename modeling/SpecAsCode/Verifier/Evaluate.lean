import SpecAsCode.Schema.Property
import SpecAsCode.Verifier.OracleValidity

/-!
# Property evaluation

The satisfaction of a property is derived from the evidence that refers to it:
the newest record of each criterion decides that criterion, and under the red
phase a discriminating criterion passes only with a demonstrated flip.
-/

namespace SpecAsCode.Verifier

open SpecAsCode.Js
open SpecAsCode.Schema

/-- `EvaluationOptions`, with the value of `now()`. -/
structure EvaluationOptions where
  allowAgentOnly : Bool
  inProgressPropertyIds : List JsString
  now : JsString
  requireRedPhase : Bool
  inheritedFlips : JsString → Option JsString

inductive VerdictStatus where
  | pass
  | fail
  | indeterminate
  | unevaluated
  deriving DecidableEq, Repr

structure CriterionVerdict where
  criterionId : JsString
  type : CriterionType
  status : VerdictStatus
  evidenceId : Option JsString
  detail : JsString
  deterministic : Bool
  redPhase : Option RedPhase
  deriving DecidableEq

/-- `!current || e.timestamp >= current.timestamp`. -/
def displaces (e : Evidence) : Option Evidence → Bool
  | none => true
  | some current => current.timestamp ≤ e.timestamp

/-- One record of the loop of `latestByCriterion`. -/
def recordLatest (latest : JsString → Option Evidence) (e : Evidence) :
    JsString → Option Evidence :=
  match e.criterionId with
  | none => latest
  | some criterion =>
      if displaces e (latest criterion) then
        Function.update latest criterion (some e)
      else
        latest

/-- `latestByCriterion`, the map as a function. -/
def latestByCriterion (evidence : List Evidence) : JsString → Option Evidence :=
  evidence.foldl recordLatest fun _ => none

/-- `isDiscriminating`. -/
def isDiscriminating (criterion : AcceptanceCriterion) : Bool :=
  isDeterministicCriterion criterion && criterion.discriminating == some true

/-- The evidence that refers to a property. -/
def relevantEvidence (property : DesiredProperty) (evidence : List Evidence) : List Evidence :=
  evidence.filter fun e => e.propertyRefs.contains property.id

/-- A human record that carries the waive mark. -/
def isWaiver (e : Evidence) : Bool :=
  e.kind == .human && (e.payload.property (js "waive")).isTrue

/-- The verdict on a criterion before the red-phase rule. -/
def greenVerdict (criterion : AcceptanceCriterion) (latest : Option Evidence) :
    CriterionVerdict :=
  let verdict (status : VerdictStatus) (evidenceId : Option JsString) (detail : JsString) :
      CriterionVerdict :=
    { criterionId := criterion.id
      type := criterion.type
      status := status
      evidenceId := evidenceId
      detail := detail
      deterministic := isDeterministicCriterion criterion
      redPhase := none }
  match latest with
  | none => verdict .unevaluated none (js "no evidence recorded")
  | some e =>
      match e.outcome with
      | .supports => verdict .pass (some e.id) (e.kind.text ++ js " evidence supports")
      | .contradicts => verdict .fail (some e.id) (e.kind.text ++ js " evidence contradicts")
      | .inconclusive =>
          verdict .indeterminate (some e.id) (e.kind.text ++ js " evidence inconclusive")

/-- The red-phase flip rule on a passing discriminating criterion. -/
def redVerdict (inheritedFlips : JsString → Option JsString) (verdict : CriterionVerdict)
    (red : Option Evidence) : CriterionVerdict :=
  match red with
  | none =>
      { verdict with
        status := .indeterminate
        detail := js "no red-phase evidence recorded; the criterion must fail at the run's base revision"
        redPhase := some .noRedEvidence }
  | some red =>
      match red.outcome with
      | .supports =>
          match inheritedFlips verdict.criterionId with
          | some priorRun =>
              { verdict with
                redPhase := some .flipped
                detail := js "flip established in prior run " ++ priorRun ++
                  js " (chain inheritance); criterion passed at this base and the transition is recorded in that run's evidence" }
          | none =>
              { verdict with
                status := .indeterminate
                detail := js "criterion passed at base revision; it does not discriminate this change"
                redPhase := some .passedAtBase }
      | .contradicts =>
          if isEligibleRed red.outcome red.payload then
            { verdict with redPhase := some .flipped }
          else
            { verdict with
              status := .indeterminate
              detail := js "baseline red is oracle-invalid or unevaluably so; no red was demonstrated, so no flip is established"
              redPhase := some .noRedEvidence }
      | .inconclusive =>
          { verdict with
            status := .indeterminate
            detail := js "baseline evidence inconclusive; no red was demonstrated, so no flip is established"
            redPhase := some .noRedEvidence }

/-- One iteration of the loop over the acceptance criteria. -/
def criterionVerdict (options : EvaluationOptions)
    (latest latestRed : JsString → Option Evidence) (criterion : AcceptanceCriterion) :
    CriterionVerdict :=
  let verdict := greenVerdict criterion (latest criterion.id)
  if options.requireRedPhase && isDiscriminating criterion && verdict.status == .pass then
    redVerdict options.inheritedFlips verdict (latestRed criterion.id)
  else
    verdict

/-- The property-level red-phase summary: the worst criterion wins. -/
def redPhaseSummary (property : DesiredProperty) (options : EvaluationOptions)
    (verdicts : List CriterionVerdict) : Option RedPhase :=
  if options.requireRedPhase && property.acceptance.any isDiscriminating then
    if verdicts.any fun v => v.redPhase == some .passedAtBase then
      some .passedAtBase
    else if verdicts.any fun v => v.redPhase == some .noRedEvidence then
      some .noRedEvidence
    else
      some .flipped
  else
    none

/-- The state the verdicts lead to; `used` are the ids of the deciding records. -/
def concludeProperty (property : DesiredProperty) (options : EvaluationOptions)
    (used : List JsString) (verdicts : List CriterionVerdict) : RequirementState :=
  let conclude (status : RequirementStatus) (reason : Option JsString) (weak : Bool) :
      RequirementState :=
    { propertyId := property.id
      status := status
      evidenceIds := used
      updatedAt := options.now
      reason := reason
      weakEvidence := weak
      redPhase := redPhaseSummary property options verdicts }
  match verdicts.find? fun v => v.status == .fail with
  | some failed =>
      conclude .unsatisfied
        (some (js "criterion " ++ failed.criterionId ++ js " contradicted (" ++ failed.detail ++ js ")"))
        false
  | none =>
  match verdicts.find? fun v => v.status == .indeterminate with
  | some undecided =>
      conclude .indeterminate
        (some (js "criterion " ++ undecided.criterionId ++ js " inconclusive (" ++ undecided.detail ++ js ")"))
        false
  | none =>
  match verdicts.find? fun v => v.status == .unevaluated with
  | some missing =>
      conclude
        (if options.inProgressPropertyIds.contains property.id then .inProgress else .unknown)
        (some (js "criterion " ++ missing.criterionId ++ js " not yet evaluated"))
        false
  | none =>
  let anyDeterministicPass := verdicts.any fun v => v.status == .pass && v.deterministic
  let anyAgentPass := verdicts.any fun v => v.status == .pass && v.type == .agent
  if !anyDeterministicPass && anyAgentPass && !options.allowAgentOnly then
    conclude .indeterminate
      (some (js "verified only by agent evaluation; set verification.allowAgentOnlyMustRequirements to accept agent-only evidence"))
      true
  else
    let inherited := verdicts.filter fun v => includes v.detail (js "chain inheritance")
    let plural := if 1 < inherited.length then js "s" else []
    conclude .satisfied
      (if inherited.isEmpty then
        none
      else
        some (natText inherited.length ++ js " criterion flip" ++ plural ++
          js " established in prior chain run" ++ plural ++ js " (" ++
          (js ", ").intercalate (inherited.map (·.criterionId)) ++ js ")"))
      (!anyDeterministicPass)

/-- `evaluateProperty`. -/
def evaluateProperty (property : DesiredProperty) (evidence : List Evidence)
    (options : EvaluationOptions) : RequirementState :=
  let relevant := relevantEvidence property evidence
  match relevant.find? isWaiver with
  | some waiver =>
      { propertyId := property.id
        status := .waived
        evidenceIds := [waiver.id]
        updatedAt := options.now
        reason := some (js "explicitly waived by human decision")
        weakEvidence := false
        redPhase := none }
  | none =>
      let latest := latestByCriterion (relevant.filter fun e => !e.red)
      let latestRed :=
        if options.requireRedPhase then
          latestByCriterion (relevant.filter fun e => e.red)
        else
          fun _ => none
      let used := property.acceptance.filterMap fun criterion =>
        (latest criterion.id).map (·.id)
      concludeProperty property options used
        (property.acceptance.map (criterionVerdict options latest latestRed))

end SpecAsCode.Verifier
