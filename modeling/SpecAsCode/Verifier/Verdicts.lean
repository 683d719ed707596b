import SpecAsCode.Verifier.EvaluateSound

/-!
# Verdicts in terms of the evidence

When a criterion fails, passes or is undecided, and how the verdicts on the criteria decide
the status of a property.
-/

namespace SpecAsCode.Verifier

open SpecAsCode.Js
open SpecAsCode.Schema

theorem greenVerdict_redPhase (criterion : AcceptanceCriterion) (latest : Option Evidence) :
    (greenVerdict criterion latest).redPhase = none := by
  cases latest with
  | none => rfl
  | some e => cases outcome : e.outcome <;> simp [greenVerdict, outcome]

/-- A verdict is that of the newest record, or the red-phase rule changed a pass. -/
theorem criterionVerdict_cases (options : EvaluationOptions)
    (latest latestRed : JsString → Option Evidence) (criterion : AcceptanceCriterion) :
    ((options.requireRedPhase = true ∧ isDiscriminating criterion = true ∧
        (greenVerdict criterion (latest criterion.id)).status = .pass) ∧
      criterionVerdict options latest latestRed criterion =
        redVerdict options.inheritedFlips (greenVerdict criterion (latest criterion.id))
          (latestRed criterion.id)) ∨
    (¬ (options.requireRedPhase = true ∧ isDiscriminating criterion = true ∧
        (greenVerdict criterion (latest criterion.id)).status = .pass) ∧
      criterionVerdict options latest latestRed criterion =
        greenVerdict criterion (latest criterion.id)) := by
  by_cases gate : options.requireRedPhase = true ∧ isDiscriminating criterion = true ∧
      (greenVerdict criterion (latest criterion.id)).status = .pass
  · refine Or.inl ⟨gate, if_pos ?_⟩
    rw [gate.1, gate.2.1, gate.2.2]
    rfl
  · refine Or.inr ⟨gate, if_neg fun opened => gate ?_⟩
    simpa [and_assoc] using opened

section Evaluation

variable (property : DesiredProperty) (evidence : List Evidence) (options : EvaluationOptions)

/-- The verdict on a criterion of the property. -/
def verdictOn (criterion : AcceptanceCriterion) : CriterionVerdict :=
  criterionVerdict options (latestGreen property evidence) (latestBase property evidence options)
    criterion

/-- The newest record of the criterion contradicts it. -/
def Contradicted (criterion : AcceptanceCriterion) : Prop :=
  ∃ e, NewestGreen property evidence criterion.id e ∧ e.outcome = .contradicts

/-- The newest record of the criterion supports it. -/
def Supported (criterion : AcceptanceCriterion) : Prop :=
  ∃ e, NewestGreen property evidence criterion.id e ∧ e.outcome = .supports

/-- The newest record of the criterion supports it, and under the red phase a discriminating
criterion has earned its flip. -/
def Passes (criterion : AcceptanceCriterion) : Prop :=
  Supported property evidence criterion ∧
    (options.requireRedPhase = true → isDiscriminating criterion = true →
      ∃ red, NewestRed property evidence criterion.id red ∧ EarnsFlip options criterion.id red)

/-- A discriminating criterion that is supported now and already was at the base. -/
def PassedAtBase (criterion : AcceptanceCriterion) : Prop :=
  options.requireRedPhase = true ∧ isDiscriminating criterion = true ∧
    Supported property evidence criterion ∧
    (∃ red, NewestRed property evidence criterion.id red ∧ red.outcome = .supports) ∧
    options.inheritedFlips criterion.id = none

variable {property evidence options}

theorem greenVerdict_status_iff (criterion : AcceptanceCriterion) :
    ((greenVerdict criterion (latestGreen property evidence criterion.id)).status = .fail ↔
      Contradicted property evidence criterion) ∧
    ((greenVerdict criterion (latestGreen property evidence criterion.id)).status = .pass ↔
      Supported property evidence criterion) := by
  have newest : ∀ e, NewestGreen property evidence criterion.id e ↔
      latestGreen property evidence criterion.id = some e :=
    fun e => latestByCriterion_eq_some.symm
  simp only [Contradicted, Supported, newest, greenVerdict_status]
  cases latestGreen property evidence criterion.id with
  | none => simp
  | some e => cases outcome : e.outcome <;> simp [outcome]

theorem newestRed_iff (required : options.requireRedPhase = true) (criterion : JsString)
    (red : Evidence) : NewestRed property evidence criterion red ↔
      latestBase property evidence options criterion = some red := by
  rw [latestBase, if_pos required, latestByCriterion_eq_some]
  rfl

/-- What the red-phase rule makes of a pass. -/
theorem redVerdict_status (flips : JsString → Option JsString) (verdict : CriterionVerdict)
    (passes : verdict.status = .pass) (red : Option Evidence) :
    (redVerdict flips verdict red).status ≠ .fail ∧
    ((redVerdict flips verdict red).status = .pass ↔ ∃ record, red = some record ∧
      ((record.outcome = .contradicts ∧ isEligibleRed record.outcome record.payload = true) ∨
        (record.outcome = .supports ∧ (flips verdict.criterionId).isSome = true))) ∧
    ((redVerdict flips verdict red).status = .indeterminate ∧
        (redVerdict flips verdict red).redPhase = some .passedAtBase ↔
      (∃ record, red = some record ∧ record.outcome = .supports) ∧
        flips verdict.criterionId = none) := by
  cases red with
  | none => simp [redVerdict]
  | some red =>
      cases outcome : red.outcome with
      | supports =>
          cases inherited : flips verdict.criterionId with
          | none => simp [redVerdict, outcome, inherited]
          | some priorRun => simp [redVerdict, outcome, inherited, passes]
      | contradicts =>
          by_cases eligible : isEligibleRed .contradicts red.payload = true
          · simp [redVerdict, outcome, eligible, passes]
          · simp [redVerdict, outcome, eligible]
      | inconclusive => simp [redVerdict, outcome]

theorem redVerdict_criterionId (flips : JsString → Option JsString) (verdict : CriterionVerdict)
    (red : Option Evidence) :
    (redVerdict flips verdict red).criterionId = verdict.criterionId := by
  unfold redVerdict
  split
  · rfl
  · split
    · split <;> rfl
    · split <;> rfl
    · rfl

theorem verdictOn_criterionId (criterion : AcceptanceCriterion) :
    (verdictOn property evidence options criterion).criterionId = criterion.id := by
  rw [verdictOn]
  rcases criterionVerdict_cases options (latestGreen property evidence)
    (latestBase property evidence options) criterion with ⟨-, shape⟩ | ⟨-, shape⟩
  · rw [shape, redVerdict_criterionId, greenVerdict_criterionId]
  · rw [shape, greenVerdict_criterionId]

theorem verdictOn_iff (criterion : AcceptanceCriterion) :
    ((verdictOn property evidence options criterion).status = .fail ↔
      Contradicted property evidence criterion) ∧
    ((verdictOn property evidence options criterion).status = .pass ↔
      Passes property evidence options criterion) ∧
    ((verdictOn property evidence options criterion).status = .indeterminate ∧
        (verdictOn property evidence options criterion).redPhase = some .passedAtBase ↔
      PassedAtBase property evidence options criterion) := by
  obtain ⟨contradicted, supported⟩ := @greenVerdict_status_iff property evidence criterion
  rw [verdictOn]
  rcases criterionVerdict_cases options (latestGreen property evidence)
    (latestBase property evidence options) criterion with ⟨gate, shape⟩ | ⟨gate, shape⟩
  · obtain ⟨required, marked, passes⟩ := gate
    obtain ⟨notFail, pass, base⟩ := redVerdict_status options.inheritedFlips _ passes
      (latestBase property evidence options criterion.id)
    have isSupported := supported.mp passes
    have notContradicted : ¬ Contradicted property evidence criterion := by
      rw [← contradicted, passes]
      simp
    rw [shape, pass, base, greenVerdict_criterionId]
    simp only [Passes, PassedAtBase, newestRed_iff required, EarnsFlip, required, marked,
      isSupported, true_and, forall_const, notFail, notContradicted]
  · rw [shape, greenVerdict_redPhase, contradicted, supported]
    refine ⟨Iff.rfl, ?_, ?_⟩
    · constructor
      · intro holds
        refine ⟨holds, fun required marked => ?_⟩
        exact absurd ⟨required, marked, supported.mpr holds⟩ gate
      · exact And.left
    · constructor
      · rintro ⟨-, impossible⟩
        cases impossible
      · rintro ⟨required, marked, holds, -⟩
        exact absurd ⟨required, marked, supported.mpr holds⟩ gate

end Evaluation

/-! ## The status of a property -/

theorem any_eq_isSome_find? {α : Type} (test : α → Bool) (list : List α) :
    list.any test = (list.find? test).isSome := by
  rw [Bool.eq_iff_iff, List.find?_isSome, List.any_eq_true]

/-- The status that the verdicts lead to. -/
theorem concludeProperty_status (property : DesiredProperty) (options : EvaluationOptions)
    (used : List JsString) (verdicts : List CriterionVerdict) :
    (concludeProperty property options used verdicts).status =
      if verdicts.any fun v => v.status == .fail then
        .unsatisfied
      else if verdicts.any fun v => v.status == .indeterminate then
        .indeterminate
      else if verdicts.any fun v => v.status == .unevaluated then
        if options.inProgressPropertyIds.contains property.id then .inProgress else .unknown
      else if !(verdicts.any fun v => v.status == .pass && v.deterministic) &&
          (verdicts.any fun v => v.status == .pass && v.type == .agent) &&
          !options.allowAgentOnly then
        .indeterminate
      else
        .satisfied := by
  rw [any_eq_isSome_find? (fun v : CriterionVerdict => v.status == .fail),
    any_eq_isSome_find? (fun v : CriterionVerdict => v.status == .indeterminate),
    any_eq_isSome_find? (fun v : CriterionVerdict => v.status == .unevaluated)]
  unfold concludeProperty
  cases verdicts.find? fun v => v.status == .fail with
  | some _ => rfl
  | none =>
      cases verdicts.find? fun v => v.status == .indeterminate with
      | some _ => rfl
      | none =>
          cases verdicts.find? fun v => v.status == .unevaluated with
          | some _ => rfl
          | none =>
              simp only [Option.isSome_none, Bool.false_eq_true, if_false]
              split <;> rfl

theorem concludeProperty_propertyId (property : DesiredProperty) (options : EvaluationOptions)
    (used : List JsString) (verdicts : List CriterionVerdict) :
    (concludeProperty property options used verdicts).propertyId = property.id := by
  unfold concludeProperty
  split
  · rfl
  split
  · rfl
  split
  · rfl
  · simp only
    split <;> rfl

theorem evaluateProperty_propertyId (property : DesiredProperty) (evidence : List Evidence)
    (options : EvaluationOptions) :
    (evaluateProperty property evidence options).propertyId = property.id := by
  unfold evaluateProperty
  simp only
  split
  · rfl
  · exact concludeProperty_propertyId _ _ _ _

/-- The property with its criteria in another order. -/
def reorder (property : DesiredProperty) (acceptance : List AcceptanceCriterion) :
    DesiredProperty :=
  { property with acceptance }

/-- The order of the criteria does not matter for the status. -/
theorem evaluateProperty_reorder {property : DesiredProperty} (evidence : List Evidence)
    (options : EvaluationOptions) {acceptance : List AcceptanceCriterion}
    (permutation : acceptance.Perm property.acceptance) :
    (evaluateProperty (reorder property acceptance) evidence options).status =
      (evaluateProperty property evidence options).status := by
  by_cases waived : ∃ e ∈ relevantEvidence property evidence, isWaiver e = true
  · rw [evaluateProperty_of_waiver options waived]
    exact evaluateProperty_of_waiver options waived
  · have same := permutation.map (verdictOn property evidence options)
    have unwaived : ¬ ∃ e ∈ relevantEvidence (reorder property acceptance) evidence,
        isWaiver e = true := waived
    rw [evaluateProperty_of_no_waiver options waived, evaluateProperty_of_no_waiver options unwaived,
      concludeProperty_status, concludeProperty_status]
    have any : ∀ test : CriterionVerdict → Bool,
        ((reorder property acceptance).acceptance.map (criterionVerdict options
          (latestGreen (reorder property acceptance) evidence)
          (latestBase (reorder property acceptance) evidence options))).any test =
        (property.acceptance.map (criterionVerdict options (latestGreen property evidence)
          (latestBase property evidence options))).any test :=
      fun test => same.any_eq
    simp only [any]
    rfl

end SpecAsCode.Verifier
