import SpecAsCode.Runtime.FirmSatisfaction

/-!
# The red-phase gate

A criterion that its author marked discriminating should count only after a flip from red to
green.  The evaluator enforces this when it is told to and when the mark reaches it.
-/

namespace SpecAsCode.Runtime

open SpecAsCode.Js
open SpecAsCode.Schema
open SpecAsCode.Verifier

/-! ## One evaluation -/

section Evaluation

variable (property : DesiredProperty) (evidence : List Evidence) (options : EvaluationOptions)
  (flips : JsString → Option JsString)

/-- The criterion flipped: an eligible red record contradicts it, or the run inherited its
flip. -/
def Flipped (criterion : AcceptanceCriterion) : Prop :=
  (∃ e ∈ relevantEvidence property evidence, e.red = true ∧ e.criterionId = some criterion.id ∧
    e.outcome = .contradicts ∧ isEligibleRed e.outcome e.payload = true) ∨
  (flips criterion.id).isSome = true

/-- The evaluation asks a marked criterion for its flip: it enforces the red phase, and the
criterion is not a suite, which loses its mark when it is normalized. -/
def Gated (criterion : AcceptanceCriterion) : Prop :=
  options.requireRedPhase = true ∧ criterion.type ≠ .suite

/-- The criterion is supported, and earned its flip where it is asked for. -/
def PassesGate (criterion : AcceptanceCriterion) : Prop :=
  Supported property evidence criterion ∧
    (Gated options criterion → isDiscriminating criterion = true →
      ∃ red, NewestRed property evidence criterion.id red ∧ EarnsFlip options criterion.id red)

/-- The property is waived or a criterion does not pass, or every marked criterion is asked
for its flip or has one. -/
def GateHolds : Prop :=
  Waived property evidence ∨
    (∃ criterion ∈ property.acceptance, ¬ PassesGate property evidence options criterion) ∨
    ∀ criterion ∈ property.acceptance, isDiscriminating criterion = true →
      Gated options criterion ∨ Flipped property evidence flips criterion

/-- A criterion and the form of it that is evaluated: it passes exactly when the criterion
passes the gate. -/
def EvaluatedAs (evaluated : DesiredProperty) (criterion checked : AcceptanceCriterion) : Prop :=
  (Passes evaluated evidence options checked ↔ PassesGate property evidence options criterion) ∧
    isDeterministicCriterion checked = isDeterministicCriterion criterion

variable {property evidence options flips}

/-- A criterion and its command form. -/
theorem evaluatedAs_normal {normal : DesiredProperty} (sameId : normal.id = property.id)
    {criterion checked : AcceptanceCriterion} (normalized : Normalized criterion checked) :
    EvaluatedAs property evidence options normal criterion checked := by
  refine ⟨?_, normalized.isDeterministic_eq⟩
  have relevant : relevantEvidence normal evidence = relevantEvidence property evidence := by
    rw [relevantEvidence, relevantEvidence, sameId]
  have supported : Supported normal evidence checked ↔ Supported property evidence criterion := by
    simp only [Supported, NewestGreen, normalized.id_eq, relevant]
  rw [Passes, PassesGate, supported]
  refine and_congr_right fun _ => ?_
  cases normalized with
  | kept plain =>
      simp only [Gated, plain, ne_eq, not_false_eq_true, and_true, NewestRed, relevant]
  | resolved id ref command mark =>
      simp [Gated, AcceptanceCriterion.type, isDiscriminating, AcceptanceCriterion.discriminating]

/-- Without the red phase every criterion is evaluated as it is written. -/
theorem evaluatedAs_ungated (off : options.requireRedPhase = false)
    (criterion : AcceptanceCriterion) :
    EvaluatedAs property evidence options property criterion criterion := by
  refine ⟨?_, rfl⟩
  simp [Passes, PassesGate, Gated, off]

/-- An earned flip is a flip. -/
theorem flipped_of_earned {criterion : AcceptanceCriterion} {red : Evidence}
    (known : ∀ id, (options.inheritedFlips id).isSome = true → (flips id).isSome = true)
    (newest : NewestRed property evidence criterion.id red)
    (earned : EarnsFlip options criterion.id red) : Flipped property evidence flips criterion := by
  rcases earned with ⟨contradicts, eligible⟩ | ⟨-, inherited⟩
  · obtain ⟨relevant, isRed⟩ := List.mem_filter.mp newest.mem
    exact Or.inl ⟨red, relevant, isRed, newest.named, contradicts, eligible⟩
  · exact Or.inr (known criterion.id inherited)

/-- An evaluation reports satisfaction only with the flips exactly when the gate holds. -/
theorem satisfied_flipped_iff {normal : DesiredProperty}
    (known : ∀ id, (options.inheritedFlips id).isSome = true → (flips id).isSome = true)
    (sameId : normal.id = property.id)
    (each : List.Forall₂ (EvaluatedAs property evidence options normal) property.acceptance
      normal.acceptance) :
    ((evaluateProperty normal evidence options).status = .satisfied →
        ∀ criterion ∈ property.acceptance, isDiscriminating criterion = true →
          Flipped property evidence flips criterion) ↔
      GateHolds property evidence options flips := by
  have sameWaiver : Waived normal evidence ↔ Waived property evidence := by
    rw [Waived, Waived, relevantEvidence, relevantEvidence, sameId]
  constructor
  · intro sound
    by_contra closed
    simp only [GateHolds, not_or, not_exists, not_and, not_not, not_forall] at closed
    obtain ⟨unwaived, passes, criterion, listed, marked, ungated, unflipped⟩ := closed
    have firm : Firm normal evidence options := by
      rw [firm_iff, sameWaiver]
      refine ⟨unwaived, fun checked member => ?_, ?_⟩
      · obtain ⟨source, found, same⟩ := exists_source each member
        exact same.1.mpr (passes source found)
      · obtain ⟨checked, member, same⟩ := exists_partner each listed
        refine ⟨checked, member, ?_⟩
        rw [same.2]
        rw [isDiscriminating, Bool.and_eq_true] at marked
        exact marked.1
    exact unflipped (sound firm.1 criterion listed marked)
  · intro gate satisfied criterion listed marked
    have unwaived : ¬ Waived property evidence := by
      intro waived
      rw [evaluateProperty_of_waiver options (sameWaiver.mpr waived)] at satisfied
      cases satisfied
    have passes : ∀ source ∈ property.acceptance, PassesGate property evidence options source := by
      intro source found
      obtain ⟨checked, member, same⟩ := exists_partner each found
      have pass := evaluateProperty_satisfied satisfied member
      exact same.1.mp ⟨pass.1, pass.2⟩
    rcases gate with waived | ⟨other, member, fails⟩ | asked
    · exact absurd waived unwaived
    · exact absurd (passes other member) fails
    · rcases asked criterion listed marked with gated | flipped
      · obtain ⟨red, newest, earned⟩ := (passes criterion listed).2 gated marked
        exact flipped_of_earned known newest earned
      · exact flipped

end Evaluation

/-! ## The steps of a run -/

/-- The options of the evaluations that a step makes. -/
def RunOp.evaluation : RunOp → Option EvaluationOptions
  | .sweep _ input => some (input.options [])
  | .finish _ input _ => some (input.options [])
  | .resolve _ options => some (options.evaluation [])
  | _ => none

/-- The properties that a step evaluates. -/
def RunOp.evaluates (records : RunRecords) : RunOp → List DesiredProperty
  | .sweep _ input => input.properties
  | .finish _ input _ => input.properties
  | .resolve _ options =>
      (((records.followups.withId options.followupId).filter fun followup =>
        followup.status = .opened).bind (followupTarget options)).toList.map (·.2)
  | _ => []

/-- A property of the specification with all its marked criteria, and perhaps without some of
the others. -/
def MarkedPart (spec : List DesiredProperty) (part : DesiredProperty) : Prop :=
  ∃ source ∈ spec, part.id = source.id ∧ ∀ criterion, isDiscriminating criterion = true →
    (criterion ∈ part.acceptance ↔ criterion ∈ source.acceptance)

/-- A step that evaluates properties of the specification with their marked criteria, and is
given inherited flips that the run has. -/
structure Carries (spec : List DesiredProperty) (flips : JsString → Option JsString)
    (records : RunRecords) (op : RunOp) : Prop where
  parts : ∀ property ∈ op.evaluates records, MarkedPart spec property
  inherited : ∀ options, op.evaluation = some options → ∀ id,
    (options.inheritedFlips id).isSome = true → (flips id).isSome = true

section Steps

variable (sha256Hex : JsString → JsString) (spec : List DesiredProperty)
  (flips : JsString → Option JsString) (records : RunRecords) (op : RunOp)

/-- A property that the step reports satisfied has flipped in every marked criterion, unless
its satisfaction was inherited from an earlier run. -/
def ReportsFlipped : Prop :=
  ∀ report ∈ op.reports sha256Hex records, report.state.status = .satisfied →
    report.inherited = true ∨
      ∀ property ∈ spec, property.id = report.property.id → ∀ criterion ∈ property.acceptance,
        isDiscriminating criterion = true →
          Flipped property (op.act sha256Hex records).all flips criterion

/-- The gate holds for every property that the step evaluates. -/
def KeepsGate : Prop :=
  ∀ options, op.evaluation = some options → ∀ report ∈ op.reports sha256Hex records,
    GateHolds report.property (op.act sha256Hex records).all options flips

/-- Every marked criterion that the step leaves outside the gate has flipped before. -/
def AsksForFlips : Prop :=
  ∀ options, op.evaluation = some options → ∀ property ∈ op.evaluates records,
    ∀ criterion ∈ property.acceptance, isDiscriminating criterion = true →
      Gated options criterion ∨ Flipped property records.all flips criterion

variable {sha256Hex spec flips records op}

/-- A result of two related lists comes from related members. -/
theorem exists_of_mem_zipWith {α β γ : Type} {R : α → β → Prop} {f : α → β → γ}
    {first : List α} {second : List β} (related : List.Forall₂ R first second) {result : γ}
    (member : result ∈ List.zipWith f first second) :
    ∃ item ∈ first, ∃ other, R item other ∧ result = f item other := by
  induction related with
  | nil => cases member
  | @cons item other first second one _ inductionHypothesis =>
      rw [List.zipWith_cons_cons] at member
      rcases List.mem_cons.mp member with rfl | later
      · exact ⟨item, List.mem_cons_self, other, one, rfl⟩
      · obtain ⟨found, listed, partner, holds, same⟩ := inductionHypothesis later
        exact ⟨found, List.mem_cons_of_mem _ listed, partner, holds, same⟩

/-- A report of a step, and the evaluation that it is about. -/
structure ReportOf (sha256Hex : JsString → JsString) (records : RunRecords) (op : RunOp)
    (report : Report) (options : EvaluationOptions) (evaluated : DesiredProperty) : Prop where
  known : ∃ plain, op.evaluation = some plain ∧ plain.requireRedPhase = options.requireRedPhase ∧
    plain.inheritedFlips = options.inheritedFlips
  given : report.property ∈ op.evaluates records
  id : evaluated.id = report.property.id
  criteria : List.Forall₂
    (EvaluatedAs report.property (op.act sha256Hex records).all options evaluated)
    report.property.acceptance evaluated.acceptance
  own : report.state.status = .satisfied ∧ report.inherited = false ↔
    (evaluateProperty evaluated (op.act sha256Hex records).all options).status = .satisfied

/-- A sweep reports on the properties it was given. -/
theorem sweep_reports {surroundings : Surroundings} {input : SweepInput} {result : SweepResult}
    (ended : (verifyProperties sha256Hex surroundings input records).2 = .ok result) :
    List.Forall₂ (fun property state => ∃ now normal, NormalizedProperty property normal ∧
        state = evaluateProperty normal (verifyProperties sha256Hex surroundings input records).1.all
          (input.options now))
      input.properties result.states := by
  obtain ⟨normals, added, created, -, -, complete⟩ :=
    @verifyProperties_adds sha256Hex surroundings input records
  obtain ⟨normalized, states, -⟩ := complete result ended
  refine forall₂_trans ?_ normalized states
  rintro property normal state same ⟨now, shape⟩
  exact ⟨now, normal, same, shape⟩

/-- The property that a resolution evaluates is the one that is found by its identifier. -/
theorem find?_of_followupTarget {options : ResolveFollowupOptions} {followup : FollowUp}
    {criterionId : JsString} {property : DesiredProperty}
    (target : followupTarget options followup = some (criterionId, property)) :
    (options.properties.find? fun other => other.id = property.id) = some property := by
  obtain ⟨criterion, -, forCriterion⟩ := Option.bind_eq_some_iff.mp target
  obtain ⟨propertyId, -, forProperty⟩ := Option.bind_eq_some_iff.mp forCriterion
  obtain ⟨found, search, same⟩ := Option.map_eq_some_iff.mp forProperty
  cases same
  have named : property.id = propertyId := by simpa using List.find?_some search
  rw [named]
  exact search

/-- Every report of a step is about an evaluation that the step made. -/
theorem exists_reportOf {report : Report} (member : report ∈ op.reports sha256Hex records) :
    ∃ options evaluated, ReportOf sha256Hex records op report options evaluated := by
  cases op with
  | sweep surroundings input =>
      rw [RunOp.reports] at member
      split at member
      · cases member
      · next result ended =>
          obtain ⟨property, listed, state, ⟨now, normal, same, shape⟩, rfl⟩ :=
            exists_of_mem_zipWith (sweep_reports ended) member
          refine ⟨input.options now, normal, ⟨input.options [], rfl, rfl, rfl⟩, listed, same.id,
            same.acceptance.imp fun _ _ => evaluatedAs_normal same.id, ?_⟩
          rw [shape]
          simp only [and_true]
          rfl
  | finish surroundings input prior =>
      rw [RunOp.reports] at member
      split at member
      · cases member
      · next result ended =>
          obtain ⟨property, listed, state, ⟨now, normal, same, shape⟩, rfl⟩ :=
            exists_of_mem_zipWith (sweep_reports ended) member
          refine ⟨input.options now, normal, ⟨input.options [], rfl, rfl, rfl⟩, listed, same.id,
            same.acceptance.imp fun _ _ => evaluatedAs_normal same.id, ?_⟩
          rw [RunOp.act, ← shape]
          constructor
          · rintro ⟨satisfied, unchanged⟩
            have same : (chainState prior state).status = state.status :=
              bne_eq_false_iff_eq.mp unchanged
            rw [← same, satisfied]
          · intro satisfied
            have same : (chainState prior state).status = .satisfied := by
              rw [chainState_status, satisfied]
              simp
            simp [same, satisfied]
  | resolve surroundings options =>
      obtain ⟨states, step, shown⟩ := @resolveFollowup_step sha256Hex surroundings options records
      rw [RunOp.reports] at member
      split at member
      · cases member
      · next result ended =>
          rw [shown result ended] at member
          cases step with
          | noEvidence => cases member
          | evidence followup criterionId property e now found isOpen target made all =>
              rw [List.filterMap_cons, evaluateProperty_propertyId, find?_of_followupTarget target]
                at member
              rw [List.mem_singleton.mp member]
              refine ⟨options.evaluation now, property, ⟨options.evaluation [], rfl, rfl, rfl⟩, ?_, rfl,
                List.forall₂_same.mpr fun criterion _ => evaluatedAs_ungated rfl criterion, ?_⟩
              · rw [RunOp.evaluates, found, Option.filter_some, if_pos (by simpa using isOpen),
                  Option.bind_some, target]
                simp
              · simp only [and_true]
                rfl
  | draftFollowup => cases member
  | taskEvidence => cases member
  | resume => cases member

/-- The marked criteria of a property of the specification are those of its part. -/
theorem forall_spec_iff (wellIdentified : WellIdentified spec) {part : DesiredProperty}
    (marked : MarkedPart spec part) (evidence : List Evidence) :
    (∀ property ∈ spec, property.id = part.id → ∀ criterion ∈ property.acceptance,
        isDiscriminating criterion = true → Flipped property evidence flips criterion) ↔
      ∀ criterion ∈ part.acceptance, isDiscriminating criterion = true →
        Flipped part evidence flips criterion := by
  obtain ⟨source, listed, sameId, sameMarks⟩ := marked
  have relevant : relevantEvidence part evidence = relevantEvidence source evidence := by
    rw [relevantEvidence, relevantEvidence, sameId]
  constructor
  · intro all criterion member mark
    have flipped := all source listed sameId.symm criterion ((sameMarks criterion mark).mp member) mark
    rw [Flipped, relevant]
    exact flipped
  · intro flipped property found same criterion member mark
    have one : property = source :=
      eq_of_map_nodup wellIdentified.properties found listed (same.trans sameId)
    subst one
    have holds := flipped criterion ((sameMarks criterion mark).mpr member) mark
    rw [Flipped, relevant] at holds
    exact holds

theorem gateHolds_congr {property : DesiredProperty} {evidence : List Evidence}
    {plain options : EvaluationOptions} (red : plain.requireRedPhase = options.requireRedPhase)
    (inherited : plain.inheritedFlips = options.inheritedFlips) :
    GateHolds property evidence plain flips ↔ GateHolds property evidence options flips := by
  simp only [GateHolds, PassesGate, Gated, EarnsFlip, red, inherited]

/-- A step reports satisfaction only with the flips exactly when it keeps the gate. -/
theorem reportsFlipped_iff (wellIdentified : WellIdentified spec)
    (carries : Carries spec flips records op) :
    ReportsFlipped sha256Hex spec flips records op ↔ KeepsGate sha256Hex flips records op := by
  have each : ∀ report ∈ op.reports sha256Hex records,
      ((report.state.status = .satisfied → report.inherited = true ∨
        ∀ property ∈ spec, property.id = report.property.id → ∀ criterion ∈ property.acceptance,
          isDiscriminating criterion = true →
            Flipped property (op.act sha256Hex records).all flips criterion) ↔
      ∀ options, op.evaluation = some options →
        GateHolds report.property (op.act sha256Hex records).all options flips) := by
    intro report member
    obtain ⟨options, evaluated, of⟩ := exists_reportOf member
    obtain ⟨plain, known, red, inherited⟩ := of.known
    have covered := carries.inherited plain known
    rw [inherited] at covered
    rw [forall_spec_iff wellIdentified (carries.parts _ of.given),
      show (∀ options, op.evaluation = some options → _) ↔ _ from
        ⟨fun all => all plain known, fun holds other same => by
          rw [known, Option.some.injEq] at same; exact same ▸ holds⟩,
      gateHolds_congr red inherited, ← satisfied_flipped_iff covered of.id of.criteria, ← of.own]
    constructor
    · rintro reported ⟨satisfied, own⟩
      refine (reported satisfied).resolve_left ?_
      simp [own]
    · intro sound satisfied
      by_cases own : report.inherited = true
      · exact Or.inl own
      · exact Or.inr (sound ⟨satisfied, by simpa using own⟩)
  constructor
  · intro reported options known report member
    exact (each report member).mp (reported report member) options known
  · intro keeps report member
    exact (each report member).mpr fun options known => keeps options known report member

/-- A step only adds to the evidence of its run. -/
theorem all_subset_act (sha256Hex : JsString → JsString) (records : RunRecords) (op : RunOp) :
    records.all ⊆ (op.act sha256Hex records).all := by
  have swept : ∀ surroundings input,
      records.all ⊆ (verifyProperties sha256Hex surroundings input records).1.all := by
    intro surroundings input
    obtain ⟨normals, added, created, adds, -⟩ :=
      @verifyProperties_adds sha256Hex surroundings input records
    rw [adds.all]
    exact List.subset_append_left _ _
  cases op with
  | sweep surroundings input => exact swept surroundings input
  | finish surroundings input prior => exact swept surroundings input
  | resolve surroundings options =>
      obtain ⟨states, step, -⟩ := @resolveFollowup_step sha256Hex surroundings options records
      rw [RunOp.act]
      cases step with
      | noEvidence same => simp [RunRecords.all, same]
      | evidence followup criterionId property e now found isOpen target made all =>
          rw [all]
          exact List.subset_append_left _ _
  | draftFollowup => exact List.Subset.refl _
  | taskEvidence => exact List.subset_append_left _ _
  | resume => exact List.Subset.refl _

/-- A flip is not lost. -/
theorem Flipped.mono {property : DesiredProperty} {evidence more : List Evidence}
    {criterion : AcceptanceCriterion} (grows : evidence ⊆ more)
    (flipped : Flipped property evidence flips criterion) :
    Flipped property more flips criterion := by
  refine flipped.imp_left fun ⟨e, relevant, holds⟩ => ⟨e, ?_, holds⟩
  exact List.filter_subset _ grows relevant

/-- A step that asks for the flips keeps the gate. -/
theorem keepsGate_of_asks (asks : AsksForFlips flips records op) :
    KeepsGate sha256Hex flips records op := by
  intro options known report member
  obtain ⟨own, evaluated, of⟩ := exists_reportOf member
  refine Or.inr (Or.inr fun criterion listed marked => ?_)
  refine (asks options known _ of.given criterion listed marked).imp_right fun flipped => ?_
  exact flipped.mono (all_subset_act sha256Hex records op)

end Steps

/-- A sweep of an apply run that enforces the red phase; `red` tells the one at the base. -/
def gatedSweep (red : Bool) (properties : List DesiredProperty) : SweepInput :=
  { standaloneSweep properties with
    red, enforceRedPhase := true, requireRedPhase := true
    suites := some fun _ => some ⟨js "unit", js "check", js "digest"⟩ }

/-- A property with one suite criterion that is marked discriminating. -/
def suiteProperty : DesiredProperty :=
  { uncheckedProperty with acceptance := [.suite (js "A-1") (js "unit") (some true)] }

/-- The suite passes at the base and at the end. -/
def suiteRun : List RunOp :=
  [.sweep (stillSurroundings 0) (gatedSweep true [suiteProperty]),
    .finish (stillSurroundings 0) (gatedSweep false [suiteProperty]) OrderedMap.empty]

/-- The marked criterion of a property that a person judges as well. -/
def judgedPart : DesiredProperty :=
  { uncheckedProperty with acceptance := [.command (js "A-1") (js "check") none none (some true)] }

def judgedProperty : DesiredProperty :=
  { judgedPart with acceptance := judgedPart.acceptance ++ [.human (js "A-2") (js "look") none] }

/-- The command passes at the base and at the end, and a person confirms the rest. -/
def confirmedRun : List RunOp :=
  [.sweep (stillSurroundings 0) (gatedSweep true [judgedPart]),
    .finish (stillSurroundings 0) (gatedSweep false [judgedProperty]) OrderedMap.empty,
    .resolve (stillSurroundings 0) (answerFirstFollowup [judgedProperty] (js "confirm"))]

/-- A report of satisfaction without any record that contradicts shows an open gate. -/
theorem not_reportsFlipped {spec : List DesiredProperty} {records : RunRecords} {op : RunOp}
    {property : DesiredProperty} {criterion : AcceptanceCriterion} (listed : property ∈ spec)
    (member : criterion ∈ property.acceptance) (marked : isDiscriminating criterion = true)
    (reported : (op.reports lengthHash records).any (fun report =>
      report.state.status == .satisfied && !report.inherited && property.id == report.property.id) =
        true)
    (uncontradicted : (op.act lengthHash records).all.all (fun e => e.outcome != .contradicts) =
      true) : ¬ ReportsFlipped lengthHash spec (fun _ => none) records op := by
  intro flipped
  obtain ⟨report, found, holds⟩ := List.any_eq_true.mp reported
  simp only [Bool.and_eq_true, beq_iff_eq, Bool.not_eq_true'] at holds
  obtain ⟨⟨satisfied, own⟩, same⟩ := holds
  rcases flipped report found satisfied with inherited | each
  · rw [own] at inherited
    cases inherited
  · rcases each property listed same criterion member marked with ⟨e, relevant, -, -, outcome, -⟩ | none
    · have other := List.all_eq_true.mp uncontradicted e (List.mem_of_mem_filter relevant)
      rw [outcome] at other
      cases other
    · cases none

end SpecAsCode.Runtime
