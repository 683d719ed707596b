import SpecAsCode.Js.OrderedMap
import SpecAsCode.Js.Parse
import SpecAsCode.Runtime.Runs
import SpecAsCode.Schema.Ids
import SpecAsCode.Verifier.Verdicts

/-!
# Inherited satisfaction

At the end of a run a property whose criteria already passed at the base is taken as
satisfied when an earlier run of the chain satisfied it.  The upgrade looks at the reason
the evaluator gave, which names one criterion.
-/

namespace SpecAsCode.Runtime

open SpecAsCode.Js
open SpecAsCode.Schema
open SpecAsCode.Verifier

/-! ## The upgrade -/

/-- The properties that a state file calls satisfied, as the loop over the entries of
`priorState.requirements` reads them: a `null` entry ends it. -/
def satisfiedIn (text : JsString) : List JsString :=
  match ((parseJson text).getD .undefined).property (js "requirements") with
  | .object members =>
      ((members.takeWhile fun member => !member.2.isNullish).filter fun member =>
        (member.2.property (js "status")).asString == some (js "satisfied")).map Prod.fst
  | _ => []

/-- The properties that one earlier run satisfied, when it is a run of the same
specification. -/
def satisfiedBy (runs : RunsDir) (run : RunMeta) (priorId : JsString) : List JsString :=
  match (runs.folder priorId).metadata with
  | none => []
  | some prior =>
      if prior.specId ≠ run.specId ∨ prior.specDigest ≠ run.specDigest then
        []
      else
        ((runs.folder priorId).state.map satisfiedIn).getD []

/-- The run that satisfied a property, for the properties an earlier run satisfied. -/
def priorSatisfied (runs : RunsDir) (run : RunMeta) : OrderedMap JsString JsString :=
  (ancestorIds runs run).foldl
    (fun found priorId => (satisfiedBy runs run priorId).foldl
      (fun found propertyId =>
        if found.get? propertyId = none then found.set propertyId priorId else found) found)
    OrderedMap.empty

/-- A property is inherited from the nearest run of the specification that satisfied it. -/
theorem get?_priorSatisfied (runs : RunsDir) (run : RunMeta) (propertyId : JsString) :
    (priorSatisfied runs run).get? propertyId =
      (ancestorIds runs run).find? fun priorId => propertyId ∈ satisfiedBy runs run priorId := by
  refine OrderedMap.get?_foldl_nearest (fun found priorId => ?_) _
  have adopts : ∀ (map : OrderedMap JsString JsString) (id : JsString),
      (if map.get? id = none then map.set id priorId else map) =
        if True ∧ map.get? id = none then map.set id priorId else map := by
    simp
  rw [OrderedMap.get?_foldl_adopt adopts]
  simp

/-- What the upgrade looks for in a reason. -/
def baseMarker : JsString :=
  js "passed at base revision"

/-- The state of one property after the upgrade. -/
def chainState (prior : OrderedMap JsString JsString) (state : RequirementState) :
    RequirementState :=
  match prior.get? state.propertyId with
  | none => state
  | some priorId =>
      if state.status = .indeterminate ∧ includes (state.reason.getD []) baseMarker = true then
        { state with
          status := .satisfied
          reason := some (js "established by prior run " ++ priorId ++
            js " - criteria pass at this base; flip evidence lives in that run's record") }
      else
        state

/-- `chainedStates`. -/
def chainedStates (runs : RunsDir) (run : RunMeta) (states : List RequirementState) :
    List RequirementState :=
  states.map (chainState (priorSatisfied runs run))

/-! ## The marker -/

theorem includes_append {first : CodeUnit} {text : JsString} (absent : first ∉ text)
    (more rest : JsString) :
    includes (text ++ more) (first :: rest) = includes more (first :: rest) := by
  induction text with
  | nil => rfl
  | cons code text inductionHypothesis =>
      rw [List.mem_cons, not_or] at absent
      have skipped : (first :: rest).isPrefixOf (code :: (text ++ more)) = false := by
        simp [List.isPrefixOf, absent.1]
      rw [← inductionHypothesis absent.2, includes, List.cons_append, List.tails_cons,
        List.any_cons, skipped, Bool.false_or]
      rfl

/-- The reason for an undecided criterion has the marker when its detail has. -/
theorem includes_reason {id : JsString} (valid : isPropertyId id = true) (detail : JsString) :
    includes (js "criterion " ++ id ++ js " inconclusive (" ++ detail ++ js ")") baseMarker =
      includes (detail ++ js ")") baseMarker := by
  have absent : unit 'p' ∉ js "criterion " ++ id ++ js " inconclusive (" := by
    rw [List.mem_append, List.mem_append]
    rintro ((member | member) | member)
    · exact absurd member (by decide)
    · rcases mem_of_isPropertyId valid member with same | upper
      · exact absurd same (by decide)
      · exact absurd upper (by decide)
    · exact absurd member (by decide)
  have split : baseMarker = unit 'p' :: js "assed at base revision" := by decide
  rw [split, List.append_assoc _ detail, includes_append absent]

theorem greenVerdict_detail (criterion : AcceptanceCriterion) (latest : Option Evidence) :
    includes ((greenVerdict criterion latest).detail ++ js ")") baseMarker = false := by
  cases latest with
  | none =>
      show includes (js "no evidence recorded" ++ js ")") baseMarker = false
      decide +kernel
  | some e =>
      have kinds : ∀ kind : EvidenceKind, ∀ ending ∈ [js " evidence supports",
          js " evidence contradicts", js " evidence inconclusive"],
          includes (kind.text ++ ending ++ js ")") baseMarker = false := by
        intro kind
        cases kind <;> decide +kernel
      cases outcome : e.outcome with
      | supports => simpa [greenVerdict, outcome] using kinds e.kind _ (by simp)
      | contradicts =>
          simpa [greenVerdict, outcome] using kinds e.kind (js " evidence contradicts") (by simp)
      | inconclusive =>
          simpa [greenVerdict, outcome] using kinds e.kind (js " evidence inconclusive") (by simp)

theorem redVerdict_detail {flips : JsString → Option JsString} {verdict : CriterionVerdict}
    (passes : verdict.status = .pass) {red : Option Evidence}
    (undecided : (redVerdict flips verdict red).status = .indeterminate) :
    includes ((redVerdict flips verdict red).detail ++ js ")") baseMarker =
      ((redVerdict flips verdict red).redPhase == some .passedAtBase) := by
  cases red with
  | none =>
      show includes (js "no red-phase evidence recorded; the criterion must fail at the run's base revision" ++ js ")") baseMarker = false
      decide +kernel
  | some red =>
      cases outcome : red.outcome with
      | supports =>
          cases inherited : flips verdict.criterionId with
          | none =>
              have marked : includes (js "criterion passed at base revision; it does not discriminate this change" ++ js ")") baseMarker = true := by
                decide +kernel
              simp only [redVerdict, outcome, inherited]
              exact marked
          | some priorRun => simp [redVerdict, outcome, inherited, passes] at undecided
      | contradicts =>
          by_cases eligible : isEligibleRed .contradicts red.payload = true
          · simp [redVerdict, outcome, eligible, passes] at undecided
          · rw [Bool.not_eq_true] at eligible
            have unmarked : includes (js "baseline red is oracle-invalid or unevaluably so; no red was demonstrated, so no flip is established" ++ js ")") baseMarker = false := by
              decide +kernel
            simp only [redVerdict, outcome, eligible, Bool.false_eq_true, if_false]
            exact unmarked
      | inconclusive =>
          have unmarked : includes (js "baseline evidence inconclusive; no red was demonstrated, so no flip is established" ++ js ")") baseMarker = false := by
            decide +kernel
          simp only [redVerdict, outcome]
          exact unmarked

/-- Among the undecided criteria those that passed at the base carry the marker. -/
theorem undecided_detail {options : EvaluationOptions}
    {latest latestRed : JsString → Option Evidence} {criterion : AcceptanceCriterion}
    (undecided : (criterionVerdict options latest latestRed criterion).status = .indeterminate) :
    includes ((criterionVerdict options latest latestRed criterion).detail ++ js ")") baseMarker =
      ((criterionVerdict options latest latestRed criterion).redPhase == some .passedAtBase) := by
  rcases criterionVerdict_cases options latest latestRed criterion with ⟨gate, shape⟩ | ⟨-, shape⟩
  · rw [shape] at undecided ⊢
    exact redVerdict_detail gate.2.2 undecided
  · rw [shape, greenVerdict_detail, greenVerdict_redPhase]
    rfl

/-- The criteria of a property have identifiers of the pattern. -/
def WellNamed (property : DesiredProperty) : Prop :=
  ∀ criterion ∈ property.acceptance, isPropertyId criterion.id = true

instance wellNamed_decidable (property : DesiredProperty) : Decidable (WellNamed property) :=
  inferInstanceAs (Decidable (∀ criterion ∈ property.acceptance, isPropertyId criterion.id = true))

/-- The evaluator gives the reason that the upgrade looks for. -/
def Marked (state : RequirementState) : Prop :=
  state.status = .indeterminate ∧ includes (state.reason.getD []) baseMarker = true

/-- The marker is there when no criterion is contradicted and the first undecided one passed
at the base. -/
theorem concludeProperty_marked {property : DesiredProperty} {evidence : List Evidence}
    {options : EvaluationOptions} (named : WellNamed property) (used : List JsString) :
    Marked (concludeProperty property options used
        (property.acceptance.map (verdictOn property evidence options))) ↔
      (∀ criterion ∈ property.acceptance, ¬ Contradicted property evidence criterion) ∧
      ∃ before criterion after, property.acceptance = before ++ criterion :: after ∧
        PassedAtBase property evidence options criterion ∧
        ∀ other ∈ before, (verdictOn property evidence options other).status ≠ .indeterminate := by
  unfold Marked concludeProperty
  cases failed : (property.acceptance.map (verdictOn property evidence options)).find? fun v =>
      v.status == .fail with
  | some verdict =>
      obtain ⟨criterion, member, rfl⟩ := List.mem_map.mp (List.mem_of_find?_eq_some failed)
      have fails : (verdictOn property evidence options criterion).status = .fail := by
        simpa using List.find?_some failed
      constructor
      · rintro ⟨impossible, -⟩
        cases impossible
      · rintro ⟨none, -⟩
        exact absurd ((verdictOn_iff criterion).1.mp fails) (none criterion member)
  | none =>
      have notContradicted : ∀ criterion ∈ property.acceptance,
          ¬ Contradicted property evidence criterion := by
        intro criterion member contradicted
        have passed := List.find?_eq_none.mp failed _ (List.mem_map.mpr ⟨criterion, member, rfl⟩)
        exact passed (by simpa using (verdictOn_iff criterion).1.mpr contradicted)
      cases undecided : (property.acceptance.map (verdictOn property evidence options)).find?
          fun v => v.status == .indeterminate with
      | some verdict =>
          obtain ⟨found, first, rest, split, earlier⟩ := List.find?_eq_some_iff_append.mp undecided
          obtain ⟨before, tail, shape, rfl, mapped⟩ := List.map_eq_append_iff.mp split
          obtain ⟨criterion, after, rfl, rfl, rfl⟩ := List.map_eq_cons_iff.mp mapped
          have isUndecided : (verdictOn property evidence options criterion).status =
              .indeterminate := by
            simpa using found
          have valid : isPropertyId criterion.id = true := named criterion (by rw [shape]; simp)
          have reason : includes (js "criterion " ++
              (verdictOn property evidence options criterion).criterionId ++
              js " inconclusive (" ++ (verdictOn property evidence options criterion).detail ++
              js ")") baseMarker =
              ((verdictOn property evidence options criterion).redPhase == some .passedAtBase) := by
            rw [verdictOn_criterionId, includes_reason valid]
            exact undecided_detail isUndecided
          simp only [Option.getD_some, reason, true_and]
          constructor
          · intro base
            refine ⟨notContradicted, before, criterion, after, shape,
              (verdictOn_iff criterion).2.2.mp ⟨isUndecided, by simpa using base⟩, ?_⟩
            intro other member
            simpa using earlier _ (List.mem_map.mpr ⟨other, member, rfl⟩)
          · rintro ⟨-, otherBefore, other, otherAfter, otherShape, base, settled⟩
            have verdict := (verdictOn_iff other).2.2.mpr base
            have first : (property.acceptance.map (verdictOn property evidence options)).find?
                (fun v => v.status == .indeterminate) =
                some (verdictOn property evidence options other) := by
              rw [List.find?_eq_some_iff_append]
              refine ⟨by simpa using verdict.1,
                otherBefore.map (verdictOn property evidence options),
                otherAfter.map (verdictOn property evidence options),
                by rw [otherShape]; simp, fun earlierVerdict member => ?_⟩
              obtain ⟨earlierOne, listed, rfl⟩ := List.mem_map.mp member
              simpa using settled earlierOne listed
            rw [undecided, Option.some.injEq] at first
            rw [first, verdict.2]
            rfl
      | none =>
          constructor
          · intro marked
            exfalso
            revert marked
            cases (property.acceptance.map (verdictOn property evidence options)).find? fun v =>
                v.status == .unevaluated with
            | some missing =>
                rintro ⟨status, -⟩
                simp only at status
                split at status <;> cases status
            | none =>
                simp only
                split
                · rintro ⟨-, marker⟩
                  have unmarked : includes (js "verified only by agent evaluation; set verification.allowAgentOnlyMustRequirements to accept agent-only evidence")
                      baseMarker = false := by
                    decide +kernel
                  simp only [Option.getD_some, unmarked] at marker
                  cases marker
                · rintro ⟨status, -⟩
                  cases status
          · rintro ⟨-, before, criterion, after, shape, base, -⟩
            have listed : criterion ∈ property.acceptance := by
              rw [shape]
              simp
            have settled := List.find?_eq_none.mp undecided _
              (List.mem_map.mpr ⟨criterion, listed, rfl⟩)
            exact absurd ((verdictOn_iff criterion).2.2.mpr base).1 (by simpa using settled)

/-! ## When the upgrade masks nothing -/

section Upgrade

variable (prior : OrderedMap JsString JsString) (property : DesiredProperty)
  (evidence : List Evidence) (options : EvaluationOptions)

/-- A human waived the property. -/
def Waived : Prop :=
  ∃ e ∈ relevantEvidence property evidence, isWaiver e = true

/-- The evaluator leaves the property undecided, and the upgrade makes it satisfied. -/
def Upgraded : Prop :=
  (evaluateProperty property evidence options).status = .indeterminate ∧
    (chainState prior (evaluateProperty property evidence options)).status = .satisfied

/-- An upgraded property has only criteria that pass and criteria that passed at the base, and
the order of the criteria does not change what becomes of the property. -/
def MasksNothing : Prop :=
  (Upgraded prior property evidence options → ∀ criterion ∈ property.acceptance,
    Passes property evidence options criterion ∨
      PassedAtBase property evidence options criterion) ∧
  ∀ acceptance, acceptance.Perm property.acceptance →
    (chainState prior (evaluateProperty (reorder property acceptance) evidence options)).status =
      (chainState prior (evaluateProperty property evidence options)).status

variable {prior property evidence options}

theorem chainState_status (state : RequirementState) :
    (chainState prior state).status =
      if (prior.get? state.propertyId).isSome = true ∧ state.status = .indeterminate ∧
          includes (state.reason.getD []) baseMarker = true then
        .satisfied
      else
        state.status := by
  rw [chainState]
  cases prior.get? state.propertyId with
  | none => simp
  | some priorId =>
      simp only [Option.isSome_some, true_and]
      split <;> rfl

theorem upgraded_iff (named : WellNamed property) :
    Upgraded prior property evidence options ↔
      (prior.get? property.id).isSome = true ∧ ¬ Waived property evidence ∧
      (∀ criterion ∈ property.acceptance, ¬ Contradicted property evidence criterion) ∧
      ∃ before criterion after, property.acceptance = before ++ criterion :: after ∧
        PassedAtBase property evidence options criterion ∧
        ∀ other ∈ before, (verdictOn property evidence options other).status ≠ .indeterminate := by
  have marked : Upgraded prior property evidence options ↔
      (prior.get? property.id).isSome = true ∧
        Marked (evaluateProperty property evidence options) := by
    rw [Upgraded, chainState_status, evaluateProperty_propertyId, Marked]
    constructor
    · rintro ⟨undecided, upgraded⟩
      split_ifs at upgraded with all
      · exact all
      · rw [undecided] at upgraded
        cases upgraded
    · intro all
      rw [if_pos all]
      exact ⟨all.2.1, rfl⟩
  rw [marked]
  by_cases waived : Waived property evidence
  · have status := evaluateProperty_of_waiver options waived
    constructor
    · rintro ⟨-, undecided, -⟩
      rw [status] at undecided
      cases undecided
    · rintro ⟨-, unwaived, -⟩
      exact absurd waived unwaived
  · rw [evaluateProperty_of_no_waiver options waived]
    have concluded := @concludeProperty_marked property evidence options named
      (property.acceptance.filterMap fun criterion =>
        (latestGreen property evidence criterion.id).map Evidence.id)
    refine and_congr_right fun _ => ?_
    rw [and_iff_right waived]
    exact concluded

theorem chainState_of_not_upgraded (kept : ¬ Upgraded prior property evidence options) :
    (chainState prior (evaluateProperty property evidence options)).status =
      (evaluateProperty property evidence options).status := by
  rw [chainState_status]
  split_ifs with all
  · refine absurd ⟨all.2.1, ?_⟩ kept
    rw [chainState_status, if_pos all]
  · rfl

/-- A property without undecided criteria other than those that passed at the base is
upgraded. -/
theorem upgraded_of_excused (named : WellNamed property)
    (inherited : (prior.get? property.id).isSome = true) (unwaived : ¬ Waived property evidence)
    (excused : ∀ criterion ∈ property.acceptance, Passes property evidence options criterion ∨
      PassedAtBase property evidence options criterion)
    {criterion : AcceptanceCriterion} (member : criterion ∈ property.acceptance)
    (base : PassedAtBase property evidence options criterion) :
    Upgraded prior property evidence options := by
  rw [upgraded_iff named]
  refine ⟨inherited, unwaived, fun other listed contradicted => ?_, ?_⟩
  · have failed : (verdictOn property evidence options other).status = .fail :=
      (verdictOn_iff other).1.mpr contradicted
    rcases excused other listed with passes | passedAtBase
    · rw [(verdictOn_iff other).2.1.mpr passes] at failed
      cases failed
    · rw [((verdictOn_iff other).2.2.mpr passedAtBase).1] at failed
      cases failed
  · cases found : property.acceptance.find? fun other =>
        (verdictOn property evidence options other).status == .indeterminate with
    | none =>
        have settled := List.find?_eq_none.mp found criterion member
        exact absurd ((verdictOn_iff criterion).2.2.mpr base).1 (by simpa using settled)
    | some first =>
        obtain ⟨undecided, before, after, shape, settled⟩ := List.find?_eq_some_iff_append.mp found
        have listed : first ∈ property.acceptance := by
          rw [shape]
          simp
        refine ⟨before, first, after, shape, ?_, fun other earlier => by
          simpa using settled other earlier⟩
        rcases excused first listed with passes | passedAtBase
        · simp [(verdictOn_iff first).2.1.mpr passes] at undecided
        · exact passedAtBase

/-- Inherited satisfaction masks nothing exactly when the property was not satisfied earlier
or is decided anyway, when no criterion passed at the base, or when every criterion passes or
passed at the base. -/
theorem masksNothing_iff (named : WellNamed property) :
    MasksNothing prior property evidence options ↔
      prior.get? property.id = none ∨ Waived property evidence ∨
      (∃ criterion ∈ property.acceptance, Contradicted property evidence criterion) ∨
      (∀ criterion ∈ property.acceptance, ¬ PassedAtBase property evidence options criterion) ∨
      ∀ criterion ∈ property.acceptance, Passes property evidence options criterion ∨
        PassedAtBase property evidence options criterion := by
  have reordered : ∀ acceptance, acceptance.Perm property.acceptance →
      WellNamed (reorder property acceptance) :=
    fun acceptance permutation criterion member =>
      named criterion (permutation.mem_iff.mp member)
  have unordered : (∀ acceptance, acceptance.Perm property.acceptance →
      ¬ Upgraded prior (reorder property acceptance) evidence options) →
      MasksNothing prior property evidence options := by
    intro never
    have self : ¬ Upgraded prior property evidence options := never _ (List.Perm.refl _)
    refine ⟨fun upgraded => absurd upgraded self, fun acceptance permutation => ?_⟩
    rw [chainState_of_not_upgraded (never acceptance permutation),
      chainState_of_not_upgraded self, evaluateProperty_reorder evidence options permutation]
  constructor
  · rintro ⟨sound, orderless⟩
    by_contra condition
    simp only [not_or, not_exists, not_and, not_forall, not_not] at condition
    obtain ⟨inherited, unwaived, notContradicted, ⟨base, baseMember, passedAtBase⟩,
      other, otherMember, notPasses, notBase⟩ := condition
    obtain ⟨before, after, shape⟩ := List.append_of_mem baseMember
    have permutation : (base :: (before ++ after)).Perm property.acceptance := by
      rw [shape]
      exact List.perm_middle.symm
    have upgraded : Upgraded prior (reorder property (base :: (before ++ after))) evidence
        options := by
      rw [upgraded_iff (reordered _ permutation)]
      exact ⟨Option.isSome_iff_ne_none.mpr inherited, unwaived,
        fun criterion member => notContradicted criterion (permutation.mem_iff.mp member),
        [], base, before ++ after, rfl, passedAtBase, by simp⟩
    by_cases self : Upgraded prior property evidence options
    · exact (sound self other otherMember).elim notPasses notBase
    · have status := orderless _ permutation
      rw [upgraded.2, chainState_of_not_upgraded self] at status
      have passes := evaluateProperty_satisfied status.symm otherMember
      refine notPasses ⟨passes.1, passes.2⟩
  · rintro (unknown | waived | ⟨criterion, member, contradicted⟩ | noBase | excused)
    · refine unordered fun acceptance permutation upgraded => ?_
      have inherited := ((upgraded_iff (reordered _ permutation)).mp upgraded).1
      rw [show prior.get? (reorder property acceptance).id = none from unknown] at inherited
      cases inherited
    · refine unordered fun acceptance permutation upgraded => ?_
      exact ((upgraded_iff (reordered _ permutation)).mp upgraded).2.1 waived
    · refine unordered fun acceptance permutation upgraded => ?_
      exact ((upgraded_iff (reordered _ permutation)).mp upgraded).2.2.1 criterion
        (permutation.mem_iff.mpr member) contradicted
    · refine unordered fun acceptance permutation upgraded => ?_
      obtain ⟨before, criterion, after, shape, base, -⟩ :=
        ((upgraded_iff (reordered _ permutation)).mp upgraded).2.2.2
      have listed : criterion ∈ acceptance := by
        rw [show acceptance = _ from shape]
        simp
      exact noBase criterion (permutation.mem_iff.mp listed) base
    · by_cases some : ∃ criterion ∈ property.acceptance,
          PassedAtBase property evidence options criterion
      · obtain ⟨criterion, member, base⟩ := some
        by_cases settled : prior.get? property.id = none ∨ Waived property evidence
        · refine unordered fun acceptance permutation upgraded => ?_
          obtain ⟨inherited, unwaived, -⟩ := (upgraded_iff (reordered _ permutation)).mp upgraded
          rcases settled with unknown | waived
          · rw [show prior.get? (reorder property acceptance).id = none from unknown] at inherited
            cases inherited
          · exact unwaived waived
        · rw [not_or] at settled
          have inherited : (prior.get? property.id).isSome = true :=
            Option.isSome_iff_ne_none.mpr settled.1
          refine ⟨fun _ => excused, fun acceptance permutation => ?_⟩
          have upgraded : Upgraded prior property evidence options :=
            upgraded_of_excused named inherited settled.2 excused member base
          have other : Upgraded prior (reorder property acceptance) evidence options :=
            @upgraded_of_excused prior (reorder property acceptance) evidence options
              (reordered _ permutation) inherited settled.2
              (fun c listed => excused c (permutation.mem_iff.mp listed)) criterion
              (permutation.mem_iff.mpr member) base
          rw [upgraded.2, other.2]
      · refine unordered fun acceptance permutation upgraded => ?_
        obtain ⟨before, criterion, after, shape, base, -⟩ :=
          ((upgraded_iff (reordered _ permutation)).mp upgraded).2.2.2
        have listed : criterion ∈ acceptance := by
          rw [show acceptance = _ from shape]
          simp
        exact some ⟨criterion, permutation.mem_iff.mp listed, base⟩

end Upgrade

/-- When the inheritance at the end of a run masks nothing. -/
theorem inheritedSatisfaction_iff (runs : RunsDir) (run : RunMeta) {property : DesiredProperty}
    (named : WellNamed property) (evidence : List Evidence) (options : EvaluationOptions) :
    MasksNothing (priorSatisfied runs run) property evidence options ↔
      (∀ priorId ∈ ancestorIds runs run, property.id ∉ satisfiedBy runs run priorId) ∨
      Waived property evidence ∨
      (∃ criterion ∈ property.acceptance, Contradicted property evidence criterion) ∨
      (∀ criterion ∈ property.acceptance, ¬ PassedAtBase property evidence options criterion) ∨
      ∀ criterion ∈ property.acceptance, Passes property evidence options criterion ∨
        PassedAtBase property evidence options criterion := by
  rw [masksNothing_iff named, get?_priorSatisfied, List.find?_eq_none]
  simp

/-- A record of the run for a criterion of the property `P-1`. -/
def sweepRecord (criterion : JsString) (kind : EvidenceKind) (outcome : EvidenceOutcome)
    (red : Bool) : Evidence :=
  { id := js "EV-0001", runId := js "run-1", taskId := none, criterionId := some criterion
    propertyRefs := [js "P-1"], kind, outcome, producer := ⟨.runtime, none⟩, timestamp := js "t"
    repositoryRevision := js "head", red, payload := .object [], chain := none
    digest := js "sha256" }

/-- A property with a discriminating command and a manual review. -/
def reviewedProperty : DesiredProperty :=
  { id := js "P-1", statement := js "holds", priority := .must, dependsOn := []
    acceptance := [.command (js "A-1") (js "true") none none (some true),
      .human (js "A-2") (js "look") none] }

/-- The command passes now and at the base; the review is outstanding. -/
def outstandingEvidence : List Evidence :=
  [sweepRecord (js "A-1") .command .supports true, sweepRecord (js "A-1") .command .supports false,
    sweepRecord (js "A-2") .human .inconclusive false]

/-- The final sweep of an apply run under the red phase. -/
def finalSweep : EvaluationOptions :=
  { allowAgentOnly := false, inProgressPropertyIds := [], now := js "now", requireRedPhase := true
    inheritedFlips := fun _ => none }

/-- A run whose parent satisfied the property. -/
def satisfiedParent : RunsDir where
  ids := [js "run-0"]
  folder id :=
    if id = js "run-0" then
      { metadata := some
          { runId := js "run-0", specId := js "spec", specDigest := js "digest", planId := none
            baseRevision := none, parentRunId := none }
        evidence := none
        state := some (js ("\x7b\"requirements\":\x7b\"P-1\":\x7b\"status\":\"satisfied\"" ++
          "\x7d\x7d\x7d")) }
    else
      ⟨none, none, none⟩
  listed id known := by
    by_cases same : id = js "run-0"
    · simp [same]
    · simp [same] at known

/-- A run that continues it. -/
def continuedRun : RunMeta :=
  { runId := js "run-1", specId := js "spec", specDigest := js "digest", planId := none
    baseRevision := none, parentRunId := some (js "run-0") }

/-- Without the review nothing is masked. -/
theorem inheritedSatisfaction_iff_commandOnly :
    MasksNothing (priorSatisfied satisfiedParent continuedRun)
      (reorder reviewedProperty [.command (js "A-1") (js "true") none none (some true)])
      outstandingEvidence finalSweep := by
  rw [inheritedSatisfaction_iff satisfiedParent continuedRun (by decide +kernel)]
  refine Or.inr (Or.inr (Or.inr (Or.inr fun criterion member => Or.inr ?_)))
  rw [List.mem_singleton.mp member]
  apply (verdictOn_iff _).2.2.mp
  decide +kernel

/-- The outstanding review is masked by the command that passed at the base. -/
theorem not_masksNothing_outstandingReview :
    WellNamed reviewedProperty ∧
      ¬ MasksNothing (priorSatisfied satisfiedParent continuedRun) reviewedProperty
        outstandingEvidence finalSweep := by
  refine ⟨by decide +kernel, fun ⟨sound, _⟩ => ?_⟩
  have upgraded : Upgraded (priorSatisfied satisfiedParent continuedRun) reviewedProperty
      outstandingEvidence finalSweep := by
    constructor
    · decide +kernel
    · decide +kernel
  have undecided : (verdictOn reviewedProperty outstandingEvidence finalSweep
      (.human (js "A-2") (js "look") none)).status = .indeterminate ∧
      (verdictOn reviewedProperty outstandingEvidence finalSweep
        (.human (js "A-2") (js "look") none)).redPhase = none := by
    decide +kernel
  rcases sound upgraded (.human (js "A-2") (js "look") none) (by simp [reviewedProperty]) with
    passes | base
  · have verdict := (verdictOn_iff _).2.1.mpr passes
    rw [undecided.1] at verdict
    cases verdict
  · have verdict := ((verdictOn_iff _).2.2.mpr base).2
    rw [undecided.2] at verdict
    cases verdict

end SpecAsCode.Runtime
