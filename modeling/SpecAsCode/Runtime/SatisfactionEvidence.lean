import SpecAsCode.Cli.ScopedDiffVerify
import SpecAsCode.Runtime.ChainedStates
import SpecAsCode.Runtime.InheritedFlips
import SpecAsCode.Runtime.ResolveFollowup

/-!
# Satisfaction and evidence

Whether a property that is reported satisfied has a supporting record, on each of the paths
that report a status.
-/

namespace SpecAsCode.Runtime

open SpecAsCode.Js
open SpecAsCode.Schema
open SpecAsCode.Verifier
open SpecAsCode.Cli

/-- A record supports one of the criteria of the property. -/
def Evidenced (property : DesiredProperty) (evidence : List Evidence) : Prop :=
  ∃ e ∈ evidence, e.outcome = .supports ∧ property.id ∈ e.propertyRefs ∧
    ∃ criterion ∈ property.acceptance, e.criterionId = some criterion.id

theorem Evidenced.mono {property : DesiredProperty} {evidence more : List Evidence}
    (evidenced : Evidenced property evidence) (kept : evidence ⊆ more) : Evidenced property more := by
  obtain ⟨e, member, supports⟩ := evidenced
  exact ⟨e, kept member, supports⟩

/-- The newest record of a supported criterion is evidence for the property. -/
theorem evidenced_of_supported {property : DesiredProperty} {evidence : List Evidence}
    {criterion : AcceptanceCriterion} (listed : criterion ∈ property.acceptance)
    (supported : Supported property evidence criterion) : Evidenced property evidence := by
  obtain ⟨e, newest, supports⟩ := supported
  have kept := List.mem_filter.mp newest.mem
  have relevant := List.mem_filter.mp kept.1
  exact ⟨e, relevant.1, supports, by simpa using relevant.2, criterion, listed, newest.named⟩

/-- A property without criteria that nobody waived is satisfied. -/
theorem evaluateProperty_vacuous {property : DesiredProperty} {evidence : List Evidence}
    (options : EvaluationOptions) (unwaived : ¬ Waived property evidence)
    (empty : property.acceptance = []) :
    (evaluateProperty property evidence options).status = .satisfied := by
  rw [evaluateProperty_of_no_waiver options unwaived, concludeProperty_status, empty]
  rfl

/-- The evaluator reports satisfaction without evidence exactly for a property without
criteria that nobody waived. -/
theorem evaluateProperty_evidenced_iff (property : DesiredProperty) (evidence : List Evidence)
    (options : EvaluationOptions) :
    ((evaluateProperty property evidence options).status = .satisfied → Evidenced property evidence) ↔
      property.acceptance ≠ [] ∨ Waived property evidence := by
  constructor
  · intro evidenced
    by_contra condition
    rw [not_or, not_not] at condition
    obtain ⟨-, -, -, -, criterion, listed, -⟩ :=
      evidenced (evaluateProperty_vacuous options condition.2 condition.1)
    rw [condition.1] at listed
    cases listed
  · rintro (nonempty | waived) satisfied
    · obtain ⟨criterion, listed⟩ := List.exists_mem_of_ne_nil _ nonempty
      exact evidenced_of_supported listed (evaluateProperty_satisfied satisfied listed).1
    · rw [evaluateProperty_of_waiver options waived] at satisfied
      cases satisfied

/-- The same at the end of a run, where satisfaction may be inherited. -/
theorem chainState_evidenced_iff {property : DesiredProperty} (named : WellNamed property)
    (prior : OrderedMap JsString JsString) (evidence : List Evidence)
    (options : EvaluationOptions) :
    ((chainState prior (evaluateProperty property evidence options)).status = .satisfied →
        Evidenced property evidence) ↔
      property.acceptance ≠ [] ∨ Waived property evidence := by
  by_cases upgraded : Upgraded prior property evidence options
  · -- The criterion that passed at the base is supported in this run.
    obtain ⟨-, -, -, before, criterion, after, shape, base, -⟩ := (upgraded_iff named).mp upgraded
    have listed : criterion ∈ property.acceptance := by
      rw [shape]
      simp
    exact iff_of_true (fun _ => evidenced_of_supported listed base.2.2.1)
      (Or.inl (List.ne_nil_of_mem listed))
  · rw [chainState_of_not_upgraded upgraded]
    exact evaluateProperty_evidenced_iff property evidence options

/-! ## Normalized properties -/

theorem evidenced_normal_iff {property normal : DesiredProperty}
    (normalized : NormalizedProperty property normal) (evidence : List Evidence) :
    Evidenced normal evidence ↔ Evidenced property evidence := by
  have ids : ∀ id, (∃ criterion ∈ normal.acceptance, some id = some criterion.id) ↔
      ∃ criterion ∈ property.acceptance, some id = some criterion.id := by
    intro id
    constructor
    · rintro ⟨criterion, listed, same⟩
      obtain ⟨source, member, partner⟩ := exists_source normalized.acceptance listed
      exact ⟨source, member, by rw [same, partner.id_eq]⟩
    · rintro ⟨criterion, listed, same⟩
      obtain ⟨result, member, partner⟩ := exists_partner normalized.acceptance listed
      exact ⟨result, member, by rw [same, partner.id_eq]⟩
  unfold Evidenced
  refine exists_congr fun e => and_congr_right fun _ => and_congr_right fun _ => ?_
  rw [normalized.id]
  refine and_congr_right fun _ => ?_
  cases e.criterionId with
  | none => simp
  | some id => exact ids id

theorem waived_normal_iff {property normal : DesiredProperty}
    (normalized : NormalizedProperty property normal) (evidence : List Evidence) :
    Waived normal evidence ↔ Waived property evidence := by
  rw [Waived, Waived, relevantEvidence, relevantEvidence, normalized.id]

theorem acceptance_normal_eq_nil {property normal : DesiredProperty}
    (normalized : NormalizedProperty property normal) :
    normal.acceptance = [] ↔ property.acceptance = [] := by
  rw [← List.length_eq_zero_iff, ← List.length_eq_zero_iff, normalized.acceptance.length_eq]

/-! ## The paths that report a status -/

/-- A report of a status is backed: satisfaction comes with evidence. -/
def Backed (property : DesiredProperty) (evidence : List Evidence) (state : RequirementState) :
    Prop :=
  state.status = .satisfied → Evidenced property evidence

/-- The composition of two relations between lists. -/
theorem forall₂_trans {α β γ : Type} {R : α → β → Prop} {S : β → γ → Prop} {T : α → γ → Prop}
    (compose : ∀ a b c, R a b → S b c → T a c) {first : List α} {second : List β} {third : List γ}
    (left : List.Forall₂ R first second) (right : List.Forall₂ S second third) :
    List.Forall₂ T first third := by
  induction left generalizing third with
  | nil =>
      cases right
      exact .nil
  | cons related _ inductionHypothesis =>
      cases right with
      | cons other others => exact .cons (compose _ _ _ related other) (inductionHypothesis others)

section Paths

variable {sha256Hex : JsString → JsString} {surroundings : Surroundings}

/-- The states a sweep reports. -/
theorem sweep_backed_iff {input : SweepInput} {records : RunRecords} {result : SweepResult}
    (ended : (verifyProperties sha256Hex surroundings input records).2 = .ok result) :
    List.Forall₂ (fun property state =>
        Backed property (verifyProperties sha256Hex surroundings input records).1.all state ↔
          property.acceptance ≠ [] ∨
            Waived property (verifyProperties sha256Hex surroundings input records).1.all)
      input.properties result.states := by
  obtain ⟨properties, added, created, -, -, complete⟩ :=
    @verifyProperties_adds sha256Hex surroundings input records
  obtain ⟨normalized, states, -⟩ := complete result ended
  refine forall₂_trans (fun property normal state same evaluated => ?_) normalized states
  obtain ⟨now, rfl⟩ := evaluated
  rw [Backed, ← evidenced_normal_iff same, ← waived_normal_iff same, Ne,
    ← acceptance_normal_eq_nil same]
  exact evaluateProperty_evidenced_iff normal _ _

/-- The states a resolution reports. -/
theorem resolution_backed_iff {options : ResolveFollowupOptions} {records : RunRecords}
    {result : ResolveFollowupResult}
    (ended : (resolveFollowup sha256Hex surroundings options records).2 = .ok result) :
    ∀ state ∈ result.propertyStates, ∃ property ∈ options.properties,
      property.id = state.propertyId ∧
      (Backed property (resolveFollowup sha256Hex surroundings options records).1.all state ↔
        property.acceptance ≠ [] ∨
          Waived property (resolveFollowup sha256Hex surroundings options records).1.all) := by
  intro state member
  obtain ⟨states, step, same⟩ := @resolveFollowup_step sha256Hex surroundings options records
  rw [same result ended] at member
  cases step with
  | noEvidence => cases member
  | evidence followup criterionId property e now found isOpen target made all =>
      rw [List.mem_singleton.mp member]
      refine ⟨property, mem_of_followupTarget target, (evaluateProperty_propertyId _ _ _).symm, ?_⟩
      exact evaluateProperty_evidenced_iff property _ _

/-! ## Verification scoped to a diff -/

/-- The throwaway records hold no record of a skipped criterion, and no waiver. -/
def Scratch (skipIds : List JsString) (records : RunRecords) : Prop :=
  ∀ e ∈ records.all, (∃ id, e.criterionId = some id ∧ id ∉ skipIds) ∧ isWaiver e = false

theorem scratch_sweep {skipIds : List JsString} {properties : List DesiredProperty}
    {input : SweepInput} {records : RunRecords} (scratch : Scratch skipIds records) :
    Scratch skipIds (verifyProperties sha256Hex surroundings
      { input with properties := properties.map (withoutSkipped skipIds) } records).1 ∧
    records.all ⊆ (verifyProperties sha256Hex surroundings
      { input with properties := properties.map (withoutSkipped skipIds) } records).1.all := by
  obtain ⟨normals, added, created, adds, sources, -⟩ := @verifyProperties_adds sha256Hex surroundings
    { input with properties := properties.map (withoutSkipped skipIds) } records
  rw [Scratch, adds.all]
  refine ⟨fun e member => ?_, List.subset_append_left _ _⟩
  rcases List.mem_append.mp member with old | new
  · exact scratch e old
  · obtain ⟨pair, listed, made, -⟩ := adds.recorded e new
    rw [mem_criteriaOf] at listed
    obtain ⟨stripped, found, normalized⟩ := sources pair.1 listed.1
    obtain ⟨property, -, rfl⟩ := List.mem_map.mp found
    obtain ⟨criterion, left, same⟩ := exists_source normalized.acceptance listed.2
    refine ⟨⟨pair.2.id, made.criterionId, ?_⟩, made.notWaiver⟩
    rw [same.id_eq]
    simpa using (List.mem_filter.mp left).2

theorem not_waived_of_scratch {skipIds : List JsString} {records : RunRecords}
    (scratch : Scratch skipIds records) (property : DesiredProperty) :
    ¬ Waived property records.all := by
  rintro ⟨e, relevant, waiver⟩
  rw [(scratch e (List.mem_filter.mp relevant).1).2] at waiver
  cases waiver

/-- The report on one property, seen from the end of the verification. -/
theorem scoped_backed_iff {skipIds : List JsString} {property : DesiredProperty}
    {records final : RunRecords} {state : RequirementState} (scratch : Scratch skipIds records)
    (finalScratch : Scratch skipIds final) (kept : records.all ⊆ final.all)
    (reported : Backed (withoutSkipped skipIds property) records.all state ↔
      (withoutSkipped skipIds property).acceptance ≠ [] ∨
        Waived (withoutSkipped skipIds property) records.all) :
    Backed property final.all state ↔
      ∃ criterion ∈ property.acceptance, criterion.id ∉ skipIds := by
  have left : (withoutSkipped skipIds property).acceptance ≠ [] ↔
      ∃ criterion ∈ property.acceptance, criterion.id ∉ skipIds := by
    rw [Ne, withoutSkipped, List.filter_eq_nil_iff]
    simp
  rw [or_iff_left (not_waived_of_scratch scratch _), left] at reported
  constructor
  · intro backed
    by_contra none
    have unbacked := mt reported.mp none
    rw [Backed, Classical.not_imp] at unbacked
    obtain ⟨e, member, -, -, criterion, listed, named⟩ := backed unbacked.1
    obtain ⟨⟨id, same, notSkipped⟩, -⟩ := finalScratch e member
    rw [named, Option.some.injEq] at same
    exact none ⟨criterion, listed, same ▸ notSkipped⟩
  · intro some satisfied
    obtain ⟨e, member, supports, refers, criterion, listed, named⟩ := reported.mpr some satisfied
    exact ⟨e, kept member, supports, refers, criterion, (List.mem_filter.mp listed).1, named⟩

theorem scopedSweeps_backed_iff {input : SweepInput} {skipIds : List JsString}
    (specs : List (List DesiredProperty)) {records : RunRecords}
    {reports : List (List RequirementState)} (scratch : Scratch skipIds records)
    (ended : (scopedSweeps sha256Hex surroundings input skipIds specs records).2 = .ok reports) :
    Scratch skipIds (scopedSweeps sha256Hex surroundings input skipIds specs records).1 ∧
    records.all ⊆ (scopedSweeps sha256Hex surroundings input skipIds specs records).1.all ∧
    List.Forall₂ (List.Forall₂ fun property state =>
        Backed property (scopedSweeps sha256Hex surroundings input skipIds specs records).1.all state ↔
          ∃ criterion ∈ property.acceptance, criterion.id ∉ skipIds)
      specs reports := by
  induction specs generalizing records reports with
  | nil =>
      cases ended
      exact ⟨scratch, List.Subset.refl _, .nil⟩
  | cons properties specs inductionHypothesis =>
      have swept := @scratch_sweep sha256Hex surroundings skipIds properties input records scratch
      have backed := @sweep_backed_iff sha256Hex surroundings
        { input with properties := properties.map (withoutSkipped skipIds) } records
      rw [scopedSweeps] at ended ⊢
      generalize verifyProperties sha256Hex surroundings
        { input with properties := properties.map (withoutSkipped skipIds) } records = sweep
        at ended swept backed ⊢
      obtain ⟨next, outcome⟩ := sweep
      cases outcome with
      | error error => cases ended
      | ok result =>
          simp only at ended swept backed ⊢
          cases rest : (scopedSweeps sha256Hex surroundings input skipIds specs next).2 with
          | error error => rw [rest] at ended; cases ended
          | ok states =>
              rw [rest] at ended
              cases ended
              obtain ⟨finalScratch, kept, others⟩ := inductionHypothesis swept.1 rest
              refine ⟨finalScratch, List.Subset.trans swept.2 kept, .cons ?_ others⟩
              have first := backed rfl
              rw [List.forall₂_map_left_iff] at first
              exact first.imp fun property state reported =>
                scoped_backed_iff swept.1 finalScratch kept reported

end Paths

/-- Every path reports satisfaction with evidence exactly when the property it evaluates has
a criterion left, or was waived. -/
theorem satisfied_evidenced_iff (sha256Hex : JsString → JsString) (surroundings : Surroundings) :
    (∀ input records result,
      (verifyProperties sha256Hex surroundings input records).2 = .ok result →
      List.Forall₂ (fun property state =>
          Backed property (verifyProperties sha256Hex surroundings input records).1.all state ↔
            property.acceptance ≠ [] ∨
              Waived property (verifyProperties sha256Hex surroundings input records).1.all)
        input.properties result.states) ∧
    (∀ scope input specs reports,
      (runScopedDiffVerify sha256Hex surroundings scope input specs).2 = .ok reports →
      List.Forall₂ (List.Forall₂ fun property state =>
          Backed property (runScopedDiffVerify sha256Hex surroundings scope input specs).1.all state ↔
            ∃ criterion ∈ property.acceptance, criterion.id ∉ scope.skipIds specs)
        specs reports) ∧
    (∀ options records result,
      (resolveFollowup sha256Hex surroundings options records).2 = .ok result →
      ∀ state ∈ result.propertyStates, ∃ property ∈ options.properties,
        property.id = state.propertyId ∧
        (Backed property (resolveFollowup sha256Hex surroundings options records).1.all state ↔
          property.acceptance ≠ [] ∨
            Waived property (resolveFollowup sha256Hex surroundings options records).1.all)) ∧
    (∀ runs run property evidence options, WellNamed property →
      (Backed property evidence
          (chainState (priorSatisfied runs run) (evaluateProperty property evidence options)) ↔
        property.acceptance ≠ [] ∨ Waived property evidence)) := by
  refine ⟨fun _ _ _ => sweep_backed_iff, fun scope input specs reports ended => ?_,
    fun _ _ _ => resolution_backed_iff, fun _ _ _ evidence options named =>
      chainState_evidenced_iff named _ evidence options⟩
  have scratch : Scratch (scope.skipIds specs) RunRecords.fresh := by
    intro e member
    cases member
  exact (scopedSweeps_backed_iff specs scratch ended).2.2

/-- A command that ends with an exit code. -/
def exitedRun (exitCode : Nat) : CommandRunResult :=
  { command := js "check", cwd := js "/repo", exitCode := some (JsNumber.ofNat exitCode)
    stdout := [], stderr := [], stdoutDigest := js "digest", stderrDigest := js "digest"
    durationMs := none, timedOut := false, signal := none, allowed := true, deniedReason := none }

theorem instant_ne_nil : js "t" ≠ [] := by
  decide

/-- Surroundings in which every command ends with one exit code and the clock stands still. -/
def stillSurroundings (exitCode : Nat) : Surroundings where
  evidenceTime _ := ⟨js "t", instant_ne_nil⟩
  followupTime _ := js "t"
  evaluationTime _ := js "t"
  observe _ :=
    { command := ⟨exitedRun exitCode, ⟨js "execution", false, js "run-1"⟩, exitedRun exitCode,
        js "execution"⟩
      file := ⟨false, none, JsNumber.ofNat 0⟩
      agent := ⟨none, false⟩ }

/-- A standalone sweep over some properties; every command is allowed. -/
def standaloneSweep (properties : List DesiredProperty) : SweepInput :=
  { properties, runId := js "run-1", revision := js "head"
    policy := fun _ => ⟨js "build", .allow, []⟩, provider := none, taskId := none, red := false
    enforceRedPhase := false, environmentReady := true, suites := none
    inheritedFlips := fun _ => none, allowAgentOnlyMustRequirements := false
    requireRedPhase := false }

/-- A property of priority `should` without acceptance criteria. -/
def uncheckedProperty : DesiredProperty :=
  { id := js "P-1", statement := js "holds", priority := .should, dependsOn := [], acceptance := [] }

/-- A property without acceptance criteria is reported satisfied by a sweep that recorded
nothing. -/
theorem not_satisfied_evidenced :
    ∃ result, (verifyProperties lengthHash (stillSurroundings 0)
        (standaloneSweep [uncheckedProperty]) RunRecords.fresh).2 = .ok result ∧
      ¬ List.Forall₂ (fun property state => Backed property (verifyProperties lengthHash
          (stillSurroundings 0) (standaloneSweep [uncheckedProperty]) RunRecords.fresh).1.all state)
        [uncheckedProperty] result.states := by
  refine ⟨_, rfl, fun backed => ?_⟩
  cases backed with
  | cons first _ =>
      obtain ⟨e, member, -⟩ := first rfl
      cases member

end SpecAsCode.Runtime
