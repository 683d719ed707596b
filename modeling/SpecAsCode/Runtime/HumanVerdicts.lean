import SpecAsCode.Runtime.FirmSatisfaction

/-!
# Human verdicts and placeholders

A sweep writes an inconclusive placeholder for a human criterion unless a follow-up of the
criterion is open, whatever a person has answered before.
-/

namespace SpecAsCode.Runtime

open SpecAsCode.Js
open SpecAsCode.Schema
open SpecAsCode.Verifier

/-- Records of other criteria do not change the newest record of a criterion. -/
theorem latestByCriterion_unrelated {criterion : JsString} (evidence : List Evidence)
    {more : List Evidence} (unrelated : ∀ e ∈ more, e.criterionId ≠ some criterion) :
    latestByCriterion (evidence ++ more) criterion = latestByCriterion evidence criterion := by
  induction more using List.reverseRecOn with
  | nil => rw [List.append_nil]
  | append_singleton more e inductionHypothesis =>
      rw [← List.append_assoc, latestByCriterion_append, recordLatest_apply,
        if_neg fun both => unrelated e (by simp) both.1]
      exact inductionHypothesis fun other member =>
        unrelated other (List.mem_append_left _ member)

section Verdict

variable (property : DesiredProperty) (criterion : AcceptanceCriterion)

/-- A record of a person's answer on a criterion. -/
def IsHumanAnswer (e : Evidence) : Prop :=
  e.producer.type = .human ∧ e.criterionId = some criterion.id ∧ property.id ∈ e.propertyRefs

/-- A person has confirmed or rejected the criterion, and no person has answered since. -/
def Answered (records : RunRecords) : Prop :=
  ∃ before e after, records.all = before ++ e :: after ∧ IsHumanAnswer property criterion e ∧
    e.outcome ≠ .inconclusive ∧ ∀ later ∈ after, ¬ IsHumanAnswer property criterion later

/-- The verdict on the criterion was not inconclusive, and became so. -/
def Displaced (before after : RunRecords) (options : EvaluationOptions) : Prop :=
  (verdictOn property before.all options criterion).status ≠ .indeterminate ∧
    (verdictOn property after.all options criterion).status = .indeterminate

/-- A follow-up for the criterion was opened. -/
def AskedAgain (before after : RunRecords) : Prop :=
  ∃ f ∈ after.followups.drop before.followups.length,
    f.criterionId = some criterion.id ∧ f.propertyId = some property.id

end Verdict

/-- The verdict on a human criterion depends on its newest record only. -/
theorem verdictOn_human {property : DesiredProperty} {evidence : List Evidence}
    {options : EvaluationOptions} {criterion : AcceptanceCriterion} (human : criterion.type = .human) :
    verdictOn property evidence options criterion =
      greenVerdict criterion (latestGreen property evidence criterion.id) := by
  have unmarked : isDiscriminating criterion = false := by
    simp [isDiscriminating, isDeterministicCriterion, human]
  rw [verdictOn]
  rcases criterionVerdict_cases options (latestGreen property evidence)
    (latestBase property evidence options) criterion with ⟨gate, -⟩ | ⟨-, shape⟩
  · rw [unmarked] at gate
    cases gate.2.1
  · exact shape

/-- Records that do not refer to a criterion of the property leave its verdict alone. -/
theorem latestGreen_unrelated {property : DesiredProperty} {criterion : JsString}
    (evidence : List Evidence) {more : List Evidence}
    (unrelated : ∀ e ∈ more, property.id ∈ e.propertyRefs → e.criterionId ≠ some criterion) :
    latestGreen property (evidence ++ more) criterion = latestGreen property evidence criterion := by
  rw [latestGreen, latestGreen, relevantEvidence, relevantEvidence, List.filter_append,
    List.filter_append]
  refine latestByCriterion_unrelated _ fun e member => ?_
  have relevant := List.mem_filter.mp (List.mem_filter.mp member).1
  exact unrelated e relevant.1 (by simpa using relevant.2)

/-! ## The condition and what it gives -/

/-- The sweep of a step, if it makes one. -/
def RunOp.sweepInput : RunOp → Option SweepInput
  | .sweep _ input => some input
  | .finish _ input _ => some input
  | _ => none

/-- A sweep covers an answered human criterion only while a follow-up is open for it. -/
def SparesAnswered (records : RunRecords) (op : RunOp) : Prop :=
  ∀ input, op.sweepInput = some input →
    ∀ property ∈ input.properties, ∀ criterion ∈ property.acceptance, criterion.type = .human →
      Answered property criterion records →
      (records.followups.findOpenForCriterion criterion.id).isSome = true

section Answers

variable (sha256Hex : JsString → JsString)

/-- A sweep neither displaces the verdict of a person nor asks for it again. -/
def KeepsAnswers (spec : List DesiredProperty) (records : RunRecords) (op : RunOp) : Prop :=
  ∀ input, op.sweepInput = some input →
    ∀ property ∈ spec, ∀ criterion ∈ property.acceptance, criterion.type = .human →
      Answered property criterion records →
      (∀ options, ¬ Displaced property criterion records (op.act sha256Hex records) options) ∧
        ¬ AskedAgain property criterion records (op.act sha256Hex records)

variable {sha256Hex}

theorem eq_of_sweepInput {op : RunOp} {input : SweepInput} (swept : op.sweepInput = some input) :
    ∃ surroundings, op = .sweep surroundings input ∨
      ∃ prior, op = .finish surroundings input prior := by
  cases op with
  | sweep surroundings other => cases swept; exact ⟨surroundings, Or.inl rfl⟩
  | finish surroundings other prior => cases swept; exact ⟨surroundings, Or.inr ⟨prior, rfl⟩⟩
  | resolve => cases swept
  | draftFollowup => cases swept
  | taskEvidence => cases swept
  | resume => cases swept

theorem act_sweep {op : RunOp} {input : SweepInput} (swept : op.sweepInput = some input)
    (records : RunRecords) : ∃ surroundings,
      op.act sha256Hex records = (verifyProperties sha256Hex surroundings input records).1 := by
  rcases eq_of_sweepInput swept with ⟨surroundings, rfl | ⟨prior, rfl⟩⟩
  · exact ⟨surroundings, rfl⟩
  · exact ⟨surroundings, rfl⟩

theorem follows_sweep {spec : List DesiredProperty} {op : RunOp} {input : SweepInput}
    (swept : op.sweepInput = some input) (follows : op.Follows spec) :
    ∀ property ∈ input.properties, PartOf spec property := by
  rcases eq_of_sweepInput swept with ⟨surroundings, rfl | ⟨prior, rfl⟩⟩
  · exact follows
  · exact follows

/-- A criterion that a sweep checks and that has the property and the identifier of a human
criterion of the specification is that criterion, and the sweep was given it. -/
theorem covered_of_pair {spec : List DesiredProperty} (wellIdentified : WellIdentified spec)
    {property : DesiredProperty} (listed : property ∈ spec) {criterion : AcceptanceCriterion}
    (member : criterion ∈ property.acceptance) (human : criterion.type = .human)
    {part normal : DesiredProperty} {checked : AcceptanceCriterion} (fromSpec : PartOf spec part)
    (normalized : NormalizedProperty part normal) (inNormal : checked ∈ normal.acceptance)
    (sameProperty : normal.id = property.id) (sameId : checked.id = criterion.id) :
    criterion ∈ part.acceptance ∧ part.id = property.id ∧ checked.type = .human := by
  obtain ⟨source, inPart, same⟩ := exists_source normalized.acceptance inNormal
  have one := wellIdentified.criterion_eq listed member fromSpec inPart
    (normalized.id.symm.trans sameProperty) (same.id_eq.symm.trans sameId)
  subst one
  refine ⟨inPart, normalized.id.symm.trans sameProperty, ?_⟩
  cases same with
  | kept => exact human
  | resolved => cases human

/-- A sweep that spares answered criteria keeps their verdicts. -/
theorem keepsAnswers_of_spares {spec : List DesiredProperty} (wellIdentified : WellIdentified spec)
    {records : RunRecords} {op : RunOp} (follows : op.Follows spec)
    (spares : SparesAnswered records op) : KeepsAnswers sha256Hex spec records op := by
  intro input swept property listed criterion member human answered
  obtain ⟨surroundings, act⟩ := @act_sweep sha256Hex op input swept records
  obtain ⟨normals, added, created, adds, sources, -⟩ :=
    @verifyProperties_adds sha256Hex surroundings input records
  rw [← act] at adds
  have stillOpen : ∀ part ∈ input.properties, part.id = property.id →
      criterion ∈ part.acceptance →
      (records.followups.findOpenForCriterion criterion.id).isSome = true := by
    intro part inInput sameProperty inPart
    refine spares input swept part inInput criterion inPart human ?_
    unfold Answered IsHumanAnswer
    rw [sameProperty]
    exact answered
  have fromSpec := follows_sweep swept follows
  constructor
  · -- The sweep has no record for the criterion.
    rintro options ⟨decided, undecided⟩
    rw [adds.all, verdictOn_human human, latestGreen_unrelated,
      ← @verdictOn_human property records.all options criterion human] at undecided
    · exact decided undecided
    · intro e inAdded refers named
      obtain ⟨pair, found, made, reached⟩ := adds.recorded e inAdded
      rw [mem_criteriaOf] at found
      obtain ⟨part, inInput, normalized⟩ := sources pair.1 found.1
      rw [made.propertyRefs, List.mem_singleton] at refers
      rw [made.criterionId, Option.some.injEq] at named
      obtain ⟨inPart, sameProperty, checkedHuman⟩ := covered_of_pair wellIdentified listed member
        human (fromSpec part inInput) normalized found.2 refers.symm named
      have noneOpen := reached checkedHuman
      rw [named, stillOpen part inInput sameProperty inPart] at noneOpen
      cases noneOpen
  · -- No follow-up is created while one is open.
    rintro ⟨f, inCreated, named, ofProperty⟩
    rw [adds.followups, List.drop_left] at inCreated
    obtain ⟨-, pair, found, addressed, noneOpen⟩ := adds.opened f inCreated
    rw [mem_criteriaOf] at found
    obtain ⟨part, inInput, normalized⟩ := sources pair.1 found.1
    have sameId : pair.2.id = criterion.id := Option.some.inj (addressed.1.symm.trans named)
    have same : pair.1.id = property.id := Option.some.inj (addressed.2.symm.trans ofProperty)
    obtain ⟨inPart, sameProperty, -⟩ := covered_of_pair wellIdentified listed member human
      (fromSpec part inInput) normalized found.2 same sameId
    rw [sameId, stillOpen part inInput sameProperty inPart] at noneOpen
    cases noneOpen

/-- The criteria a sweep is given have different identifiers. -/
def DistinctCriteria (input : SweepInput) : Prop :=
  ∀ property ∈ input.properties, ∀ criterion ∈ property.acceptance,
    ∀ other ∈ input.properties, ∀ another ∈ other.acceptance,
      another.id = criterion.id → other.id = property.id

/-- A sweep that ends with a result asks again for every answered criterion it did not
spare. -/
theorem askedAgain_of_not_spared {surroundings : Surroundings} {input : SweepInput}
    {records : RunRecords} {result : SweepResult} (distinct : DistinctCriteria input)
    (ended : (verifyProperties sha256Hex surroundings input records).2 = .ok result)
    {property : DesiredProperty} (listed : property ∈ input.properties)
    {criterion : AcceptanceCriterion} (member : criterion ∈ property.acceptance)
    (human : criterion.type = .human)
    (noneOpen : (records.followups.findOpenForCriterion criterion.id).isSome = false) :
    AskedAgain property criterion records
      (verifyProperties sha256Hex surroundings input records).1 := by
  obtain ⟨normals, added, created, adds, sources, complete⟩ :=
    @verifyProperties_adds sha256Hex surroundings input records
  obtain ⟨normalized, -, opens⟩ := complete result ended
  obtain ⟨normal, inNormals, same⟩ := exists_partner normalized listed
  obtain ⟨checked, inNormal, kept⟩ := exists_partner same.acceptance member
  have checkedHuman : checked.type = .human := by
    cases kept with
    | kept => exact human
    | resolved => cases human
  obtain ⟨f, inCreated, named⟩ := opens (normal, checked) (mem_criteriaOf.mpr ⟨inNormals, inNormal⟩)
    checkedHuman (by rw [kept.id_eq]; exact noneOpen)
  obtain ⟨-, pair, found, addressed, -⟩ := adds.opened f inCreated
  rw [mem_criteriaOf] at found
  obtain ⟨part, inInput, partner⟩ := sources pair.1 found.1
  obtain ⟨source, inPart, pairKept⟩ := exists_source partner.acceptance found.2
  have sameId : source.id = criterion.id := by
    rw [← pairKept.id_eq, ← kept.id_eq]
    exact Option.some.inj (addressed.1.symm.trans named)
  have sameProperty : part.id = property.id :=
    distinct property listed criterion member part inInput source inPart sameId
  refine ⟨f, ?_, ?_, ?_⟩
  · rw [adds.followups, List.drop_left]
    exact inCreated
  · rw [named, kept.id_eq]
  · rw [addressed.2, partner.id, sameProperty]

end Answers

/-- When sweeps keep the verdicts of people: along every run whose sweeps spare the answered
criteria, and only then, as a sweep that does not spare one asks for it again. -/
theorem human_verdicts_kept (sha256Hex : JsString → JsString) :
    (∀ spec ops, WellIdentified spec →
      History.EveryStep (RunOp.act sha256Hex)
        (fun records op => op.Follows spec ∧ SparesAnswered records op) ops RunRecords.fresh →
      History.EveryStep (RunOp.act sha256Hex) (KeepsAnswers sha256Hex spec) ops
        RunRecords.fresh) ∧
    (∀ spec records surroundings input result, DistinctCriteria input →
      (∀ property ∈ input.properties, property ∈ spec) →
      (verifyProperties sha256Hex surroundings input records).2 = .ok result →
      KeepsAnswers sha256Hex spec records (.sweep surroundings input) →
      SparesAnswered records (.sweep surroundings input)) := by
  constructor
  · intro spec ops wellIdentified steps
    exact steps.mono fun records op holds => keepsAnswers_of_spares wellIdentified holds.1 holds.2
  · intro spec records surroundings input result distinct fromSpec ended keeps other swept property
      listed criterion member human answered
    cases swept
    by_contra noneOpen
    exact (keeps input rfl property (fromSpec property listed) criterion member human answered).2
      (askedAgain_of_not_spared distinct ended listed member human (by simpa using noneOpen))

/-- A property with one human criterion. -/
def manualProperty : DesiredProperty :=
  { id := js "P-1", statement := js "holds", priority := .must, dependsOn := []
    acceptance := [.human (js "A-1") (js "look") none] }

/-- A person confirms the criterion, and the property is swept again. -/
def sweptAgain : List RunOp :=
  [.sweep (stillSurroundings 0) (standaloneSweep [manualProperty]),
    .resolve (stillSurroundings 0) (answerFirstFollowup [manualProperty] (js "confirm")),
    .sweep (stillSurroundings 0) (standaloneSweep [manualProperty])]

theorem answered_of_getLast {property : DesiredProperty} {criterion : AcceptanceCriterion}
    {records : RunRecords}
    (last : (records.all.getLast?.any fun e => e.producer.type == .human &&
      e.criterionId == some criterion.id && e.propertyRefs.contains property.id &&
      e.outcome != .inconclusive) = true) :
    Answered property criterion records := by
  cases found : records.all.getLast? with
  | none => rw [found] at last; cases last
  | some e =>
      obtain ⟨before, shape⟩ := List.getLast?_eq_some_iff.mp found
      rw [found] at last
      simp only [Option.any_some, Bool.and_eq_true, beq_iff_eq, bne_iff_ne, ne_eq,
        List.contains_iff_mem] at last
      obtain ⟨⟨⟨producer, named⟩, refers⟩, outcome⟩ := last
      exact ⟨before, e, [], shape, ⟨producer, named, refers⟩, outcome, by simp⟩

/-- The second sweep writes a placeholder over the confirmation and asks for it again. -/
theorem not_human_verdicts_kept :
    ¬ History.EveryStep (RunOp.act lengthHash) (KeepsAnswers lengthHash [manualProperty]) sweptAgain
        RunRecords.fresh := by
  rintro ⟨-, -, keeps, -⟩
  have answered : Answered manualProperty (.human (js "A-1") (js "look") none)
      (recordsAfter lengthHash (sweptAgain.take 2)) := by
    apply answered_of_getLast
    decide +kernel
  obtain ⟨undisplaced, -⟩ := keeps _ rfl manualProperty (by simp) _ (by simp [manualProperty]) rfl
    answered
  refine undisplaced plainEvaluation ⟨?_, ?_⟩
  · decide +kernel
  · decide +kernel

end SpecAsCode.Runtime
