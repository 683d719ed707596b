import SpecAsCode.Runtime.RunRecords
import SpecAsCode.Verifier.Verdicts

/-!
# The verification sweep

A sweep checks the acceptance criteria of properties one after another, records the
evidence, opens follow-ups and then derives the states of the properties.
-/

namespace SpecAsCode.Runtime

open SpecAsCode.Js
open SpecAsCode.Schema
open SpecAsCode.Verifier

/-- The times a step of a run reads and the observations its checks make, by the number of
records that are there when it does so. -/
structure Surroundings where
  evidenceTime : Nat → Stamp
  followupTime : Nat → JsString
  evaluationTime : Nat → JsString
  observe : Nat → Observation

/-- `VerifySweepInput`, with the parts of the configuration that a sweep reads. -/
structure SweepInput where
  properties : List DesiredProperty
  runId : JsString
  revision : JsString
  policy : JsString → CommandDecision
  provider : Option JsString
  taskId : Option JsString
  red : Bool
  enforceRedPhase : Bool
  environmentReady : Bool
  suites : Option SuiteRegistry
  inheritedFlips : JsString → Option JsString
  allowAgentOnlyMustRequirements : Bool
  requireRedPhase : Bool

/-- A criterion of type `suite`. -/
def isSuite (criterion : AcceptanceCriterion) : Bool :=
  criterion.type == .suite

/-- The properties in command form; without a registry a suite criterion stops the sweep. -/
def SweepInput.resolveSuites (input : SweepInput) :
    Except VerifyError (List DesiredProperty × OrderedMap JsString SuiteProvenance) :=
  match input.suites with
  | some suites => normalizeSuiteCriteria input.properties suites
  | none =>
      if input.properties.any fun property => property.acceptance.any isSuite then
        .error .suiteUnresolved
      else
        .ok (input.properties, OrderedMap.empty)

/-- The commands that resolved approval follow-ups allow. -/
def approvedCommands (followups : FollowupStore) : List JsString :=
  followups.filterMap fun followup =>
    if followup.status = .resolved ∧ followup.type = .approval ∧
        followup.resolution.bind (·.optionId) = some (js "approve") then
      followup.command.filter fun command => command != []
    else
      none

/-- What the checks of a sweep are given. -/
def SweepInput.context (input : SweepInput) (followups : FollowupStore)
    (suiteProvenance : OrderedMap JsString SuiteProvenance) : CriterionContext where
  runId := input.runId
  taskId := input.taskId
  repositoryRevision := input.revision
  policy := input.policy
  provider := input.provider
  approvedCommands := approvedCommands followups
  environmentReady := input.environmentReady
  red := input.red
  suiteProvenance := suiteProvenance

/-- The options of the evaluation at the end of a sweep. -/
def SweepInput.options (input : SweepInput) (now : JsString) : EvaluationOptions where
  allowAgentOnly := input.allowAgentOnlyMustRequirements
  inProgressPropertyIds := []
  now := now
  requireRedPhase := input.enforceRedPhase && input.requireRedPhase
  inheritedFlips := input.inheritedFlips

section Sweep

variable (sha256Hex : JsString → JsString) (surroundings : Surroundings) (input : SweepInput)

/-- The event on the execution of a command, if there was one. -/
def executionEvent (criterionId : JsString) (result : CriterionResult) : Option RunEvent :=
  match result.execution, result.commandRun with
  | some ⟨executionId, true, originRunId⟩, run =>
      some (.commandResultReused (run.elim [] (·.command)) executionId originRunId criterionId
        input.taskId input.red)
  | execution, some run =>
      if run.allowed then
        some (.commandExecuted run (execution.map (·.executionId)) input.taskId input.red)
      else
        none
  | _, none => none

/-- What a sweep has written and the follow-ups it has created. -/
structure SweepProgress where
  records : RunRecords
  created : List FollowUp

/-- A follow-up is opened unless one is open for its criterion. -/
def openFollowup (progress : SweepProgress) (draft : FollowUpDraft) : SweepProgress :=
  if (progress.records.followups.findOpenForCriterion (draft.criterionId.getD [])).isSome then
    progress
  else
    let now := surroundings.followupTime progress.records.followups.length
    let created := progress.records.followups.opening draft input.runId now
    { records := (progress.records.createFollowup draft input.runId now).emit
        (.followupCreated created.id created.blocking created.type created.propertyId)
      created := progress.created ++ [created] }

/-- The records and events that the result of one check leaves. -/
def recordResult (progress : SweepProgress) (criterionId : JsString) (result : CriterionResult) :
    SweepProgress :=
  let evidence := progress.records.evidence.nextRecord sha256Hex result.evidence
  let recorded := (progress.records.addEvidence sha256Hex result.evidence).emit
    (.evidenceRecorded evidence.id evidence.propertyRefs evidence.criterionId evidence.kind
      evidence.outcome input.taskId input.red)
  let executed := (executionEvent input criterionId result).elim recorded recorded.emit
  let next := { progress with records := executed }
  result.followUp.elim next (openFollowup surroundings input next)

/-- One criterion of a sweep.  A human criterion with an open follow-up is passed over. -/
def sweepCriterion (context : CriterionContext) (property : DesiredProperty)
    (criterion : AcceptanceCriterion) (progress : SweepProgress) :
    SweepProgress × Option VerifyError :=
  if criterion.type = .human ∧
      (progress.records.followups.findOpenForCriterion criterion.id).isSome then
    (progress, none)
  else
    match verifyCriterion context property
        (surroundings.evidenceTime progress.records.all.length)
        (surroundings.observe progress.records.all.length) criterion with
    | .error error => (progress, some error)
    | .ok result => (recordResult sha256Hex surroundings input progress criterion.id result, none)

/-- The criteria of some properties, in the order in which a sweep checks them. -/
def criteriaOf (properties : List DesiredProperty) : List (DesiredProperty × AcceptanceCriterion) :=
  properties.flatMap fun property => property.acceptance.map fun criterion => (property, criterion)

/-- The loop over the criteria; an error ends it and leaves what was written before. -/
def sweepCriteria (context : CriterionContext) :
    List (DesiredProperty × AcceptanceCriterion) → SweepProgress →
      SweepProgress × Option VerifyError
  | [], progress => (progress, none)
  | pair :: pairs, progress =>
      match sweepCriterion sha256Hex surroundings input context pair.1 pair.2 progress with
      | (next, some error) => (next, some error)
      | (next, none) => sweepCriteria context pairs next

/-- The states of the properties, each with its event. -/
def evaluateEach (records : RunRecords) : List DesiredProperty → RunRecords × List RequirementState
  | [] => (records, [])
  | property :: properties =>
      let state := evaluateProperty property records.all
        (input.options (surroundings.evaluationTime records.events.length))
      let rest := evaluateEach (records.emit (.propertyVerified property.id state.status
        state.evidenceIds state.reason state.weakEvidence state.redPhase input.red)) properties
      (rest.1, state :: rest.2)

/-- `VerifySweepResult`. -/
structure SweepResult where
  states : List RequirementState
  evidence : List Evidence
  followups : List FollowUp

/-- `verifyProperties`: the records after it, and the result or the error it ended with. -/
def verifyProperties (records : RunRecords) : RunRecords × Except VerifyError SweepResult :=
  match input.resolveSuites with
  | .error error => (records, .error error)
  | .ok (properties, provenance) =>
      match sweepCriteria sha256Hex surroundings input
          (input.context records.followups provenance) (criteriaOf properties) ⟨records, []⟩ with
      | (progress, some error) => (progress.records, .error error)
      | (progress, none) =>
          let evaluated := evaluateEach surroundings input progress.records properties
          (evaluated.1, .ok ⟨evaluated.2, progress.records.all, progress.created⟩)

end Sweep

/-! ## What one criterion leaves -/

/-- A record that a sweep made for a criterion of a property. -/
structure RecordedFor (input : SweepInput) (property : DesiredProperty)
    (criterion : AcceptanceCriterion) (e : Evidence) : Prop where
  criterionId : e.criterionId = some criterion.id
  propertyRefs : e.propertyRefs = [property.id]
  unattended : e.producer.type ≠ .human
  deterministic : isDeterministicCriterion criterion = true →
    isCheckKind e.kind = true ∧ e.producer.type = .runtime
  red : e.red = true → input.red = true
  notWaiver : isWaiver e = false
  placeholder : criterion.type = .human → e.outcome = .inconclusive ∧ e.red = false

/-- What one criterion of a sweep adds to the records. -/
inductive CriterionStep (input : SweepInput) (property : DesiredProperty)
    (criterion : AcceptanceCriterion) (before : RunRecords) :
    RunRecords → Option VerifyError → Prop where
  | passedOver (human : criterion.type = .human)
      (isOpen : (before.followups.findOpenForCriterion criterion.id).isSome = true) :
      CriterionStep input property criterion before before none
  | failed (error : VerifyError) (notHuman : criterion.type ≠ .human) :
      CriterionStep input property criterion before before (some error)
  /-- A record and no follow-up. -/
  | evidence {after : RunRecords} (e : Evidence) (made : RecordedFor input property criterion e)
      (notHuman : criterion.type ≠ .human) (records : after.all = before.all ++ [e])
      (followups : after.followups = before.followups) :
      CriterionStep input property criterion before after none
  /-- A record and a follow-up. -/
  | followup {after : RunRecords} (e : Evidence) (f : FollowUp)
      (made : RecordedFor input property criterion e) (records : after.all = before.all ++ [e])
      (followups : after.followups = before.followups ++ [f])
      (addressed : f.criterionId = some criterion.id ∧ f.propertyId = some property.id)
      (opened : f.status = .opened)
      (noneOpen : (before.followups.findOpenForCriterion criterion.id).isSome = false) :
      CriterionStep input property criterion before after none

/-- A failed check leaves nothing. -/
theorem CriterionStep.of_error {input : SweepInput} {property : DesiredProperty}
    {criterion : AcceptanceCriterion} {before after : RunRecords} {error : VerifyError}
    (step : CriterionStep input property criterion before after (some error)) :
    after = before := by
  cases step with
  | failed => rfl

section Steps

variable {sha256Hex : JsString → JsString} {surroundings : Surroundings} {input : SweepInput}

theorem recordedFor_nextRecord {context : CriterionContext} {property : DesiredProperty}
    {now : Stamp} {criterion : AcceptanceCriterion} {result : CriterionResult}
    (checked : Checked context property now criterion result) (same : context.red = input.red)
    (store : EvidenceStore) :
    RecordedFor input property criterion (store.nextRecord sha256Hex result.evidence) where
  criterionId := checked.criterionId
  propertyRefs := checked.propertyRefs
  unattended := checked.unattended
  deterministic := checked.deterministic
  red := fun red => same ▸ checked.red red
  notWaiver := by
    by_cases human : result.evidence.kind = .human
    · have unwaived := checked.notWaived human
      simp only [isWaiver, EvidenceStore.nextRecord, EvidenceStore.withChain, EvidenceStore.inputOf,
        unwaived, Bool.and_false]
    · simp only [isWaiver, EvidenceStore.nextRecord, EvidenceStore.withChain, EvidenceStore.inputOf]
      simp [human]
  placeholder := fun human => ⟨(checked.placeholder human).2.1, (checked.placeholder human).2.2.1⟩

theorem openFollowup_records (progress : SweepProgress) {draft : FollowUpDraft}
    {id propertyId : JsString}
    (addressed : draft.criterionId = some id ∧ draft.propertyId = some propertyId) :
    (openFollowup surroundings input progress draft).records.all = progress.records.all ∧
    (((progress.records.followups.findOpenForCriterion id).isSome = true ∧
        (openFollowup surroundings input progress draft).records.followups =
          progress.records.followups) ∨
      ((progress.records.followups.findOpenForCriterion id).isSome = false ∧
        ∃ f, (openFollowup surroundings input progress draft).records.followups =
            progress.records.followups ++ [f] ∧
          (f.criterionId = some id ∧ f.propertyId = some propertyId) ∧ f.status = .opened)) := by
  rw [openFollowup, addressed.1, Option.getD_some]
  by_cases found : (progress.records.followups.findOpenForCriterion id).isSome = true
  · rw [if_pos found]
    exact ⟨rfl, Or.inl ⟨found, rfl⟩⟩
  · rw [if_neg found]
    refine ⟨rfl, Or.inr ⟨by simpa using found, _, rfl, ?_, rfl⟩⟩
    exact addressed

/-- What one criterion of a sweep does. -/
theorem sweepCriterion_step {context : CriterionContext} {property : DesiredProperty}
    {criterion : AcceptanceCriterion} {progress next : SweepProgress}
    {outcome : Option VerifyError} (same : context.red = input.red)
    (swept : sweepCriterion sha256Hex surroundings input context property criterion progress =
      (next, outcome)) :
    CriterionStep input property criterion progress.records next.records outcome := by
  rw [sweepCriterion] at swept
  split at swept
  · next passed =>
      cases swept
      exact .passedOver passed.1 passed.2
  · next reached =>
      cases verified : verifyCriterion context property
          (surroundings.evidenceTime progress.records.all.length)
          (surroundings.observe progress.records.all.length) criterion with
      | error error =>
          rw [verified] at swept
          cases swept
          refine .failed error fun human => ?_
          cases criterion with
          | human => cases verified
          | command => cases human
          | file => cases human
          | suite => cases human
          | agent => cases human
      | ok result =>
          rw [verified] at swept
          cases swept
          have checked := verifyCriterion_checked verified
          have made := @recordedFor_nextRecord sha256Hex input _ _ _ _ _ checked same
            progress.records.evidence
          rw [recordResult]
          generalize records : ((executionEvent input criterion.id result).elim _ _ : RunRecords) =
            recorded
          have all : recorded.all = progress.records.all ++
              [progress.records.evidence.nextRecord sha256Hex result.evidence] := by
            rw [← records]
            cases executionEvent input criterion.id result <;> rfl
          have followups : recorded.followups = progress.records.followups := by
            rw [← records]
            cases executionEvent input criterion.id result <;> rfl
          cases drafted : result.followUp with
          | none =>
              refine .evidence _ made (fun human => ?_) all followups
              have opened := (checked.placeholder human).2.2.2
              rw [drafted] at opened
              cases opened
          | some draft =>
              have addressed := checked.addressed draft drafted
              obtain ⟨kept, found | ⟨absent, f, added, names, opened⟩⟩ :=
                @openFollowup_records surroundings input ⟨recorded, progress.created⟩ draft _ _
                  addressed
              · simp only [followups] at found
                exact .evidence _ made (fun human => reached ⟨human, found.1⟩) (kept.trans all)
                  found.2
              · simp only [followups] at absent added
                exact .followup _ f made (kept.trans all) added names opened absent

/-! ## What a sweep leaves -/

/-- What the loop over some criteria adds to the records. -/
structure LoopAdds (input : SweepInput) (pairs : List (DesiredProperty × AcceptanceCriterion))
    (before after : RunRecords) (added : List Evidence) (created : List FollowUp) : Prop where
  all : after.all = before.all ++ added
  followups : after.followups = before.followups ++ created
  recorded : ∀ e ∈ added, ∃ pair ∈ pairs, RecordedFor input pair.1 pair.2 e ∧
    (pair.2.type = .human → (before.followups.findOpenForCriterion pair.2.id).isSome = false)
  opened : ∀ f ∈ created, f.status = .opened ∧ ∃ pair ∈ pairs,
    (f.criterionId = some pair.2.id ∧ f.propertyId = some pair.1.id) ∧
    (before.followups.findOpenForCriterion pair.2.id).isSome = false

theorem LoopAdds.refl (pairs : List (DesiredProperty × AcceptanceCriterion))
    (records : RunRecords) : LoopAdds input pairs records records [] [] :=
  ⟨by simp, by simp, by simp, by simp⟩

/-- A criterion without an open follow-up had none before either. -/
theorem noneOpen_of_append {store : FollowupStore} {more : List FollowUp} {criterionId : JsString}
    (noneOpen : (FollowupStore.findOpenForCriterion (store ++ more) criterionId).isSome = false) :
    (store.findOpenForCriterion criterionId).isSome = false := by
  rw [← Bool.not_eq_true] at noneOpen ⊢
  exact fun isOpen => noneOpen (FollowupStore.findOpenForCriterion_append isOpen more)

/-- One more criterion at the front of the loop. -/
theorem LoopAdds.cons {pair : DesiredProperty × AcceptanceCriterion}
    {pairs : List (DesiredProperty × AcceptanceCriterion)} {before middle after : RunRecords}
    {evidence : List Evidence} {followups : List FollowUp}
    (first : CriterionStep input pair.1 pair.2 before middle none)
    (rest : LoopAdds input pairs middle after evidence followups) :
    ∃ newEvidence newFollowups,
      LoopAdds input (pair :: pairs) before after newEvidence newFollowups ∧
        followups <:+ newFollowups ∧
        (pair.2.type = .human →
          (before.followups.findOpenForCriterion pair.2.id).isSome = false →
          ∃ f ∈ newFollowups, f.criterionId = some pair.2.id ∧
            f.propertyId = some pair.1.id) := by
  have recorded : ∀ more, middle.followups = before.followups ++ more → ∀ e ∈ evidence,
      ∃ other ∈ pair :: pairs, RecordedFor input other.1 other.2 e ∧ (other.2.type = .human →
        (before.followups.findOpenForCriterion other.2.id).isSome = false) := by
    intro more grown e member
    obtain ⟨other, found, made, reached⟩ := rest.recorded e member
    refine ⟨other, List.mem_cons_of_mem _ found, made, fun human => ?_⟩
    have noneOpen := reached human
    rw [grown] at noneOpen
    exact noneOpen_of_append noneOpen
  have opened : ∀ more, middle.followups = before.followups ++ more → ∀ f ∈ followups,
      f.status = .opened ∧ ∃ other ∈ pair :: pairs,
        (f.criterionId = some other.2.id ∧ f.propertyId = some other.1.id) ∧
        (before.followups.findOpenForCriterion other.2.id).isSome = false := by
    intro more grown f member
    obtain ⟨isOpen, other, found, addressed, noneOpen⟩ := rest.opened f member
    rw [grown] at noneOpen
    exact ⟨isOpen, other, List.mem_cons_of_mem _ found, addressed, noneOpen_of_append noneOpen⟩
  cases first with
  | passedOver human isOpen =>
      refine ⟨evidence, followups, ⟨rest.all, rest.followups, recorded [] (by simp),
        opened [] (by simp)⟩, List.suffix_refl _, fun _ noneOpen => ?_⟩
      rw [isOpen] at noneOpen
      cases noneOpen
  | evidence e made notHuman records same =>
      refine ⟨e :: evidence, followups, ⟨?_, by rw [rest.followups, same], ?_,
        opened [] (by simpa using same)⟩, List.suffix_refl _, fun human => absurd human notHuman⟩
      · rw [rest.all, records, List.append_assoc, List.singleton_append]
      · intro other member
        rcases List.mem_cons.mp member with rfl | later
        · exact ⟨pair, List.mem_cons_self, made, fun human => absurd human notHuman⟩
        · exact recorded [] (by simpa using same) other later
  | followup e f made records grown addressed isOpen noneOpen =>
      refine ⟨e :: evidence, f :: followups, ⟨?_, ?_, ?_, ?_⟩, List.suffix_cons _ _,
        fun _ _ => ⟨f, List.mem_cons_self, addressed⟩⟩
      · rw [rest.all, records, List.append_assoc, List.singleton_append]
      · rw [rest.followups, grown, List.append_assoc, List.singleton_append]
      · intro other member
        rcases List.mem_cons.mp member with rfl | later
        · exact ⟨pair, List.mem_cons_self, made, fun _ => noneOpen⟩
        · exact recorded [f] grown other later
      · intro other member
        rcases List.mem_cons.mp member with rfl | later
        · exact ⟨isOpen, pair, List.mem_cons_self, addressed, noneOpen⟩
        · exact opened [f] grown other later

/-- What the loop over the criteria does; when it ends without an error it has opened a
follow-up for every human criterion that had none. -/
theorem sweepCriteria_adds {context : CriterionContext} (same : context.red = input.red)
    (pairs : List (DesiredProperty × AcceptanceCriterion)) {progress next : SweepProgress}
    {outcome : Option VerifyError}
    (swept : sweepCriteria sha256Hex surroundings input context pairs progress = (next, outcome)) :
    ∃ evidence followups, LoopAdds input pairs progress.records next.records evidence followups ∧
      (outcome = none → ∀ pair ∈ pairs, pair.2.type = .human →
        (progress.records.followups.findOpenForCriterion pair.2.id).isSome = false →
        ∃ f ∈ followups, f.criterionId = some pair.2.id) := by
  induction pairs generalizing progress with
  | nil =>
      cases swept
      exact ⟨[], [], LoopAdds.refl [] _, by simp⟩
  | cons pair pairs inductionHypothesis =>
      rw [sweepCriteria] at swept
      cases first : sweepCriterion sha256Hex surroundings input context pair.1 pair.2 progress with
      | mk middle failure =>
          have step := sweepCriterion_step same first
          rw [first] at swept
          cases failure with
          | some error =>
              have unchanged := step.of_error
              cases swept
              rw [unchanged]
              exact ⟨[], [], LoopAdds.refl _ _, by simp⟩
          | none =>
              obtain ⟨evidence, followups, rest, complete⟩ := inductionHypothesis swept
              obtain ⟨newEvidence, newFollowups, adds, kept, created⟩ := rest.cons step
              refine ⟨newEvidence, newFollowups, adds, fun ended other member human noneOpen => ?_⟩
              rcases List.mem_cons.mp member with rfl | later
              · obtain ⟨f, found, addressed, -⟩ := created human noneOpen
                exact ⟨f, found, addressed⟩
              · -- The criterion still has no open follow-up, or the first one opened it.
                by_cases still : (middle.records.followups.findOpenForCriterion other.2.id).isSome =
                    false
                · obtain ⟨f, found, addressed⟩ := complete ended other later human still
                  exact ⟨f, kept.subset found, addressed⟩
                · have grown := adds.followups
                  rw [rest.followups] at grown
                  have isOpen : (middle.records.followups.findOpenForCriterion other.2.id).isSome =
                      true := Bool.not_eq_false _ ▸ still
                  have later := FollowupStore.findOpenForCriterion_append isOpen followups
                  rw [grown, FollowupStore.findOpenForCriterion_isSome] at later
                  obtain ⟨f, found, holds⟩ := later
                  rcases List.mem_append.mp found with old | new
                  · have before := FollowupStore.findOpenForCriterion_isSome.mpr ⟨f, old, holds⟩
                    rw [noneOpen] at before
                    cases before
                  · refine ⟨f, new, ?_⟩
                    simp only [FollowupStore.isOpenFor, Bool.and_eq_true, decide_eq_true_eq] at holds
                    exact holds.2

theorem evaluateEach_records (records : RunRecords) (properties : List DesiredProperty) :
    (evaluateEach surroundings input records properties).1.all = records.all ∧
      (evaluateEach surroundings input records properties).1.followups = records.followups := by
  induction properties generalizing records with
  | nil => exact ⟨rfl, rfl⟩
  | cons property properties inductionHypothesis => exact inductionHypothesis _

/-- The states are those of the evaluator on the evidence that is there after the checks. -/
theorem evaluateEach_states (records : RunRecords) (properties : List DesiredProperty) :
    List.Forall₂
      (fun property state => ∃ now, state = evaluateProperty property records.all (input.options now))
      properties (evaluateEach surroundings input records properties).2 := by
  induction properties generalizing records with
  | nil => exact .nil
  | cons property properties inductionHypothesis =>
      exact .cons ⟨_, rfl⟩ (inductionHypothesis (records.emit _))

theorem resolveSuites_ok {properties : List DesiredProperty}
    {provenance : OrderedMap JsString SuiteProvenance}
    (resolved : input.resolveSuites = .ok (properties, provenance)) :
    List.Forall₂ NormalizedProperty input.properties properties := by
  rw [SweepInput.resolveSuites] at resolved
  split at resolved
  · exact normalizeSuiteCriteria_ok resolved
  · split at resolved
    · cases resolved
    · next plain =>
        cases resolved
        refine List.forall₂_same.mpr fun property member => ⟨rfl, List.forall₂_same.mpr ?_⟩
        intro criterion found
        refine .kept fun suite => plain ?_
        exact List.any_eq_true.mpr ⟨property, member, List.any_eq_true.mpr
          ⟨criterion, found, by simp [isSuite, suite]⟩⟩

theorem mem_criteriaOf {properties : List DesiredProperty}
    {pair : DesiredProperty × AcceptanceCriterion} :
    pair ∈ criteriaOf properties ↔ pair.1 ∈ properties ∧ pair.2 ∈ pair.1.acceptance := by
  obtain ⟨property, criterion⟩ := pair
  rw [criteriaOf, List.mem_flatMap]
  constructor
  · rintro ⟨source, member, found⟩
    obtain ⟨other, listed, same⟩ := List.mem_map.mp found
    cases same
    exact ⟨member, listed⟩
  · rintro ⟨member, listed⟩
    exact ⟨property, member, List.mem_map.mpr ⟨criterion, listed, rfl⟩⟩

/-- A member of the first list has a partner in the second. -/
theorem exists_partner {α β : Type} {R : α → β → Prop} {first : List α} {second : List β}
    (related : List.Forall₂ R first second) {item : α} (member : item ∈ first) :
    ∃ other ∈ second, R item other := by
  induction related with
  | nil => cases member
  | @cons head other first second headRelated _ inductionHypothesis =>
      rcases List.mem_cons.mp member with rfl | later
      · exact ⟨other, List.mem_cons_self, headRelated⟩
      · obtain ⟨found, listed, holds⟩ := inductionHypothesis later
        exact ⟨found, List.mem_cons_of_mem _ listed, holds⟩

/-- A member of the second list has a partner in the first. -/
theorem exists_source {α β : Type} {R : α → β → Prop} {first : List α} {second : List β}
    (related : List.Forall₂ R first second) {item : β} (member : item ∈ second) :
    ∃ other ∈ first, R other item :=
  exists_partner related.flip member

/-- What a sweep adds to the records of its run, whether or not it ends with a result. -/
theorem verifyProperties_adds (records : RunRecords) :
    ∃ properties added created,
      LoopAdds input (criteriaOf properties) records
        (verifyProperties sha256Hex surroundings input records).1 added created ∧
      (∀ normal ∈ properties, ∃ property ∈ input.properties, NormalizedProperty property normal) ∧
      (∀ result, (verifyProperties sha256Hex surroundings input records).2 = .ok result →
        List.Forall₂ NormalizedProperty input.properties properties ∧
        List.Forall₂ (fun property state => ∃ now, state = evaluateProperty property
            (verifyProperties sha256Hex surroundings input records).1.all (input.options now))
          properties result.states ∧
        ∀ pair ∈ criteriaOf properties, pair.2.type = .human →
          (records.followups.findOpenForCriterion pair.2.id).isSome = false →
          ∃ f ∈ created, f.criterionId = some pair.2.id) := by
  rw [verifyProperties]
  cases resolved : input.resolveSuites with
  | error error => exact ⟨[], [], [], LoopAdds.refl _ records, by simp, by simp⟩
  | ok found =>
      obtain ⟨properties, provenance⟩ := found
      have normalized := resolveSuites_ok resolved
      cases swept : sweepCriteria sha256Hex surroundings input
          (input.context records.followups provenance) (criteriaOf properties) ⟨records, []⟩ with
      | mk progress outcome =>
          obtain ⟨added, created, adds, complete⟩ := sweepCriteria_adds rfl _ swept
          refine ⟨properties, added, created, ?_⟩
          have sources : ∀ normal ∈ properties, ∃ property ∈ input.properties,
              NormalizedProperty property normal := fun normal member =>
            exists_source normalized member
          cases outcome with
          | some error =>
              simp only [swept]
              exact ⟨adds, sources, by simp⟩
          | none =>
              simp only [swept]
              have kept := @evaluateEach_records surroundings input progress.records properties
              refine ⟨⟨kept.1.trans adds.all, kept.2.trans adds.followups, adds.recorded,
                adds.opened⟩, sources, fun result ended => ?_⟩
              cases ended
              refine ⟨normalized, ?_, complete rfl⟩
              rw [kept.1]
              exact evaluateEach_states progress.records properties

end Steps

end SpecAsCode.Runtime
