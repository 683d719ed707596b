import SpecAsCode.Js.Path
import SpecAsCode.Runtime.ChainedStates
import SpecAsCode.Runtime.ExemptedPaths
import SpecAsCode.Runtime.FirmSatisfaction
import SpecAsCode.Verifier.EvaluateSound

/-!
# The contamination guard

The final sweep of a run in place is made with the exempted dirty files still there.  Afterwards
the properties whose commands mention such a file are swept again, in a worktree at the result
of the run.
-/

namespace SpecAsCode.Runtime

open SpecAsCode.Js
open SpecAsCode.Repo
open SpecAsCode.Schema
open SpecAsCode.Verifier
open SpecAsCode.Runtime.Committing (Exempt newFiles noRenames)

/-! ## The end of a run -/

/-- What the end of a run is given. -/
structure FinishingRun where
  sha256Hex : JsString → JsString
  sweep : SweepInput
  records : RunRecords
  sweepSurroundings : Surroundings
  guardSurroundings : Surroundings
  renames : RenameDetection
  /-- The worktree after the sweep. -/
  worktree : Worktree
  allowDirtyPaths : List JsString
  runs : RunsDir
  runMeta : RunMeta

/-- `(ev.payload as { command?: string }).command ?? ""`. -/
def evidenceCommand (e : Evidence) : JsString :=
  (e.payload.property (js "command")).asString.getD []

/-- The record is of a command whose text has one of the names in it. -/
def mentions (names : List JsString) (e : Evidence) : Bool :=
  names.any fun name => includes (evidenceCommand e) name

/-- The test of `contaminated`. -/
def isContaminated (names : List JsString) (evidence : List Evidence) (state : RequirementState) :
    Bool :=
  state.status == .satisfied && state.evidenceIds.any fun id =>
    (evidence.find? fun e => e.id = id).any (mentions names)

/-- The last state of a property: `new Map(states.map((g) => [g.propertyId, g])).get(id)`. -/
def lastState (states : List RequirementState) (propertyId : JsString) : Option RequirementState :=
  states.reverse.find? fun state => state.propertyId = propertyId

def contaminationReason (guarded : RequirementState) : JsString :=
  js "verification contamination: the criterion passed only with excluded dirt present (" ++
    js "strengthened allowDirtyPaths contract); re-verified against the committed result: " ++
    guarded.reason.getD guarded.status.text

/-- A satisfied state gives way to the state of the guard. -/
def downgrade (guarded : List RequirementState) (state : RequirementState) : RequirementState :=
  if state.status ≠ .satisfied then
    state
  else
    match lastState guarded state.propertyId with
    | none => state
    | some found =>
        if found.status ≠ .satisfied ∧ found.status ≠ .waived then
          { found with reason := some (contaminationReason found) }
        else
          state

namespace FinishingRun

variable (run : FinishingRun)

/-- The final sweep. -/
def swept : RunRecords × Except VerifyError SweepResult :=
  verifyProperties run.sha256Hex run.sweepSurroundings run.sweep run.records

/-- `dirtyExcluded`. -/
def dirtyExcluded : List JsString :=
  ((run.worktree.statusPorcelain run.renames).entries.map Prod.fst).filter fun name =>
    run.allowDirtyPaths.contains name

/-- The states that `contaminated` keeps. -/
def contaminated (states : List RequirementState) : List RequirementState :=
  states.filter (isContaminated run.dirtyExcluded run.swept.1.all)

/-- What the guard gives `verifyProperties`. -/
def guardInput (states : List RequirementState) : SweepInput :=
  { run.sweep with
    properties := run.sweep.properties.filter fun property =>
      (run.contaminated states).any fun state => state.propertyId = property.id
    taskId := none
    red := false
    enforceRedPhase := false
    environmentReady := true
    inheritedFlips := fun _ => none }

/-- `runContaminationGuard`, in a worktree that could be prepared. -/
def guarded (states : List RequirementState) : RunRecords × Except VerifyError SweepResult :=
  verifyProperties run.sha256Hex run.guardSurroundings (run.guardInput states) run.swept.1

/-- The states after the guard. -/
def guardedStates : Except VerifyError (List RequirementState) :=
  run.swept.2.bind fun result =>
    if run.contaminated result.states = [] then
      .ok result.states
    else
      (run.guarded result.states).2.map fun guard => result.states.map (downgrade guard.states)

/-- The states that the run records. -/
def finalStates : Except VerifyError (List RequirementState) :=
  run.guardedStates.map (chainedStates run.runs run.runMeta)

end FinishingRun

/-! ## What is claimed -/

/-- A command or file criterion names a path. -/
def NamesPath (path : JsString) : AcceptanceCriterion → Prop
  | .command _ command _ _ _ => includes command path = true
  | .file _ asserted _ _ => Path.normalize asserted = path
  | _ => False

namespace FinishingRun

variable (run : FinishingRun) (committed : JsString → JsString → Prop)

/-- A criterion of the property names an exempted dirty path, and does not hold on the committed
result. -/
def Spoiled (property : DesiredProperty) : Prop :=
  ∃ criterion ∈ property.acceptance, ∃ path,
    Exempt run.renames run.worktree run.allowDirtyPaths path ∧ NamesPath path criterion ∧
      ¬ committed property.id criterion.id

/-- No property is recorded as satisfied that is spoiled. -/
def Sound : Prop :=
  ∀ states, run.finalStates = .ok states → ∀ property ∈ run.sweep.properties,
    ∀ state ∈ states, state.propertyId = property.id → state.status = .satisfied →
      ¬ run.Spoiled committed property

/-- The checks of the guard are made on the committed result. -/
def GuardReads : Prop :=
  ∀ result, run.swept.2 = .ok result →
    ∀ e ∈ (run.guarded result.states).1.all.drop run.swept.1.all.length,
      ∀ property ∈ run.sweep.properties, ∀ criterion ∈ property.acceptance,
        e.criterionId = some criterion.id → property.id ∈ e.propertyRefs →
          e.outcome = .supports → committed property.id criterion.id

/-- No record of the guard has an earlier time than a record that was there before. -/
def ClockForward : Prop :=
  ∀ result, run.swept.2 = .ok result → ∀ old ∈ run.swept.1.all,
    ∀ e ∈ (run.guarded result.states).1.all.drop run.swept.1.all.length,
      old.timestamp ≤ e.timestamp

/-- The chain of runs makes the state satisfied. -/
def Inherits (state : RequirementState) : Prop :=
  state.status = .indeterminate ∧
    (chainState (priorSatisfied run.runs run.runMeta) state).status = .satisfied

/-- A spoiled property that the sweep satisfies has a command that mentions an excluded name, and
none is inherited. -/
def SpoiledAreCaught : Prop :=
  ∀ states, run.finalStates = .ok states → ∀ result, run.swept.2 = .ok result →
    ∀ property ∈ run.sweep.properties, run.Spoiled committed property →
      ∀ state ∈ result.states, state.propertyId = property.id →
        (state.status = .satisfied →
          isContaminated run.dirtyExcluded run.swept.1.all state = true) ∧
        ¬ run.Inherits state

end FinishingRun

/-! ## What a sweep records -/

section Sweeps

variable {sha256Hex : JsString → JsString} {surroundings : Surroundings} {input : SweepInput}

/-- A criterion that is not human leaves a record. -/
theorem CriterionStep.covers {property : DesiredProperty} {criterion : AcceptanceCriterion}
    {before after : RunRecords} (step : CriterionStep input property criterion before after none) :
    ∃ added, after.all = before.all ++ added ∧
      (criterion.type ≠ .human → ∃ e ∈ added, RecordedFor input property criterion e) := by
  cases step with
  | passedOver human isOpen =>
      exact ⟨[], (List.append_nil _).symm, fun notHuman => absurd human notHuman⟩
  | evidence e made notHuman records followups =>
      exact ⟨[e], records, fun _ => ⟨e, List.mem_cons_self, made⟩⟩
  | followup e f made records followups addressed opened noneOpen =>
      exact ⟨[e], records, fun _ => ⟨e, List.mem_cons_self, made⟩⟩

/-- A loop that ends without an error leaves a record for every criterion that is not human. -/
theorem sweepCriteria_covers {context : CriterionContext} (same : context.red = input.red)
    (pairs : List (DesiredProperty × AcceptanceCriterion)) {progress next : SweepProgress}
    (swept : sweepCriteria sha256Hex surroundings input context pairs progress = (next, none)) :
    ∃ added, next.records.all = progress.records.all ++ added ∧
      ∀ pair ∈ pairs, pair.2.type ≠ .human → ∃ e ∈ added, RecordedFor input pair.1 pair.2 e := by
  induction pairs generalizing progress with
  | nil =>
      cases swept
      exact ⟨[], (List.append_nil _).symm, by simp⟩
  | cons pair pairs inductionHypothesis =>
      rw [sweepCriteria] at swept
      cases first : sweepCriterion sha256Hex surroundings input context pair.1 pair.2 progress with
      | mk middle failure =>
          have step := sweepCriterion_step same first
          rw [first] at swept
          cases failure with
          | some error => cases swept
          | none =>
              obtain ⟨new, grown, recorded⟩ := step.covers
              obtain ⟨added, records, covers⟩ := inductionHypothesis swept
              refine ⟨new ++ added, ?_, fun other member notHuman => ?_⟩
              · rw [records, grown, List.append_assoc]
              · rcases List.mem_cons.mp member with rfl | later
                · obtain ⟨e, inside, made⟩ := recorded notHuman
                  exact ⟨e, List.mem_append_left _ inside, made⟩
                · obtain ⟨e, inside, made⟩ := covers other later notHuman
                  exact ⟨e, List.mem_append_right _ inside, made⟩

/-- What a sweep that ends with a result has recorded, and the states it derives. -/
theorem verifyProperties_covers (records : RunRecords) {result : SweepResult}
    (ended : (verifyProperties sha256Hex surroundings input records).2 = .ok result) :
    ∃ properties added, List.Forall₂ NormalizedProperty input.properties properties ∧
      (verifyProperties sha256Hex surroundings input records).1.all = records.all ++ added ∧
      (∀ normal ∈ properties, ∀ criterion ∈ normal.acceptance, criterion.type ≠ .human →
        ∃ e ∈ added, RecordedFor input normal criterion e) ∧
      List.Forall₂ (fun normal state => ∃ now, state = evaluateProperty normal
          (verifyProperties sha256Hex surroundings input records).1.all (input.options now))
        properties result.states := by
  rw [verifyProperties] at ended ⊢
  cases resolved : input.resolveSuites with
  | error error =>
      rw [resolved] at ended
      cases ended
  | ok found =>
      obtain ⟨properties, provenance⟩ := found
      rw [resolved] at ended
      simp only at ended ⊢
      cases swept : sweepCriteria sha256Hex surroundings input
          (input.context records.followups provenance) (criteriaOf properties) ⟨records, []⟩ with
      | mk progress outcome =>
          rw [swept] at ended
          cases outcome with
          | some error => cases ended
          | none =>
              cases ended
              obtain ⟨added, grown, covers⟩ := sweepCriteria_covers rfl _ swept
              have kept := @evaluateEach_records surroundings input progress.records properties
              refine ⟨properties, added, resolveSuites_ok resolved, kept.1.trans grown,
                fun normal member criterion listed => ?_, ?_⟩
              · exact covers (normal, criterion) (mem_criteriaOf.mpr ⟨member, listed⟩)
              · rw [kept.1]
                exact evaluateEach_states progress.records properties

/-- No record of a sweep is a waiver, and they are about the base revision in a red sweep only. -/
theorem verifyProperties_plain (records : RunRecords) {added : List Evidence}
    (grown : (verifyProperties sha256Hex surroundings input records).1.all =
      records.all ++ added) :
    ∀ e ∈ added, isWaiver e = false ∧ (e.red = true → input.red = true) := by
  obtain ⟨properties, other, created, adds, -⟩ := @verifyProperties_adds sha256Hex surroundings
    input records
  have same : other = added := List.append_cancel_left (adds.all.symm.trans grown)
  intro e member
  obtain ⟨pair, -, made, -⟩ := adds.recorded e (same ▸ member)
  exact ⟨made.notWaiver, made.red⟩

end Sweeps

/-- When later records are not older, the newest record of a criterion is a later one, if there
is any. -/
theorem latestByCriterion_mem_later {before later : List Evidence} {criterion : JsString}
    {e : Evidence} (newest : latestByCriterion (before ++ later) criterion = some e)
    (some_ : ∃ record ∈ later, record.criterionId = some criterion)
    (inOrder : ∀ old ∈ before, ∀ record ∈ later, old.timestamp ≤ record.timestamp) :
    e ∈ later := by
  induction later using List.reverseRecOn generalizing e with
  | nil =>
      obtain ⟨record, member, -⟩ := some_
      cases member
  | append_singleton later last inductionHypothesis =>
      rw [← List.append_assoc, latestByCriterion_append, recordLatest_apply] at newest
      split_ifs at newest with displaced
      · cases newest
        simp
      · have earlier : ∀ old ∈ before, ∀ record ∈ later, old.timestamp ≤ record.timestamp :=
          fun old member record inside =>
            inOrder old member record (List.mem_append_left _ inside)
        by_cases found : ∃ record ∈ later, record.criterionId = some criterion
        · exact List.mem_append_left _ (inductionHypothesis newest found earlier)
        · -- The last record is of the criterion, and not older than any record before it.
          obtain ⟨record, member, named⟩ := some_
          rcases List.mem_append.mp member with inside | isLast
          · exact absurd ⟨record, inside, named⟩ found
          · rw [List.mem_singleton] at isLast
            subst isLast
            have entry := newest_of_latestByCriterion newest
            rcases List.mem_append.mp entry.mem with old | inside
            · refine absurd ⟨named, ?_⟩ displaced
              rw [newest, displaces, decide_eq_true_eq]
              exact inOrder e old record (by simp)
            · exact absurd ⟨e, inside, entry.named⟩ found

/-! ## The marker in the reason of the guard -/

/-- What no end of a text begins, and what does not begin inside it, is found behind it only. -/
theorem includes_append_of_apart {text part : JsString}
    (apart : (text.tails.all fun tail =>
      tail.isEmpty || (!part.isPrefixOf tail && !tail.isPrefixOf part)) = true)
    (more : JsString) : includes (text ++ more) part = includes more part := by
  induction text with
  | nil => rfl
  | cons code text inductionHypothesis =>
      rw [List.tails_cons, List.all_cons, Bool.and_eq_true] at apart
      obtain ⟨here, later⟩ := apart
      have none : part.isPrefixOf (code :: (text ++ more)) = false := by
        by_contra found
        rw [Bool.not_eq_false, List.isPrefixOf_iff_prefix, ← List.cons_append] at found
        simp only [List.isEmpty_cons, Bool.false_or, Bool.and_eq_true, Bool.not_eq_true',
          ← Bool.not_eq_true, List.isPrefixOf_iff_prefix] at here
        rcases List.prefix_or_prefix_of_prefix found (List.prefix_append _ more) with inside | beyond
        · exact here.1 inside
        · exact here.2 beyond
      rw [← inductionHypothesis later, includes, List.cons_append, List.tails_cons, List.any_cons,
        none, Bool.false_or]
      rfl

/-- Without the red phase no reason has the marker. -/
theorem not_marked_of_no_redPhase {property : DesiredProperty} {evidence : List Evidence}
    {options : EvaluationOptions} (named : WellNamed property)
    (plain : options.requireRedPhase = false) :
    ¬ Marked (evaluateProperty property evidence options) := by
  intro marked
  by_cases waived : ∃ e ∈ relevantEvidence property evidence, isWaiver e = true
  · have status := evaluateProperty_of_waiver options waived
    rw [marked.1] at status
    cases status
  · rw [evaluateProperty_of_no_waiver options waived] at marked
    obtain ⟨-, -, -, -, -, ⟨required, -⟩, -⟩ := (concludeProperty_marked named _).mp marked
    rw [plain] at required
    cases required

theorem includes_contaminationReason (state : RequirementState) :
    includes (contaminationReason state) baseMarker =
      includes (state.reason.getD state.status.text) baseMarker := by
  rw [contaminationReason, includes_append_of_apart (by decide +kernel)]

/-- A state that the guard puts in place is not inherited. -/
theorem not_satisfied_of_downgraded {prior : OrderedMap JsString JsString}
    {state : RequirementState} (unmarked : ¬ Marked state) (unsatisfied : state.status ≠ .satisfied) :
    (chainState prior { state with reason := some (contaminationReason state) }).status ≠
      .satisfied := by
  rw [chainState_status]
  split_ifs with inherited
  · obtain ⟨-, undecided, marker⟩ := inherited
    rw [Option.getD_some, includes_contaminationReason] at marker
    refine absurd ⟨undecided, ?_⟩ unmarked
    cases reason : state.reason with
    | none =>
        rw [reason, Option.getD_none, undecided] at marker
        revert marker
        decide
    | some text =>
        rw [reason, Option.getD_some] at marker
        exact marker
  · exact unsatisfied

/-! ## The states at the end -/

theorem downgrade_of_not_satisfied {guarded : List RequirementState} {state : RequirementState}
    (other : state.status ≠ .satisfied) : downgrade guarded state = state :=
  if_pos other

/-- The property of a state has one state. -/
theorem lastState_eq {states : List RequirementState} {propertyId : JsString}
    {found : RequirementState} (last : lastState states propertyId = some found) :
    found ∈ states ∧ found.propertyId = propertyId := by
  rw [lastState] at last
  have holds := List.find?_some last
  rw [decide_eq_true_eq] at holds
  exact ⟨List.mem_reverse.mp (List.mem_of_find?_eq_some last), holds⟩

theorem exists_lastState {states : List RequirementState} {state : RequirementState}
    (member : state ∈ states) : ∃ found, lastState states state.propertyId = some found := by
  rw [← Option.isSome_iff_exists, lastState, List.find?_isSome]
  exact ⟨state, List.mem_reverse.mpr member, decide_eq_true rfl⟩

/-- The states of a sweep are those of its properties. -/
theorem exists_property_of_state {properties normals : List DesiredProperty}
    {states : List RequirementState} {evidence : List Evidence} {options : JsString → EvaluationOptions}
    (normalized : List.Forall₂ NormalizedProperty properties normals)
    (evaluated : List.Forall₂ (fun normal state => ∃ now,
      state = evaluateProperty normal evidence (options now)) normals states)
    {state : RequirementState} (member : state ∈ states) :
    ∃ property ∈ properties, ∃ normal ∈ normals, NormalizedProperty property normal ∧
      state.propertyId = property.id ∧ ∃ now, state = evaluateProperty normal evidence (options now) := by
  obtain ⟨normal, listed, now, same⟩ := exists_source evaluated member
  obtain ⟨property, inside, normal_of⟩ := exists_source normalized listed
  refine ⟨property, inside, normal, listed, normal_of, ?_, now, same⟩
  rw [same, evaluateProperty_propertyId, normal_of.id]

theorem propertyIds_eq {properties normals : List DesiredProperty}
    {states : List RequirementState} {evidence : List Evidence} {options : JsString → EvaluationOptions}
    (normalized : List.Forall₂ NormalizedProperty properties normals)
    (evaluated : List.Forall₂ (fun normal state => ∃ now,
      state = evaluateProperty normal evidence (options now)) normals states) :
    states.map RequirementState.propertyId = properties.map DesiredProperty.id := by
  induction normalized generalizing states with
  | nil =>
      cases evaluated
      rfl
  | cons normal _ inductionHypothesis =>
      cases evaluated with
      | cons here later =>
          obtain ⟨now, rfl⟩ := here
          rw [List.map_cons, List.map_cons, inductionHypothesis later, evaluateProperty_propertyId,
            normal.id]

section Ends

variable {run : FinishingRun} {committed : JsString → JsString → Prop}

/-- The states of the guard, none when there was nothing to look at. -/
def FinishingRun.GuardStates (run : FinishingRun) (states guarded : List RequirementState) : Prop :=
  (run.contaminated states = [] ∧ guarded = []) ∨
    ∃ guard, (run.guarded states).2 = .ok guard ∧ guarded = guard.states

/-- How the states at the end come about. -/
theorem finalStates_ok {states : List RequirementState} (ended : run.finalStates = .ok states) :
    ∃ result guarded, run.swept.2 = .ok result ∧ run.GuardStates result.states guarded ∧
      states = chainedStates run.runs run.runMeta (result.states.map (downgrade guarded)) := by
  rw [FinishingRun.finalStates, FinishingRun.guardedStates] at ended
  cases swept : run.swept.2 with
  | error error =>
      rw [swept] at ended
      cases ended
  | ok result =>
      rw [swept] at ended
      simp only [Except.bind] at ended
      split_ifs at ended with none
      · have unchanged : result.states.map (downgrade []) = result.states := by
          refine (List.map_congr_left fun state _ => ?_).trans (List.map_id _)
          rw [downgrade]
          split_ifs <;> rfl
        exact ⟨result, [], rfl, Or.inl ⟨none, rfl⟩, by
          rw [unchanged]
          exact (Except.ok.inj ended).symm⟩
      · cases guarded : (run.guarded result.states).2 with
        | error error =>
            rw [guarded] at ended
            cases ended
        | ok guard =>
            rw [guarded] at ended
            exact ⟨result, guard.states, rfl, Or.inr ⟨guard, guarded, rfl⟩,
              (Except.ok.inj ended).symm⟩

/-- The guard looks at a property only when a state of it is contaminated. -/
theorem contaminated_of_guarded {states guarded : List RequirementState}
    (guard : run.GuardStates states guarded) {found : RequirementState} (member : found ∈ guarded) :
    ∃ state ∈ states, state.propertyId = found.propertyId ∧
      isContaminated run.dirtyExcluded run.swept.1.all state = true := by
  obtain ⟨-, rfl⟩ | ⟨result, ended, rfl⟩ := guard
  · cases member
  · obtain ⟨normals, added, normalized, -, -, evaluated⟩ := verifyProperties_covers _ ended
    obtain ⟨property, listed, normal, -, -, sameId, -⟩ :=
      exists_property_of_state normalized evaluated member
    obtain ⟨state, suspect, named⟩ := List.any_eq_true.mp (List.mem_filter.mp listed).2
    rw [decide_eq_true_eq] at named
    rw [FinishingRun.contaminated, List.mem_filter] at suspect
    exact ⟨state, suspect.1, named.trans sameId.symm, suspect.2⟩

/-- A contaminated state has one of the guard. -/
theorem guarded_of_contaminated {states guarded : List RequirementState}
    (guard : run.GuardStates states guarded) {property : DesiredProperty}
    (listed : property ∈ run.sweep.properties) {state : RequirementState} (member : state ∈ states)
    (ofProperty : state.propertyId = property.id)
    (suspect : isContaminated run.dirtyExcluded run.swept.1.all state = true) :
    (∃ result, (run.guarded states).2 = .ok result ∧ guarded = result.states) ∧
      ∃ found, lastState guarded property.id = some found := by
  have kept : state ∈ run.contaminated states := List.mem_filter.mpr ⟨member, suspect⟩
  obtain ⟨none, -⟩ | ⟨result, ended, rfl⟩ := guard
  · rw [none] at kept
    cases kept
  · refine ⟨⟨result, ended, rfl⟩, ?_⟩
    obtain ⟨normals, added, normalized, -, -, evaluated⟩ := verifyProperties_covers _ ended
    have again : property ∈ (run.guardInput states).properties :=
      List.mem_filter.mpr ⟨listed, List.any_eq_true.mpr ⟨state, kept, decide_eq_true ofProperty⟩⟩
    obtain ⟨normal, normalIn, normal_of⟩ := exists_partner normalized again
    obtain ⟨found, foundIn, now, shape⟩ := exists_partner evaluated normalIn
    have foundId : found.propertyId = property.id := by
      rw [shape, evaluateProperty_propertyId, normal_of.id]
    rw [← foundId]
    exact exists_lastState foundIn

theorem propertyId_downgrade (guarded : List RequirementState) (state : RequirementState) :
    (downgrade guarded state).propertyId = state.propertyId := by
  rw [downgrade]
  split_ifs
  · rfl
  · split
    · rfl
    · next found last =>
        split_ifs
        · exact (lastState_eq last).2
        · rfl

theorem propertyId_chainState (prior : OrderedMap JsString JsString) (state : RequirementState) :
    (chainState prior state).propertyId = state.propertyId := by
  rw [chainState]
  split
  · rfl
  · split_ifs <;> rfl

/-- A satisfied state stays satisfied in the chain. -/
theorem chainState_of_satisfied {prior : OrderedMap JsString JsString} {state : RequirementState}
    (satisfied : state.status = .satisfied) : (chainState prior state).status = .satisfied := by
  rw [chainState_status]
  split_ifs
  · rfl
  · exact satisfied

/-- The chain satisfies nothing else than what it inherits. -/
theorem inherits_of_chainState {state : RequirementState} (other : state.status ≠ .satisfied)
    (satisfied :
      (chainState (priorSatisfied run.runs run.runMeta) state).status = .satisfied) :
    run.Inherits state := by
  refine ⟨?_, satisfied⟩
  rw [chainState_status] at satisfied
  split_ifs at satisfied with all
  · exact all.2.1
  · exact absurd satisfied other

/-- The states of the sweep have distinct properties. -/
theorem eq_of_propertyId (distinct : (run.sweep.properties.map DesiredProperty.id).Nodup)
    {result : SweepResult} (swept : run.swept.2 = .ok result) {first second : RequirementState}
    (firstIn : first ∈ result.states) (secondIn : second ∈ result.states)
    (same : first.propertyId = second.propertyId) : first = second := by
  obtain ⟨normals, added, normalized, -, -, evaluated⟩ := verifyProperties_covers _ swept
  refine List.inj_on_of_nodup_map ?_ firstIn secondIn same
  rw [propertyIds_eq normalized evaluated]
  exact distinct

/-- What is not contaminated is left alone by the guard. -/
theorem downgrade_of_not_contaminated
    (distinct : (run.sweep.properties.map DesiredProperty.id).Nodup) {result : SweepResult}
    (swept : run.swept.2 = .ok result) {guarded : List RequirementState}
    (guard : run.GuardStates result.states guarded) {first : RequirementState}
    (member : first ∈ result.states)
    (clean : isContaminated run.dirtyExcluded run.swept.1.all first = false) :
    downgrade guarded first = first := by
  rw [downgrade]
  split_ifs
  · rfl
  · split
    · rfl
    · next found last =>
        obtain ⟨inside, sameId⟩ := lastState_eq last
        obtain ⟨state, stateIn, ofFound, suspect⟩ := contaminated_of_guarded guard inside
        rw [eq_of_propertyId distinct swept stateIn member (ofFound.trans sameId), clean] at suspect
        cases suspect

/-- A criterion that names a path is kept by normalization, and leaves a record. -/
theorem mem_acceptance_of_normalized {property normal : DesiredProperty}
    (normalized : NormalizedProperty property normal) {criterion : AcceptanceCriterion}
    (member : criterion ∈ property.acceptance) {path : JsString} (names : NamesPath path criterion) :
    criterion ∈ normal.acceptance ∧ criterion.type ≠ .human := by
  obtain ⟨other, listed, kept⟩ := exists_partner normalized.acceptance member
  cases kept with
  | kept plain =>
      refine ⟨listed, ?_⟩
      cases criterion with
      | command => simp [AcceptanceCriterion.type]
      | file => simp [AcceptanceCriterion.type]
      | suite => exact names.elim
      | agent => exact names.elim
      | human => exact names.elim
  | resolved => exact names.elim

/-- The newest record of a criterion is the one that the guard made. -/
theorem mem_guard_of_newest {normal : DesiredProperty} {criterion : AcceptanceCriterion}
    {before added : List Evidence} {e : Evidence}
    (newest : NewestGreen normal (before ++ added) criterion.id e)
    (made : ∃ record ∈ added, record.criterionId = some criterion.id ∧
      record.propertyRefs = [normal.id] ∧ record.red = false)
    (inOrder : ∀ old ∈ before, ∀ record ∈ added, old.timestamp ≤ record.timestamp) :
    e ∈ added ∧ normal.id ∈ e.propertyRefs ∧ e.criterionId = some criterion.id := by
  have named := newest.named
  rw [NewestGreen, ← latestByCriterion_eq_some, relevantEvidence, List.filter_append,
    List.filter_append] at newest
  have inside := latestByCriterion_mem_later newest ?_ ?_
  · rw [List.mem_filter, List.mem_filter] at inside
    exact ⟨inside.1.1, List.contains_iff_mem.mp inside.1.2, named⟩
  · obtain ⟨record, member, ofCriterion, refs, green⟩ := made
    refine ⟨record, ?_, ofCriterion⟩
    rw [List.mem_filter, List.mem_filter]
    simp [member, refs, green]
  · intro old oldIn record recordIn
    rw [List.mem_filter, List.mem_filter] at oldIn recordIn
    exact inOrder old oldIn.1.1 record recordIn.1.1

/-- The state that the guard derives for a spoiled property which the sweep had satisfied. -/
structure Unsatisfied (state : RequirementState) : Prop where
  notSatisfied : state.status ≠ .satisfied
  notWaived : state.status ≠ .waived
  unmarked : ¬ Marked state

theorem guard_unsatisfied (distinct : (run.sweep.properties.map DesiredProperty.id).Nodup)
    (named : ∀ property ∈ run.sweep.properties, WellNamed property)
    (reads : run.GuardReads committed) (clock : run.ClockForward) {result guard : SweepResult}
    (swept : run.swept.2 = .ok result) (ended : (run.guarded result.states).2 = .ok guard)
    {property : DesiredProperty} (listed : property ∈ run.sweep.properties)
    (spoiled : run.Spoiled committed property) {first found : RequirementState}
    (firstIn : first ∈ result.states) (firstId : first.propertyId = property.id)
    (satisfied : first.status = .satisfied) (foundIn : found ∈ guard.states)
    (foundId : found.propertyId = property.id) : Unsatisfied found := by
  obtain ⟨normals, added, normalized, grown, covers, evaluated⟩ := verifyProperties_covers _ ended
  have drop : (run.guarded result.states).1.all.drop run.swept.1.all.length = added := by
    rw [show (run.guarded result.states).1.all = run.swept.1.all ++ added from grown,
      List.drop_left]
  have plain := verifyProperties_plain _ grown
  obtain ⟨same, sameIn, normal, normalIn, normal_of, sameId, now, state⟩ :=
    exists_property_of_state normalized evaluated foundIn
  have isSame : same = property := List.inj_on_of_nodup_map distinct (List.mem_filter.mp sameIn).1
    listed (sameId.symm.trans foundId)
  subst isSame
  have wellNamed : WellNamed normal := by
    intro criterion member
    obtain ⟨source, inside, kept⟩ := exists_source normal_of.acceptance member
    rw [kept.id_eq]
    exact named same listed source inside
  subst state
  refine ⟨fun holds => ?_, fun waived => ?_, not_marked_of_no_redPhase wellNamed rfl⟩
  · obtain ⟨criterion, member, path, -, names, fails⟩ := spoiled
    obtain ⟨kept, notHuman⟩ := mem_acceptance_of_normalized normal_of member names
    obtain ⟨⟨e, newest, supports⟩, -⟩ := evaluateProperty_satisfied holds kept
    obtain ⟨record, recordIn, made⟩ := covers normal normalIn criterion kept notHuman
    rw [show (verifyProperties _ _ _ _).1.all = _ from grown] at newest
    obtain ⟨inside, refers, ofCriterion⟩ := mem_guard_of_newest newest
      ⟨record, recordIn, made.criterionId, made.propertyRefs,
        Bool.eq_false_iff.mpr fun red => Bool.false_ne_true (made.red red)⟩
      fun old oldIn later laterIn => clock result swept old oldIn later (drop ▸ laterIn)
    rw [normal_of.id] at refers
    exact fails (reads result swept e (drop ▸ inside) same listed criterion member ofCriterion
      refers supports)
  · rw [evaluateProperty_waived_iff] at waived
    obtain ⟨e, relevant, isWaived⟩ := waived
    rw [relevantEvidence, List.mem_filter] at relevant
    rw [show (verifyProperties _ _ _ _).1.all = _ from grown, List.mem_append] at relevant
    rcases relevant.1 with old | new
    · obtain ⟨normals, _, normalized, -, -, evaluated⟩ := verifyProperties_covers _ swept
      obtain ⟨source, sourceIn, before, -, before_of, sourceId, then_, state⟩ :=
        exists_property_of_state normalized evaluated firstIn
      have isSource : source = same :=
        List.inj_on_of_nodup_map distinct sourceIn listed (sourceId.symm.trans firstId)
      subst isSource
      have stillWaived : first.status = .waived := by
        rw [state, evaluateProperty_waived_iff]
        refine ⟨e, List.mem_filter.mpr ⟨old, ?_⟩, isWaived⟩
        rw [before_of.id, ← normal_of.id]
        exact relevant.2
      rw [satisfied] at stillWaived
      cases stillWaived
    · rw [(plain e new).1] at isWaived
      cases isWaived

/-- Exactly when the spoiled properties are caught, the recorded states are sound. -/
theorem contaminationSound_iff (run : FinishingRun)
    (distinct : (run.sweep.properties.map DesiredProperty.id).Nodup)
    (named : ∀ property ∈ run.sweep.properties, WellNamed property)
    {committed : JsString → JsString → Prop} (reads : run.GuardReads committed)
    (clock : run.ClockForward) : run.Sound committed ↔ run.SpoiledAreCaught committed := by
  constructor
  · intro sound states ended result swept property listed spoiled first member ofProperty
    obtain ⟨other, guarded, same, guard, shape⟩ := finalStates_ok ended
    rw [swept] at same
    cases same
    have final : ∀ state, downgrade guarded first = state →
        (chainState (priorSatisfied run.runs run.runMeta) state).status ≠ .satisfied := by
      intro state changed satisfied
      refine sound states ended property listed _ ?_ ?_ satisfied spoiled
      · rw [shape, ← changed]
        exact List.mem_map_of_mem (List.mem_map_of_mem member)
      · rw [propertyId_chainState, ← changed, propertyId_downgrade, ofProperty]
    constructor
    · intro satisfied
      by_contra clean
      exact final first
        (downgrade_of_not_contaminated distinct swept guard member (Bool.eq_false_iff.mpr clean))
        (chainState_of_satisfied satisfied)
    · intro inherits
      refine final first (downgrade_of_not_satisfied ?_) inherits.2
      rw [inherits.1]
      decide
  · intro caught states ended property listed state stateIn ofProperty satisfied spoiled
    obtain ⟨result, guarded, swept, guard, shape⟩ := finalStates_ok ended
    rw [shape] at stateIn
    obtain ⟨changed, changedIn, rfl⟩ := List.mem_map.mp stateIn
    obtain ⟨first, firstIn, rfl⟩ := List.mem_map.mp changedIn
    rw [propertyId_chainState, propertyId_downgrade] at ofProperty
    obtain ⟨suspect, noHeir⟩ :=
      caught states ended result swept property listed spoiled first firstIn ofProperty
    by_cases before : first.status = .satisfied
    · obtain ⟨⟨guardResult, guardEnded, rfl⟩, found, last⟩ :=
        guarded_of_contaminated guard listed firstIn ofProperty (suspect before)
      obtain ⟨foundIn, foundId⟩ := lastState_eq last
      have unsatisfied := guard_unsatisfied distinct named reads clock swept guardEnded listed
        spoiled firstIn ofProperty before foundIn foundId
      rw [downgrade, if_neg (not_not_intro before), ofProperty, last] at satisfied
      simp only [ne_eq, unsatisfied.notSatisfied, unsatisfied.notWaived, not_false_eq_true, and_self,
        if_true] at satisfied
      exact not_satisfied_of_downgraded unsatisfied.unmarked unsatisfied.notSatisfied satisfied
    · rw [downgrade_of_not_satisfied before] at satisfied
      exact noHeir (inherits_of_chainState before satisfied)

end Ends

/-! ## A file that only the working tree has -/

def notesProperty : DesiredProperty :=
  { id := js "P-1", statement := js "holds", priority := .must, dependsOn := []
    acceptance := [.file (js "A-1") (js "notes.md") ⟨some true, none, none⟩ none] }

/-- Surroundings in which every file is there. -/
def notesSurroundings : Surroundings :=
  { stillSurroundings 0 with
    observe := fun count =>
      { (stillSurroundings 0).observe count with file := ⟨true, some [], JsNumber.ofNat 0⟩ } }

def noRuns : RunsDir where
  ids := []
  folder _ := ⟨none, none, none⟩
  listed _ some_ := absurd rfl some_

/-- A run in place, with an untracked file that is exempted by its name. -/
def notesRun : FinishingRun where
  sha256Hex := lengthHash
  sweep := { standaloneSweep [notesProperty] with enforceRedPhase := true }
  records := RunRecords.fresh
  sweepSurroundings := notesSurroundings
  guardSurroundings := stillSurroundings 0
  renames := noRenames
  worktree := (newFiles [js "notes.md"]).toWorktree
  allowDirtyPaths := [js "notes.md"]
  runs := noRuns
  runMeta := ⟨js "run-1", js "notes", js "digest", none, none, none⟩

theorem notes_spoiled : notesRun.Spoiled (fun _ _ => False) notesProperty := by
  refine ⟨.file (js "A-1") (js "notes.md") ⟨some true, none, none⟩ none, List.mem_cons_self,
    js "notes.md", ⟨js "notes.md", ?_, ?_⟩, ?_, not_false⟩
  · decide +kernel
  · decide +kernel
  · show Path.normalize (js "notes.md") = js "notes.md"
    decide

/-- No record of a file criterion mentions the file. -/
theorem notes_not_reverified {result : SweepResult} (swept : notesRun.swept.2 = .ok result) :
    (notesRun.guarded result.states).1.all.drop notesRun.swept.1.all.length = [] := by
  cases swept
  rw [← List.length_eq_zero_iff]
  decide +kernel

/-- The property is recorded as satisfied, and the file is not in the result. -/
theorem not_contaminationSound : ¬ notesRun.Sound fun _ _ => False := by
  intro sound
  have satisfied : ∃ states, notesRun.finalStates = .ok states ∧
      ∃ state ∈ states, state.propertyId = notesProperty.id ∧ state.status = .satisfied := by
    refine ⟨_, rfl, _, List.mem_cons_self, ?_, ?_⟩
    · decide +kernel
    · decide +kernel
  obtain ⟨states, ended, state, member, ofProperty, status⟩ := satisfied
  exact sound states ended notesProperty List.mem_cons_self state member ofProperty status
    notes_spoiled

theorem contaminationSound_iff_notes :
    notesRun.Sound (fun _ _ => False) ↔ notesRun.SpoiledAreCaught fun _ _ => False := by
  refine contaminationSound_iff notesRun ?_ ?_ ?_ ?_
  · decide
  · decide
  · intro result swept e member
    rw [notes_not_reverified swept] at member
    cases member
  · intro result swept old _ e member
    rw [notes_not_reverified swept] at member
    cases member

end SpecAsCode.Runtime
