import SpecAsCode.Runtime.Replay
import SpecAsCode.Runtime.VerifyRun

/-!
# The written state and the replayed one

A verification run and the resolutions of follow-ups write `state.json` without replaying the
log.  What they write agrees with what the log is replayed as.
-/

namespace SpecAsCode.Runtime

open SpecAsCode.Js
open SpecAsCode.Schema
open SpecAsCode.Verifier
open SpecAsCode.History

/-- The state of a run, if it is there, agrees with the replayed one on every field that is
compared. -/
def RunDirectory.Agrees (runMeta plan : JsValue) (directory : RunDirectory) : Prop :=
  ∃ replayed, projectState runMeta plan directory.log.log.records = .ok replayed ∧
    ∀ file, directory.state = some file →
      stateDiffs replayDiffWords file.value replayed = .ok []

/-- The records that `resolveFollowup` works on. -/
def RunDirectory.records (directory : RunDirectory) : RunRecords :=
  ⟨directory.evidence, FollowupStore.load directory.followups, []⟩

/-- `resolveFollowup` on the directory of a run. -/
def RunDirectory.resolve (sha256Hex : JsString → JsString) (call : Resolution.Call)
    (directory : RunDirectory) : RunDirectory :=
  match resolveFollowup sha256Hex call.surroundings call.options directory.records with
  | (records, outcome) =>
      { followups := records.followups
        evidence := records.evidence
        log := directory.log.emitAll sha256Hex call.stamps records.events
        state := match outcome with
          | .error _ => directory.state
          | .ok result => directory.state.map fun file =>
              result.propertyStates.foldl StateFile.setRequirement file
        attestation := directory.attestation }

section Resolutions

variable {sha256Hex : JsString → JsString} {surroundings : Surroundings}
  {options : ResolveFollowupOptions}

theorem truthy_eq_some {text : Option JsString} {value : JsString} (kept : truthy text = some value) :
    value ≠ [] := by
  rw [truthy, Option.filter_eq_some_iff] at kept
  simpa using kept.2

theorem ne_nil_of_followupTarget {followup : FollowUp} {criterionId : JsString}
    {property : DesiredProperty}
    (target : followupTarget options followup = some (criterionId, property)) :
    property.id ≠ [] := by
  obtain ⟨criterion, -, forCriterion⟩ := Option.bind_eq_some_iff.mp target
  obtain ⟨propertyId, named, forProperty⟩ := Option.bind_eq_some_iff.mp forCriterion
  obtain ⟨found, search, same⟩ := Option.map_eq_some_iff.mp forProperty
  cases same
  have same : property.id = propertyId := by simpa using List.find?_some search
  rw [same]
  exact truthy_eq_some named

/-- The events of a resolution and the states that it writes say the same about the
requirements. -/
theorem resolveFollowup_effect {records : RunRecords} (none : records.events = [])
    (state : ComparedState) :
    (resolveFollowup sha256Hex surroundings options records).1.events.foldl RunEvent.effect state =
      match (resolveFollowup sha256Hex surroundings options records).2 with
      | .error _ => state
      | .ok result => state.withStates result.propertyStates := by
  obtain ⟨evidence, followups, events⟩ := records
  cases none
  rw [resolveFollowup]
  split
  next => rfl
  next followup found =>
    split
    next => rfl
    next =>
      split
      next => rfl
      next =>
        simp only
        split
        next => rfl
        next criterionId property target =>
          simp only [answerCriterion, RunRecords.emit, RunRecords.addEvidence, List.nil_append,
            List.cons_append, List.foldl_cons, List.foldl_nil, RunEvent.effect,
            evaluateProperty_propertyId, if_neg (ne_nil_of_followupTarget target),
            ComparedState.withStates]

/-- A resolution keeps the state and the log in agreement. -/
theorem RunDirectory.Agrees.resolve {runMeta plan : JsValue} {directory : RunDirectory}
    (agrees : directory.Agrees runMeta plan) (call : Resolution.Call) :
    (directory.resolve sha256Hex call).Agrees runMeta plan := by
  obtain ⟨replayed, projected, same⟩ := agrees
  rw [projectState] at projected
  cases started : initialState runMeta plan with
  | error error =>
      rw [started] at projected
      cases projected
  | ok initial =>
      rw [started] at projected
      cases projected
      have shows : ∀ file, directory.state = some file →
          file.Shows (directory.log.replayFrom initial).compared := fun file there =>
        stateDiffs_eq_nil.mp (same file there)
      refine ⟨(directory.resolve sha256Hex call).log.replayFrom initial, ?_, fun file found => ?_⟩
      · rw [projectState, started]
        rfl
      · rw [RunDirectory.resolve] at found ⊢
        simp only at found ⊢
        rw [stateDiffs_eq_nil, EventStore.compared_emitAll, resolveFollowup_effect rfl]
        split
        next error outcome =>
          rw [outcome] at found
          exact shows file found
        next result outcome =>
          rw [outcome] at found
          obtain ⟨before, there, rfl⟩ := Option.map_eq_some_iff.mp found
          exact (shows before there).setRequirements result.propertyStates

end Resolutions

/-! ## The events of a sweep -/

/-- The records after a step whose events change no requirement. -/
def Unjudged (before after : RunRecords) : Prop :=
  ∀ state : ComparedState,
    after.events.foldl RunEvent.effect state = before.events.foldl RunEvent.effect state

section Sweeps

variable {sha256Hex : JsString → JsString} {surroundings : Surroundings} {input : SweepInput}

theorem Unjudged.emit {before after : RunRecords} (unjudged : Unjudged before after)
    {event : RunEvent} (still : ∀ state : ComparedState, event.effect state = state) :
    Unjudged before (after.emit event) := by
  intro state
  rw [RunRecords.emit, List.foldl_append, unjudged state]
  exact still _

theorem executionEvent_still {criterionId : JsString} {result : CriterionResult}
    {event : RunEvent} (made : executionEvent input criterionId result = some event)
    (state : ComparedState) : event.effect state = state := by
  rw [executionEvent] at made
  split at made
  next =>
    cases made
    rfl
  next =>
    split at made
    next =>
      cases made
      rfl
    next => cases made
  next => cases made

theorem unjudged_openFollowup {before : RunRecords} {progress : SweepProgress}
    (unjudged : Unjudged before progress.records) (draft : FollowUpDraft) :
    Unjudged before (openFollowup surroundings input progress draft).records := by
  rw [openFollowup]
  split
  next => exact unjudged
  next => exact Unjudged.emit unjudged fun _ => rfl

theorem unjudged_recordResult {before : RunRecords} {progress : SweepProgress}
    (unjudged : Unjudged before progress.records) (criterionId : JsString)
    (result : CriterionResult) :
    Unjudged before (recordResult sha256Hex surroundings input progress criterionId result).records := by
  rw [recordResult]
  generalize recorded : ((progress.records.addEvidence sha256Hex result.evidence).emit
    (.evidenceRecorded _ _ _ _ _ _ _) : RunRecords) = evidenced
  have evidence : Unjudged before evidenced := by
    rw [← recorded]
    exact Unjudged.emit unjudged fun _ => rfl
  have executed : Unjudged before
      ((executionEvent input criterionId result).elim evidenced evidenced.emit) := by
    cases made : executionEvent input criterionId result with
    | none => exact evidence
    | some event => exact evidence.emit (executionEvent_still made)
  cases result.followUp with
  | none => exact executed
  | some draft => exact @unjudged_openFollowup surroundings input before ⟨_, _⟩ executed draft

theorem unjudged_sweepCriteria {context : CriterionContext} {before : RunRecords}
    (pairs : List (DesiredProperty × AcceptanceCriterion)) {progress next : SweepProgress}
    {outcome : Option VerifyError} (unjudged : Unjudged before progress.records)
    (swept : sweepCriteria sha256Hex surroundings input context pairs progress = (next, outcome)) :
    Unjudged before next.records := by
  induction pairs generalizing progress with
  | nil =>
      cases swept
      exact unjudged
  | cons pair pairs inductionHypothesis =>
      rw [sweepCriteria] at swept
      have step : Unjudged before (sweepCriterion sha256Hex surroundings input context pair.1 pair.2
          progress).1.records := by
        rw [sweepCriterion]
        split
        next => exact unjudged
        next =>
          split
          next => exact unjudged
          next result checked => exact unjudged_recordResult unjudged _ result
      generalize sweepCriterion sha256Hex surroundings input context pair.1 pair.2 progress = first
        at step swept
      obtain ⟨middle, failure⟩ := first
      cases failure with
      | some error =>
          cases swept
          exact step
      | none => exact inductionHypothesis step swept

/-- The events on the states of the properties say what the states say. -/
theorem evaluateEach_effect {properties : List DesiredProperty}
    (named : ∀ property ∈ properties, property.id ≠ []) (records : RunRecords)
    (state : ComparedState) :
    (evaluateEach surroundings input records properties).1.events.foldl RunEvent.effect state =
      (records.events.foldl RunEvent.effect state).withStates
        (evaluateEach surroundings input records properties).2 := by
  induction properties generalizing records with
  | nil => rfl
  | cons property properties inductionHypothesis =>
      obtain ⟨first, rest⟩ := List.forall_mem_cons.mp named
      rw [evaluateEach]
      simp only
      rw [inductionHypothesis rest, RunRecords.emit, List.foldl_append, ComparedState.withStates,
        ComparedState.withStates, List.foldl_cons, List.foldl_cons, List.foldl_nil,
        RunEvent.effect, if_neg first, evaluateProperty_propertyId]

/-- What the events of a sweep make of a state: nothing before the criteria are checked, and then
what the sweep returns. -/
theorem verifyProperties_effect (named : ∀ property ∈ input.properties, property.id ≠ [])
    {records : RunRecords} (none : records.events = []) (state : ComparedState) :
    (verifyProperties sha256Hex surroundings input records).1.events.foldl RunEvent.effect state =
      match (verifyProperties sha256Hex surroundings input records).2 with
      | .error _ => state
      | .ok result => state.withStates result.states := by
  have initially : ∀ after, Unjudged records after →
      after.events.foldl RunEvent.effect state = state := by
    intro after unjudged
    rw [unjudged state, none]
    rfl
  rw [verifyProperties]
  cases resolved : input.resolveSuites with
  | error error => exact initially records fun _ => rfl
  | ok found =>
      obtain ⟨properties, provenance⟩ := found
      have normalized := resolveSuites_ok resolved
      cases swept : sweepCriteria sha256Hex surroundings input
          (input.context records.followups provenance) (criteriaOf properties) ⟨records, []⟩ with
      | mk progress outcome =>
          have unjudged := initially progress.records
            (unjudged_sweepCriteria (criteriaOf properties) (fun _ => rfl) swept)
          cases outcome with
          | some error => simpa only [swept] using unjudged
          | none =>
              simp only [swept]
              rw [evaluateEach_effect, unjudged]
              intro normal member
              obtain ⟨property, listed, same⟩ := exists_source normalized member
              rw [same.1]
              exact named property listed

end Sweeps

/-! ## The states that are spread in -/

/-- The last state of a property is the one that is read. -/
theorem withStates_requirements (states : List RequirementState) (state : ComparedState)
    (id : JsString) :
    (state.withStates states).requirements id =
      (((statesMap states).get? id).map fun requirement =>
        JsValue.string requirement.status.text).or (state.requirements id) := by
  let text := fun requirement : RequirementState => JsValue.string requirement.status.text
  have folded : ∀ (states : List RequirementState) (after : ComparedState)
      (map : OrderedMap JsString RequirementState),
      (∀ id, after.requirements id = ((map.get? id).map text).or (state.requirements id)) →
      (after.withStates states).requirements id =
        ((((states.map fun requirement => (requirement.propertyId, requirement)).foldl
          (fun map entry => map.set entry.1 entry.2) map).get? id).map text).or
            (state.requirements id) := by
    intro states
    induction states with
    | nil => exact fun after map shown => shown id
    | cons requirement states inductionHypothesis =>
        intro after map shown
        refine inductionHypothesis _ (map.set requirement.propertyId requirement) fun other => ?_
        show Function.update after.requirements requirement.propertyId
          (some (.string requirement.status.text)) other = _
        by_cases same : other = requirement.propertyId
        · rw [same, Function.update_self, OrderedMap.get?_set_self]
          rfl
        · rw [Function.update_of_ne same, OrderedMap.get?_set_ne _ same]
          exact shown other
  exact folded states state OrderedMap.empty fun _ => rfl

/-- Spreading in states that the log has told already changes no status. -/
theorem compared_spreadStates {state : ProjectedState} {before : ComparedState}
    {states : List RequirementState} (judged : state.compared = before.withStates states)
    (id : JsString) :
    ((spreadStates state.requirements states).get? id).map ProjectedRequirement.status =
      state.compared.requirements id := by
  have told := withStates_requirements states before id
  rw [← judged] at told
  have found : ((statesMap states).entries.find? fun entry => entry.1 = id).map Prod.snd =
      (statesMap states).get? id := rfl
  rw [spreadStates, OrderedMap.get?_foldl_set (statesMap states).distinct, found]
  cases known : (statesMap states).get? id with
  | none => rfl
  | some requirement =>
      rw [told, known]
      rfl

/-! ## The run -/

section Run

variable {sha256Hex : JsString → JsString} {surroundings : Surroundings}
  {stamps : Nat → Stamp × Stamp} {options : StandaloneVerifyOptions}

theorem EventStore.replayFrom_stamped (store : EventStore)
    (input : Stamp → Stamp → EventStore.Input) (state : ProjectedState) :
    ∃ event : Event, ∃ id timestamp, event.type = (input id timestamp).type ∧
      event.payload = (input id timestamp).payload ∧
      (store.stamped sha256Hex stamps input).replayFrom state =
        applyEvent (store.replayFrom state) event := by
  obtain ⟨event, type, payload, replayed⟩ := @EventStore.replayFrom_extend sha256Hex store
    (input (stamps store.log.records.length).1 (stamps store.log.records.length).2) state
  exact ⟨event, _, _, type, payload, replayed⟩

theorem compared_openedLog (state : ProjectedState) :
    ((openedLog sha256Hex stamps options).replayFrom state).compared = state.compared := by
  have still : ∀ (events : List VerifyOpening) (store : EventStore),
      ((events.foldl (fun store event => store.stamped sha256Hex stamps event.input)
        store).replayFrom state).compared = (store.replayFrom state).compared := by
    intro events
    induction events with
    | nil => exact fun _ => rfl
    | cons opening events inductionHypothesis =>
        intro store
        obtain ⟨event, id, timestamp, type, -, replayed⟩ := @EventStore.replayFrom_stamped sha256Hex
          stamps store opening.input state
        rw [List.foldl_cons, inductionHypothesis, replayed, applyEvent_still]
        rw [type]
        cases opening <;> rfl
  exact still _ _

theorem compared_completed (log : EventStore) (status : RunStatus) (requirements : Json)
    (state : ProjectedState) :
    ((log.stamped sha256Hex stamps (EndEvent.completed status none requirements).input).replayFrom
      state).compared = { (log.replayFrom state).compared with status := status.text } := by
  obtain ⟨event, id, timestamp, type, payload, replayed⟩ := @EventStore.replayFrom_stamped
    sha256Hex stamps log (EndEvent.completed status none requirements).input state
  rw [replayed]
  refine applyEvent_completed type ?_ ?_ _
  · rw [payload]
    exact lookup_fieldMembers_self _ _ _
  · rw [payload]
    show lookup _ (fieldMembers _) = _
    rw [EndEvent.fields, lookup_fieldMembers_ne (by decide), Option.map_none,
      lookup_fieldMembers_none, lookup_fieldMembers_ne (by decide), fieldMembers_nil]
    rfl

theorem replayFrom_attestedLog (log : EventStore) (attestation : Option RunAttestation)
    (state : ProjectedState) :
    (attestedLog sha256Hex stamps log attestation).replayFrom state = log.replayFrom state := by
  cases attestation with
  | none => rfl
  | some attestation =>
      obtain ⟨event, id, timestamp, type, -, replayed⟩ := @EventStore.replayFrom_stamped
        sha256Hex stamps log attestation.input state
      have attested : event.type = .runAttested := type
      show (log.stamped sha256Hex stamps attestation.input).replayFrom state = _
      rw [replayed, applyEvent, if_pos attested]

/-- The state that the log of a verification run is replayed from. -/
theorem initialState_verify (runMeta : VerifyMeta) :
    ∃ initial, initialState runMeta.value .null = .ok initial ∧
      initial.compared = ⟨js "running", none, 0, 0, fun _ => none, fun _ => none⟩ :=
  ⟨_, rfl, rfl⟩

/-- What the log of a sweep that has ended or failed is replayed as. -/
theorem compared_swept (named : ∀ property ∈ options.properties, property.id ≠ [])
    (state : ProjectedState) :
    let outcome := verifyStandalone sha256Hex surroundings options RunRecords.fresh
    (((openedLog sha256Hex stamps options).emitAll sha256Hex stamps outcome.1.events).replayFrom
      state).compared =
        match outcome.2 with
        | .error _ => state.compared
        | .ok sweep => state.compared.withStates sweep.states := by
  have prepared : ∀ outcome : Option PrepareOutcome,
      (outcome.elim RunRecords.fresh fun outcome => RunRecords.fresh.addEvidence sha256Hex
        (preparationEvidence options outcome (surroundings.evidenceTime 0))).events = [] := by
    intro outcome
    cases outcome <;> rfl
  intro outcome
  rw [EventStore.compared_emitAll, compared_openedLog]
  exact @verifyProperties_effect sha256Hex surroundings options.sweepInput named _
    (prepared options.prepareOutcome) state.compared

theorem comparable_withStates {state : ComparedState} (comparable : state.Comparable)
    (states : List RequirementState) : (state.withStates states).Comparable := by
  induction states generalizing state with
  | nil => exact comparable
  | cons requirement states inductionHypothesis =>
      exact inductionHypothesis (comparable.withRequirement _ _)

/-- The state that `createVerifyRun` writes agrees with its log. -/
theorem createVerifyRun_agrees (named : ∀ property ∈ options.properties, property.id ≠ [])
    {attestedAt : JsString}
    (finalized : ∀ error, (createVerifyRun sha256Hex surroundings stamps options attestedAt).2 =
      .error error → options.harnessTimeout error = true) :
    let directory := (createVerifyRun sha256Hex surroundings stamps options attestedAt).1
    directory.state.isSome ∧ directory.Agrees options.runMeta.value .null := by
  obtain ⟨initial, started, fresh⟩ := initialState_verify options.runMeta
  have comparable : initial.compared.Comparable := by
    rw [fresh]
    constructor
    · intro id task found
      cases found
    · intro id status found
      cases found
  have swept := @compared_swept sha256Hex surroundings stamps options named initial
  simp only at swept ⊢
  rw [createVerifyRun] at finalized ⊢
  generalize verifyStandalone sha256Hex surroundings options RunRecords.fresh = outcome
    at swept finalized ⊢
  obtain ⟨records, outcome⟩ := outcome
  simp only at swept finalized ⊢
  generalize (openedLog sha256Hex stamps options).emitAll sha256Hex stamps records.events = log
    at swept finalized ⊢
  cases outcome with
  | error error =>
      have timedOut : options.harnessTimeout error = true := by
        refine finalized error ?_
        simp only
        split <;> rfl
      simp only [if_pos timedOut]
      rw [timedOutRun, started]
      refine ⟨rfl, (log.stamped sha256Hex stamps
        (EndEvent.completed .timedOut none (Json.fromEntries [])).input).replayFrom initial, ?_, ?_⟩
      · rw [projectState, started]
        rfl
      · intro file written
        cases written
        rw [stateDiffs_eq_nil, compared_completed, swept]
        exact ProjectedState.persist_shows ⟨comparable.tasks, comparable.requirements⟩
  | ok sweep =>
      simp only [endedVerifyRun]
      rw [started]
      generalize verifyStatus options records.followups sweep.states = status
      generalize Json.fromEntries _ = requirements
      generalize (attestRecords sha256Hex _ _ _).toOption = attestation
      refine ⟨rfl, (attestedLog sha256Hex stamps (log.stamped sha256Hex stamps
        (EndEvent.completed status none requirements).input) attestation).replayFrom initial, ?_, ?_⟩
      · rw [projectState, started]
        rfl
      · intro file written
        cases written
        rw [stateDiffs_eq_nil, replayFrom_attestedLog, compared_completed]
        have spread : ({ log.replayFrom initial with
            status := status.text
            requirements := spreadStates (log.replayFrom initial).requirements sweep.states } :
              ProjectedState).compared =
            { (log.replayFrom initial).compared with status := status.text } := by
          refine congrArg (fun requirements => { (log.replayFrom initial).compared with
            status := status.text, requirements := requirements }) (funext fun id => ?_)
          exact compared_spreadStates swept id
        rw [← spread]
        refine ProjectedState.persist_shows ?_
        rw [spread, swept]
        obtain ⟨tasks, requirements⟩ := comparable_withStates comparable sweep.states
        exact ⟨tasks, requirements⟩

end Run

/-- The state of a verification run, whether it ended or timed out, agrees with its log, and
resolutions keep the state of any run in agreement with its log. -/
theorem projection_coherent (sha256Hex : JsString → JsString) :
    (∀ surroundings stamps options attestedAt,
      (∀ property ∈ options.properties, isPropertyId property.id = true) →
      (∀ error, (createVerifyRun sha256Hex surroundings stamps options attestedAt).2 =
        .error error → options.harnessTimeout error = true) →
      (createVerifyRun sha256Hex surroundings stamps options attestedAt).1.state.isSome ∧
        (createVerifyRun sha256Hex surroundings stamps options attestedAt).1.Agrees
          options.runMeta.value .null) ∧
    ∀ runMeta plan directory calls, directory.Agrees runMeta plan →
      (run (RunDirectory.resolve sha256Hex) calls directory).Agrees runMeta plan := by
  refine ⟨fun surroundings stamps options attestedAt valid => ?_,
    fun runMeta plan directory calls agrees => ?_⟩
  · refine createVerifyRun_agrees fun property member empty => ?_
    have pattern := valid property member
    rw [empty] at pattern
    cases pattern
  · exact (everyStep_of_forall (fun _ _ => trivial) directory).invariant agrees
      fun _ call _ holds => holds.resolve call

/-- Options for a run over one property that a person verifies. -/
def manualOptions : StandaloneVerifyOptions where
  runMeta := ⟨js "v-1", js "spec", js "sha256:0", js "sha256:1", js "head", js "t"⟩
  dirty := false
  properties := [manualProperty]
  policy := fun _ => ⟨js "build", .allow, []⟩
  provider := none
  prepareOutcome := none
  suites := none
  allowAgentOnlyMustRequirements := false
  requireRedPhase := false
  harnessTimeout := fun _ => false

def stillStamps (_ : Nat) : Stamp × Stamp :=
  (⟨js "t", instant_ne_nil⟩, ⟨js "t", instant_ne_nil⟩)

/-- The run over that property. -/
def manualRun : RunDirectory × Except VerifyError (List RequirementState) :=
  createVerifyRun lengthHash (stillSurroundings 0) stillStamps manualOptions (js "t")

/-- The person confirms it. -/
def manualConfirmation : Resolution.Call :=
  ⟨stillSurroundings 0, stillStamps, answerFirstFollowup [manualProperty] (js "confirm")⟩

theorem projection_coherent_manual :
    manualRun.1.state.isSome ∧
      (run (RunDirectory.resolve lengthHash) [manualConfirmation] manualRun.1).Agrees
        manualOptions.runMeta.value .null ∧
      (run (RunDirectory.resolve lengthHash) [manualConfirmation] manualRun.1).followups.map
        FollowUp.status = [.resolved] := by
  have ended : ∃ states, manualRun.2 = .ok states := ⟨_, rfl⟩
  obtain ⟨written, agrees⟩ := (projection_coherent lengthHash).1 (stillSurroundings 0) stillStamps
    manualOptions (js "t") (by decide) fun error failed => by
      obtain ⟨states, same⟩ := ended
      rw [show manualRun.2 = _ from failed] at same
      cases same
  exact ⟨written, (projection_coherent lengthHash).2 _ _ manualRun.1 [manualConfirmation] agrees, rfl⟩

end SpecAsCode.Runtime
