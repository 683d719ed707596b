import SpecAsCode.Runtime.Verify

/-!
# Resolving a follow-up

An answer to a follow-up is recorded; when the follow-up stands for a criterion, the answer
becomes human evidence and the state of the property is derived again.
-/

namespace SpecAsCode.Runtime

open SpecAsCode.Js
open SpecAsCode.Schema
open SpecAsCode.Verifier

/-- `ResolveFollowupOptions`, with the parts of the specification and the configuration that
are read. -/
structure ResolveFollowupOptions where
  runId : JsString
  followupId : JsString
  optionId : Option JsString
  note : Option JsString
  resolvedBy : Option JsString
  properties : List DesiredProperty
  allowAgentOnlyMustRequirements : Bool

/-- Why a resolution is refused. -/
inductive ResolveError where
  | followupNotFound (followupId runId : JsString)
  | invalidOption (optionId followupId : JsString) (valid : List JsString)
  deriving DecidableEq

/-- A text that counts as true. -/
def truthy (text : Option JsString) : Option JsString :=
  text.filter fun text => text != []

/-- The outcome an option stands for. -/
def humanOutcome (optionId : Option JsString) : EvidenceOutcome :=
  if optionId = some (js "waive") then
    .supports
  else if optionId = some (js "reject") then
    .contradicts
  else if optionId = some (js "confirm") then
    .supports
  else
    .inconclusive

structure ResolveFollowupResult where
  followup : FollowUp
  propertyStates : List RequirementState

section Resolve

variable (sha256Hex : JsString → JsString) (surroundings : Surroundings)
  (options : ResolveFollowupOptions)

/-- The record of the answer of a person. -/
def humanEvidence (criterionId propertyId followupId : JsString) (now : Stamp) : EvidenceDraft where
  runId := options.runId
  taskId := none
  criterionId := some criterionId
  propertyRefs := [propertyId]
  kind := .human
  outcome := humanOutcome options.optionId
  producer := ⟨.human, truthy options.resolvedBy⟩
  timestamp := now
  repositoryRevision := js "post-run-resolution"
  red := false
  payload := Json.object
    [(js "followupId", some (.text followupId)),
      (js "optionId", some (options.optionId.elim .null .text)),
      (js "note", (truthy options.note).map .text),
      (js "waive", if options.optionId = some (js "waive") then some (.bool true) else none)]
    (by simp only [Ordered, List.map]; decide)

/-- The options of the evaluation after an answer. -/
def ResolveFollowupOptions.evaluation (now : JsString) : EvaluationOptions where
  allowAgentOnly := options.allowAgentOnlyMustRequirements
  inProgressPropertyIds := []
  now := now
  requireRedPhase := false
  inheritedFlips := fun _ => none

/-- The evidence and the state that an answer leads to. -/
def answerCriterion (records : RunRecords) (followup : FollowUp) (criterionId : JsString)
    (property : DesiredProperty) : RunRecords × RequirementState :=
  let draft := humanEvidence options criterionId property.id followup.id
    (surroundings.evidenceTime records.all.length)
  let evidence := records.evidence.nextRecord sha256Hex draft
  let answered := records.addEvidence sha256Hex draft
  let state := evaluateProperty property answered.all
    (options.evaluation (surroundings.evaluationTime answered.events.length))
  ((answered.emit (.evidenceRecorded evidence.id [property.id] (some criterionId) .human
      (humanOutcome options.optionId) none false)).emit
    (.propertyVerified state.propertyId state.status state.evidenceIds state.reason false none false),
    state)

/-- The property and the criterion that a follow-up stands for, if the specification has
the property. -/
def followupTarget (followup : FollowUp) : Option (JsString × DesiredProperty) :=
  (truthy followup.criterionId).bind fun criterionId =>
    (truthy followup.propertyId).bind fun propertyId =>
      (options.properties.find? fun property => property.id = propertyId).map fun property =>
        (criterionId, property)

/-- The options that are offered, when the one that was chosen is not among them. -/
def invalidOption (followup : FollowUp) : Option (JsString × List JsString) :=
  followup.options.bind fun offered =>
    (truthy options.optionId).bind fun chosen =>
      if offered.any fun option => option.id = chosen then
        none
      else
        some (chosen, offered.map (·.id))

/-- `resolveFollowup`: the records after it, and the result or the error it raised. -/
def resolveFollowup (records : RunRecords) :
    RunRecords × Except ResolveError ResolveFollowupResult :=
  match records.followups.withId options.followupId with
  | none => (records, .error (.followupNotFound options.followupId options.runId))
  | some followup =>
      if followup.status = .resolved then
        (records, .ok ⟨followup, []⟩)
      else
        match invalidOption options followup with
        | some (chosen, valid) => (records, .error (.invalidOption chosen followup.id valid))
        | none =>
            let resolution : Resolution :=
              ⟨truthy options.optionId, truthy options.note, truthy options.resolvedBy⟩
            let now := surroundings.followupTime records.followups.length
            let resolved := FollowupStore.answered followup resolution now
            let next := { records with
              followups := FollowupStore.answerFirst options.followupId resolution now
                records.followups }.emit (.followupResolved resolved.id options.optionId options.note)
            match followupTarget options followup with
            | none => (next, .ok ⟨resolved, []⟩)
            | some (criterionId, property) =>
                let answered := answerCriterion sha256Hex surroundings options next resolved
                  criterionId property
                (answered.1, .ok ⟨resolved, [answered.2]⟩)

end Resolve

/-! ## What an answer leaves -/

/-- A record that a person's answer made for a criterion of a property. -/
structure AnswerFor (options : ResolveFollowupOptions) (criterionId : JsString)
    (property : DesiredProperty) (e : Evidence) : Prop where
  criterionId : e.criterionId = some criterionId
  propertyRefs : e.propertyRefs = [property.id]
  kind : e.kind = .human
  producer : e.producer.type = .human
  outcome : e.outcome = humanOutcome options.optionId
  green : e.red = false
  waiver : isWaiver e = true ↔ options.optionId = some (js "waive")

/-- What a resolution adds to the records. -/
inductive ResolutionStep (options : ResolveFollowupOptions) (before : RunRecords) :
    RunRecords → List RequirementState → Prop where
  /-- It is refused, or the follow-up was resolved before, or it stands for no criterion of
  the specification. -/
  | noEvidence {after : RunRecords} (same : after.evidence = before.evidence) :
      ResolutionStep options before after []
  | evidence {after : RunRecords} (followup : FollowUp) (criterionId : JsString)
      (property : DesiredProperty) (e : Evidence) (now : JsString)
      (found : before.followups.withId options.followupId = some followup)
      (isOpen : followup.status = .opened)
      (target : followupTarget options followup = some (criterionId, property))
      (made : AnswerFor options criterionId property e) (all : after.all = before.all ++ [e]) :
      ResolutionStep options before after
        [evaluateProperty property after.all (options.evaluation now)]

section Answers

variable {sha256Hex : JsString → JsString} {surroundings : Surroundings}
  {options : ResolveFollowupOptions}

theorem mem_of_followupTarget {followup : FollowUp} {criterionId : JsString}
    {property : DesiredProperty}
    (target : followupTarget options followup = some (criterionId, property)) :
    property ∈ options.properties := by
  obtain ⟨criterion, -, forCriterion⟩ := Option.bind_eq_some_iff.mp target
  obtain ⟨propertyId, -, forProperty⟩ := Option.bind_eq_some_iff.mp forCriterion
  obtain ⟨found, search, same⟩ := Option.map_eq_some_iff.mp forProperty
  cases same
  exact List.mem_of_find?_eq_some search

theorem isWaiver_humanEvidence (store : EvidenceStore) (criterionId propertyId followupId : JsString)
    (now : Stamp) :
    isWaiver (store.nextRecord sha256Hex (humanEvidence options criterionId propertyId followupId
      now)) = true ↔ options.optionId = some (js "waive") := by
  have payload : (store.nextRecord sha256Hex (humanEvidence options criterionId propertyId followupId
      now)).payload = (humanEvidence options criterionId propertyId followupId now).payload.1 := rfl
  have kind : (store.nextRecord sha256Hex (humanEvidence options criterionId propertyId followupId
      now)).kind = .human := rfl
  have mark : (humanEvidence options criterionId propertyId followupId now).payload.1.property
      (js "waive") = lookup (js "waive") (fieldMembers [(js "waive",
        if options.optionId = some (js "waive") then some (.bool true) else none)]) := by
    show lookup (js "waive") (fieldMembers _) = _
    rw [lookup_fieldMembers_ne (by decide), lookup_fieldMembers_ne (by decide),
      lookup_fieldMembers_ne (by decide)]
  rw [isWaiver, payload, kind, mark]
  by_cases waived : options.optionId = some (js "waive")
  · rw [if_pos waived, lookup_fieldMembers_self]
    exact iff_of_true rfl waived
  · rw [if_neg waived, lookup_fieldMembers_none, fieldMembers_nil]
    exact iff_of_false (by simp [JsValue.isTrue]) waived

theorem answerFor_nextRecord (store : EvidenceStore) (criterionId : JsString)
    (property : DesiredProperty) (followupId : JsString) (now : Stamp) :
    AnswerFor options criterionId property (store.nextRecord sha256Hex
      (humanEvidence options criterionId property.id followupId now)) :=
  ⟨rfl, rfl, rfl, rfl, rfl, rfl, isWaiver_humanEvidence store _ _ _ now⟩

theorem answerCriterion_step (records : RunRecords) (followup : FollowUp) (criterionId : JsString)
    (property : DesiredProperty) :
    ∃ e now, AnswerFor options criterionId property e ∧
      (answerCriterion sha256Hex surroundings options records followup criterionId property).1.all =
        records.all ++ [e] ∧
      (answerCriterion sha256Hex surroundings options records followup criterionId property).2 =
        evaluateProperty property (answerCriterion sha256Hex surroundings options records followup
          criterionId property).1.all (options.evaluation now) :=
  ⟨_, _, answerFor_nextRecord records.evidence criterionId property followup.id _, rfl, rfl⟩

/-- What a resolution does. -/
theorem resolveFollowup_step (records : RunRecords) :
    ∃ states, ResolutionStep options records
        (resolveFollowup sha256Hex surroundings options records).1 states ∧
      ∀ result, (resolveFollowup sha256Hex surroundings options records).2 = .ok result →
        result.propertyStates = states := by
  rw [resolveFollowup]
  split
  · exact ⟨[], .noEvidence rfl, by simp⟩
  · next followup found =>
      split
      · refine ⟨[], .noEvidence rfl, fun result ended => ?_⟩
        cases ended
        rfl
      · next unresolved =>
          split
          · exact ⟨[], .noEvidence rfl, by simp⟩
          · have isOpen : followup.status = .opened := by
              cases status : followup.status with
              | opened => rfl
              | resolved => exact absurd status unresolved
            simp only
            split
            · refine ⟨[], .noEvidence rfl, fun result ended => ?_⟩
              cases ended
              rfl
            · next criterionId property target =>
                obtain ⟨e, now, made, all, state⟩ := @answerCriterion_step sha256Hex surroundings
                  options _ _ criterionId property
                refine ⟨_, .evidence followup criterionId property e now found isOpen target made
                  all, fun result ended => ?_⟩
                cases ended
                rw [state]

end Answers

end SpecAsCode.Runtime
