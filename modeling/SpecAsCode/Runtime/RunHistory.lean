import SpecAsCode.Lib.History
import SpecAsCode.Runtime.ChainedStates
import SpecAsCode.Runtime.ResolveFollowup

/-!
# The history of a run

Everything that writes the evidence and the follow-ups of a run, in any order: sweeps, the
final sweep with its inheritance, resolutions, the records of tasks, and resumes.
-/

namespace SpecAsCode.Runtime

open SpecAsCode.Js
open SpecAsCode.Schema
open SpecAsCode.Verifier

/-- A step of a run. -/
inductive RunOp where
  | sweep (surroundings : Surroundings) (input : SweepInput)
  /-- The sweep at the end of an apply run; `prior` are the properties that an earlier run of
  the chain satisfied. -/
  | finish (surroundings : Surroundings) (input : SweepInput) (prior : OrderedMap JsString JsString)
  | resolve (surroundings : Surroundings) (options : ResolveFollowupOptions)
  /-- A follow-up that the planner, an executor or the scheduler asks for. -/
  | draftFollowup (draft : FollowUpDraft) (runId now : JsString)
  /-- Evidence on a task: it names no criterion. -/
  | taskEvidence (draft : EvidenceDraft) (unnamed : draft.criterionId = none)
  /-- The stores are loaded again. -/
  | resume

/-- What a step reports about a property. -/
structure Report where
  property : DesiredProperty
  state : RequirementState
  /-- The state was upgraded because an earlier run had satisfied the property. -/
  inherited : Bool

variable (sha256Hex : JsString → JsString)

namespace RunOp

/-- The records after a step. -/
def act : RunOp → RunRecords → RunRecords
  | .sweep surroundings input, records => (verifyProperties sha256Hex surroundings input records).1
  | .finish surroundings input _, records =>
      (verifyProperties sha256Hex surroundings input records).1
  | .resolve surroundings options, records =>
      (resolveFollowup sha256Hex surroundings options records).1
  | .draftFollowup draft runId now, records => records.createFollowup draft runId now
  | .taskEvidence draft _, records => records.addEvidence sha256Hex draft
  | .resume, records => { records with followups := FollowupStore.load records.followups }

/-- What a step reports about the properties it evaluates. -/
def reports : RunOp → RunRecords → List Report
  | .sweep surroundings input, records =>
      match (verifyProperties sha256Hex surroundings input records).2 with
      | .error _ => []
      | .ok result => input.properties.zipWith (fun property state => ⟨property, state, false⟩)
          result.states
  | .finish surroundings input prior, records =>
      match (verifyProperties sha256Hex surroundings input records).2 with
      | .error _ => []
      | .ok result => input.properties.zipWith (fun property state =>
          ⟨property, chainState prior state, (chainState prior state).status != state.status⟩)
          result.states
  | .resolve surroundings options, records =>
      match (resolveFollowup sha256Hex surroundings options records).2 with
      | .error _ => []
      | .ok result => result.propertyStates.filterMap fun state =>
          (options.properties.find? fun property => property.id = state.propertyId).map fun property =>
            ⟨property, state, false⟩
  | _, _ => []

end RunOp

/-- The records after some steps of a run. -/
abbrev recordsAfter (ops : List RunOp) : RunRecords :=
  History.run (RunOp.act sha256Hex) ops RunRecords.fresh

/-! ## The specification of a run -/

/-- Property identifiers are unique in a specification, and criterion identifiers in a
property. -/
structure WellIdentified (spec : List DesiredProperty) : Prop where
  properties : (spec.map (·.id)).Nodup
  criteria : ∀ property ∈ spec, (property.acceptance.map (·.id)).Nodup

/-- A property of the specification, perhaps with some criteria left out. -/
def PartOf (spec : List DesiredProperty) (property : DesiredProperty) : Prop :=
  ∃ source ∈ spec, property.id = source.id ∧ property.acceptance ⊆ source.acceptance

/-- A step that is given properties of the specification. -/
def RunOp.Follows (spec : List DesiredProperty) : RunOp → Prop
  | .sweep _ input => ∀ property ∈ input.properties, PartOf spec property
  | .finish _ input _ => ∀ property ∈ input.properties, PartOf spec property
  | .resolve _ options => options.properties ⊆ spec
  | _ => True

theorem eq_of_map_nodup {α β : Type} {f : α → β} {list : List α} (distinct : (list.map f).Nodup)
    {first second : α} (firstMember : first ∈ list) (secondMember : second ∈ list)
    (same : f first = f second) : first = second :=
  List.inj_on_of_nodup_map distinct firstMember secondMember same

/-- Criteria of the specification with the same property and the same identifier are one. -/
theorem WellIdentified.criterion_eq {spec : List DesiredProperty} (wellIdentified : WellIdentified spec)
    {property part : DesiredProperty} {criterion other : AcceptanceCriterion}
    (listed : property ∈ spec) (member : criterion ∈ property.acceptance)
    (fromSpec : PartOf spec part) (otherMember : other ∈ part.acceptance)
    (sameProperty : part.id = property.id) (sameId : other.id = criterion.id) :
    other = criterion := by
  obtain ⟨source, found, id, kept⟩ := fromSpec
  have sameSource : source = property :=
    eq_of_map_nodup wellIdentified.properties found listed (id.symm.trans sameProperty)
  subst sameSource
  exact eq_of_map_nodup (wellIdentified.criteria _ found) (kept otherMember) member sameId

/-! ## The evidence of a run -/

/-- Where a record of a run comes from. -/
inductive Origin (spec : List DesiredProperty) (records : RunRecords) (op : RunOp) (e : Evidence) :
    Prop where
  | check (input : SweepInput) (part normal : DesiredProperty) (criterion : AcceptanceCriterion)
      (swept : (∃ surroundings, op = .sweep surroundings input) ∨
        ∃ surroundings prior, op = .finish surroundings input prior)
      (fromSpec : PartOf spec part) (normalized : NormalizedProperty part normal)
      (listed : criterion ∈ normal.acceptance) (made : RecordedFor input normal criterion e)
  | answer (surroundings : Surroundings) (options : ResolveFollowupOptions) (followup : FollowUp)
      (criterionId : JsString) (property : DesiredProperty)
      (resolved : op = .resolve surroundings options) (known : options.properties ⊆ spec)
      (found : records.followups.withId options.followupId = some followup)
      (isOpen : followup.status = .opened)
      (target : followupTarget options followup = some (criterionId, property))
      (made : AnswerFor options criterionId property e)
  | task (unnamed : e.criterionId = none)

variable {sha256Hex}

theorem sweep_origin {spec : List DesiredProperty} {op : RunOp} {surroundings : Surroundings}
    {input : SweepInput}
    (swept : (∃ surroundings, op = .sweep surroundings input) ∨
      ∃ surroundings prior, op = .finish surroundings input prior)
    (fromSpec : ∀ property ∈ input.properties, PartOf spec property) (records : RunRecords) :
    ∃ added, (verifyProperties sha256Hex surroundings input records).1.all = records.all ++ added ∧
      ∀ e ∈ added, Origin spec records op e := by
  obtain ⟨normals, added, created, adds, sources, -⟩ :=
    @verifyProperties_adds sha256Hex surroundings input records
  refine ⟨added, adds.all, fun e member => ?_⟩
  obtain ⟨pair, found, made, -⟩ := adds.recorded e member
  rw [mem_criteriaOf] at found
  obtain ⟨part, listed, normalized⟩ := sources pair.1 found.1
  exact .check input part pair.1 pair.2 swept (fromSpec part listed) normalized found.2 made

/-- What a step adds to the evidence of its run. -/
theorem act_origin {spec : List DesiredProperty} {op : RunOp} (follows : op.Follows spec)
    (records : RunRecords) :
    ∃ added, (op.act sha256Hex records).all = records.all ++ added ∧ ∀ e ∈ added, Origin spec records op e := by
  cases op with
  | sweep surroundings input => exact sweep_origin (Or.inl ⟨surroundings, rfl⟩) follows records
  | finish surroundings input prior =>
      exact sweep_origin (Or.inr ⟨surroundings, prior, rfl⟩) follows records
  | resolve surroundings options =>
      obtain ⟨states, step, -⟩ := @resolveFollowup_step sha256Hex surroundings options records
      rw [RunOp.act]
      cases step with
      | noEvidence same => exact ⟨[], by simp [RunRecords.all, same], by simp⟩
      | evidence followup criterionId property e now found isOpen target made all =>
          refine ⟨[e], all, fun other member => ?_⟩
          rw [List.mem_singleton.mp member]
          exact .answer surroundings options followup criterionId property rfl follows found isOpen
            target made
  | draftFollowup draft runId now => exact ⟨[], by simp [RunOp.act], by simp⟩
  | taskEvidence draft unnamed =>
      refine ⟨_, rfl, fun e member => ?_⟩
      rw [List.mem_singleton.mp member]
      exact .task unnamed
  | resume => exact ⟨[], by simp [RunOp.act, RunRecords.all], by simp⟩

end SpecAsCode.Runtime
