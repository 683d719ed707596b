import SpecAsCode.Lib.CrashPoints
import SpecAsCode.Runtime.HumanVerdicts
import SpecAsCode.Schema.State

/-!
# Interrupted resolutions

A resolution writes to the follow-ups, the event log, the evidence log and the state of the
run, one after another.  When it is interrupted and made again, it finds the follow-up
resolved and returns.
-/

namespace SpecAsCode.Runtime

open SpecAsCode.Js
open SpecAsCode.Schema
open SpecAsCode.Verifier
open SpecAsCode.CrashPoints

/-- The records of a run and its state, which need not be there. -/
structure RunDisk where
  records : RunRecords
  state : Option RunState

/-- A write to one file of a run. -/
inductive RunWrite where
  | followups (store : FollowupStore)
  | event (event : RunEvent)
  | evidence (draft : EvidenceDraft)
  | state (state : RunState)

variable (sha256Hex : JsString → JsString) (surroundings : Surroundings)
  (options : ResolveFollowupOptions)

/-- One write. -/
def RunWrite.apply (write : RunWrite) (disk : RunDisk) : RunDisk :=
  match write with
  | .followups store => { disk with records := { disk.records with followups := store } }
  | .event emitted => { disk with records := disk.records.emit emitted }
  | .evidence draft => { disk with records := disk.records.addEvidence sha256Hex draft }
  | .state written => { disk with state := some written }

/-- What `load` makes of the follow-ups of a run. -/
def RunDisk.load (disk : RunDisk) : RunRecords :=
  { disk.records with followups := FollowupStore.load disk.records.followups }

/-- The state of a run with one requirement replaced. -/
def withRequirement (state : RunState) (requirement : RequirementState) : RunState :=
  { state with requirements := state.requirements.set requirement.propertyId requirement }

/-- The writes of an answer for a criterion, after the follow-up and its event were
written. -/
def answerWrites (disk : RunDisk) (records : RunRecords) (followup : FollowUp)
    (criterionId : JsString) (property : DesiredProperty) : List RunWrite :=
  let draft := humanEvidence options criterionId property.id followup.id
    (surroundings.evidenceTime records.all.length)
  let answered := answerCriterion sha256Hex surroundings options records followup criterionId property
  [.evidence draft,
    .event (.evidenceRecorded (records.evidence.nextRecord sha256Hex draft).id [property.id]
      (some criterionId) .human (humanOutcome options.optionId) none false),
    .event (.propertyVerified answered.2.propertyId answered.2.status answered.2.evidenceIds
      answered.2.reason false none false)] ++
    (disk.state.map fun state => RunWrite.state (withRequirement state answered.2)).toList

/-- The writes of `resolveFollowup`, in their order. -/
def resolutionWrites (disk : RunDisk) : List RunWrite :=
  match disk.load.followups.withId options.followupId with
  | none => []
  | some followup =>
      if followup.status = .resolved then
        []
      else if (invalidOption options followup).isSome then
        []
      else
        let resolution : Resolution :=
          ⟨truthy options.optionId, truthy options.note, truthy options.resolvedBy⟩
        let now := surroundings.followupTime disk.load.followups.length
        let resolved := FollowupStore.answered followup resolution now
        let store := FollowupStore.answerFirst options.followupId resolution now disk.load.followups
        let event := RunEvent.followupResolved resolved.id options.optionId options.note
        [.followups store, .event event] ++
          match followupTarget options followup with
          | none => []
          | some (criterionId, property) =>
              answerWrites sha256Hex surroundings options disk
                ({ disk.load with followups := store }.emit event) resolved criterionId property

/-- What two disks have in common when a follow-up was resolved alike: its status, the
evidence, the events and the status of every property. -/
structure SameOutcome (followupId : JsString) (first second : RunDisk) : Prop where
  followup : (first.records.followups.withId followupId).map FollowUp.status =
    (second.records.followups.withId followupId).map FollowUp.status
  evidence : first.records.all = second.records.all
  events : first.records.events = second.records.events
  property : ∀ propertyId,
    (first.state.map fun state => (state.requirements.get? propertyId).map RequirementState.status) =
      second.state.map fun state => (state.requirements.get? propertyId).map RequirementState.status

/-- The last write replaces a requirement in `state.json` that has the same status already. -/
def StatusKnown (disk : RunDisk) : Prop :=
  ∃ state requirement, disk.state = some state ∧
    (resolutionWrites sha256Hex surroundings options disk).getLast? =
      some (.state (withRequirement state requirement)) ∧
    (state.requirements.get? requirement.propertyId).map RequirementState.status =
      some requirement.status

/-- The disk after an interrupted resolution and another one that was not interrupted. -/
def retriedResolution (count : Nat) (disk : RunDisk) : RunDisk :=
  retried (RunWrite.apply sha256Hex) (resolutionWrites sha256Hex surroundings options) count disk

/-- The disk after a resolution that was not interrupted. -/
def completedResolution (disk : RunDisk) : RunDisk :=
  completed (RunWrite.apply sha256Hex) (resolutionWrites sha256Hex surroundings options) disk

variable {sha256Hex surroundings options}

/-- The writes are those of `resolveFollowup`. -/
theorem completedResolution_records (disk : RunDisk)
    (work : resolutionWrites sha256Hex surroundings options disk ≠ []) :
    (completedResolution sha256Hex surroundings options disk).records =
      (resolveFollowup sha256Hex surroundings options disk.load).1 := by
  rw [completedResolution, completed]
  rw [resolutionWrites] at work ⊢
  rw [resolveFollowup]
  cases found : disk.load.followups.withId options.followupId with
  | none =>
      rw [found] at work
      exact absurd rfl work
  | some followup =>
      simp only [found] at work ⊢
      by_cases resolved : followup.status = .resolved
      · rw [if_pos resolved] at work
        exact absurd rfl work
      · rw [if_neg resolved] at work ⊢
        rw [if_neg resolved]
        cases invalid : invalidOption options followup with
        | some offered =>
            rw [invalid] at work
            exact absurd rfl work
        | none =>
            simp only [Option.isSome_none, Bool.false_eq_true, if_false]
            cases followupTarget options followup with
            | none => rfl
            | some target =>
                obtain ⟨criterionId, property⟩ := target
                simp only [answerWrites]
                cases disk.state <;> rfl

/-- A resolution that writes begins with the follow-ups, in which the follow-up is resolved;
no later write touches them. -/
theorem resolutionWrites_shape (disk : RunDisk) :
    resolutionWrites sha256Hex surroundings options disk = [] ∨
      ∃ followup resolution now event rest,
        disk.load.followups.withId options.followupId = some followup ∧
        resolutionWrites sha256Hex surroundings options disk =
          .followups (FollowupStore.answerFirst options.followupId resolution now
            disk.load.followups) :: .event event :: rest ∧
        (rest = [] ∨ ∃ draft second third requirement, rest =
          [.evidence draft, .event second, .event third] ++
            (disk.state.map fun state => RunWrite.state (withRequirement state requirement)).toList) := by
  rw [resolutionWrites]
  split
  next => exact Or.inl rfl
  next followup found =>
    split
    next => exact Or.inl rfl
    next =>
      split
      next => exact Or.inl rfl
      next =>
        right
        refine ⟨followup, _, _, _, _, found, rfl, ?_⟩
        split
        next => exact Or.inl rfl
        next => exact Or.inr ⟨_, _, _, _, rfl⟩

/-- Writes that are not to the follow-ups leave them alone. -/
theorem followups_perform {writes : List RunWrite} (disk : RunDisk)
    (others : ∀ store, RunWrite.followups store ∉ writes) :
    (perform (RunWrite.apply sha256Hex) writes disk).records.followups = disk.records.followups := by
  induction writes generalizing disk with
  | nil => rfl
  | cons write writes inductionHypothesis =>
      rw [perform_cons, inductionHypothesis _ fun store member =>
        others store (List.mem_cons_of_mem _ member)]
      cases write with
      | followups store => exact absurd List.mem_cons_self (others store)
      | event made => rfl
      | evidence draft => rfl
      | state written => rfl

/-- A retry finds the follow-up resolved once the follow-ups were written. -/
theorem resolutionWrites_resolved {disk : RunDisk} {followup : FollowUp}
    (found : disk.load.followups.withId options.followupId = some followup)
    (resolved : followup.status = .resolved) :
    resolutionWrites sha256Hex surroundings options disk = [] := by
  rw [resolutionWrites, found]
  exact if_pos resolved

/-- A crash after the first write leaves nothing for the retry to do. -/
theorem retriedResolution_eq_crashed {count : Nat} (disk : RunDisk) (begun : count ≠ 0) :
    retriedResolution sha256Hex surroundings options count disk =
      crashed (RunWrite.apply sha256Hex) (resolutionWrites sha256Hex surroundings options) count
        disk := by
  apply retried_of_plan_nil
  rcases @resolutionWrites_shape sha256Hex surroundings options disk with
    nothing | ⟨followup, resolution, now, event, rest, found, writes, rests⟩
  · rw [crashed, nothing, List.take_nil, perform_nil, nothing]
  obtain ⟨more, rfl⟩ := Nat.exists_eq_succ_of_ne_zero begun
  have others : ∀ store, RunWrite.followups store ∉ .event event :: rest := by
    intro store
    rcases rests with rfl | ⟨draft, second, third, requirement, rfl⟩
    · simp
    · cases disk.state <;> simp
  have kept : (crashed (RunWrite.apply sha256Hex)
      (resolutionWrites sha256Hex surroundings options) (more + 1) disk).records.followups =
        FollowupStore.answerFirst options.followupId resolution now disk.load.followups := by
    rw [crashed, writes, List.take_succ_cons, perform_cons, followups_perform _
      fun store member => others store (List.mem_of_mem_take member)]
    rfl
  have loaded : (crashed (RunWrite.apply sha256Hex)
      (resolutionWrites sha256Hex surroundings options) (more + 1) disk).load.followups =
        FollowupStore.answerFirst options.followupId resolution now disk.load.followups := by
    rw [RunDisk.load, kept]
    exact FollowupStore.load_answerFirst _ _ _ disk.records.followups
  refine @resolutionWrites_resolved _ _ _ _ (FollowupStore.answered followup resolution now) ?_ rfl
  rw [loaded]
  exact FollowupStore.withId_answerFirst found resolution now

/-- The event of a write to the event log. -/
def RunWrite.emitted : RunWrite → Option RunEvent
  | .event made => some made
  | _ => none

theorem events_perform (writes : List RunWrite) (disk : RunDisk) :
    (perform (RunWrite.apply sha256Hex) writes disk).records.events =
      disk.records.events ++ writes.filterMap RunWrite.emitted := by
  induction writes generalizing disk with
  | nil => exact (List.append_nil _).symm
  | cons write writes inductionHypothesis =>
      rw [perform_cons, inductionHypothesis]
      cases write with
      | event made => exact List.append_assoc disk.records.events [made] _
      | followups store => rfl
      | evidence draft => rfl
      | state written => rfl

/-- A crash before an event loses it. -/
theorem events_crashed_ne {count : Nat} {disk : RunDisk} {event : RunEvent}
    (missing : .event event ∈ (resolutionWrites sha256Hex surroundings options disk).drop count) :
    (crashed (RunWrite.apply sha256Hex) (resolutionWrites sha256Hex surroundings options) count
        disk).records.events ≠
      (completedResolution sha256Hex surroundings options disk).records.events := by
  intro same
  rw [completedResolution, completed_eq_perform_drop count, events_perform] at same
  have nothing := List.append_right_eq_self.mp same.symm
  have found : event ∈ ((resolutionWrites sha256Hex surroundings options disk).drop
      count).filterMap RunWrite.emitted := List.mem_filterMap.mpr ⟨_, missing, rfl⟩
  rw [nothing] at found
  cases found

/-- Writes that are not to `state.json` leave it alone. -/
theorem state_perform {writes : List RunWrite} (disk : RunDisk)
    (others : ∀ written, RunWrite.state written ∉ writes) :
    (perform (RunWrite.apply sha256Hex) writes disk).state = disk.state := by
  induction writes generalizing disk with
  | nil => rfl
  | cons write writes inductionHypothesis =>
      rw [perform_cons, inductionHypothesis _ fun written member =>
        others written (List.mem_cons_of_mem _ member)]
      cases write with
      | followups store => rfl
      | event made => rfl
      | evidence draft => rfl
      | state written => exact absurd List.mem_cons_self (others written)

/-- A crash before the last write, when that replaces a requirement of `state.json`. -/
theorem sameOutcome_crashed_state {count : Nat} {disk : RunDisk} {before : List RunWrite}
    {state : RunState} {requirement : RequirementState} (known : disk.state = some state)
    (writes : resolutionWrites sha256Hex surroundings options disk =
      before ++ [.state (withRequirement state requirement)]) (last : count = before.length)
    (others : ∀ written, RunWrite.state written ∉ before) :
    SameOutcome options.followupId
        (crashed (RunWrite.apply sha256Hex) (resolutionWrites sha256Hex surroundings options) count
          disk) (completedResolution sha256Hex surroundings options disk) ↔
      (state.requirements.get? requirement.propertyId).map RequirementState.status =
        some requirement.status := by
  have cut : crashed (RunWrite.apply sha256Hex) (resolutionWrites sha256Hex surroundings options)
      count disk = perform (RunWrite.apply sha256Hex) before disk := by
    rw [crashed, writes, last, List.take_left]
  have whole : completedResolution sha256Hex surroundings options disk =
      (RunWrite.state (withRequirement state requirement)).apply sha256Hex
        (perform (RunWrite.apply sha256Hex) before disk) := by
    rw [completedResolution, completed, writes, perform_append]
    rfl
  have middle := (@state_perform sha256Hex before disk others).trans known
  rw [cut, whole]
  generalize perform (RunWrite.apply sha256Hex) before disk = disk at middle
  have replaced : ((RunWrite.state (withRequirement state requirement)).apply sha256Hex disk).state =
      some (withRequirement state requirement) := rfl
  constructor
  · intro same
    have status := same.property requirement.propertyId
    rw [middle, replaced, Option.map_some, Option.map_some, withRequirement,
      OrderedMap.get?_set_self] at status
    exact Option.some.inj status
  · intro status
    refine ⟨rfl, rfl, rfl, fun propertyId => ?_⟩
    rw [middle, replaced, Option.map_some, Option.map_some, withRequirement]
    by_cases same : propertyId = requirement.propertyId
    · rw [same, OrderedMap.get?_set_self, status]
      rfl
    · rw [OrderedMap.get?_set_ne _ same]

/-- A resolution that was interrupted after `count` writes and made again comes to the same
outcome as one that was not interrupted if and only if it was interrupted before the first
write, after the last one, or before a last one that replaces a requirement of `state.json`
whose status is the same. -/
theorem resolution_retry_iff (sha256Hex : JsString → JsString) (surroundings : Surroundings)
    (options : ResolveFollowupOptions) (disk : RunDisk) (count : Nat) :
    SameOutcome options.followupId (retriedResolution sha256Hex surroundings options count disk)
        (completedResolution sha256Hex surroundings options disk) ↔
      count = 0 ∨ (resolutionWrites sha256Hex surroundings options disk).length ≤ count ∨
        (count + 1 = (resolutionWrites sha256Hex surroundings options disk).length ∧
          StatusKnown sha256Hex surroundings options disk) := by
  by_cases begun : count = 0
  · subst begun
    exact iff_of_true ⟨rfl, rfl, rfl, fun _ => rfl⟩ (Or.inl rfl)
  rw [retriedResolution_eq_crashed disk begun]
  by_cases all : (resolutionWrites sha256Hex surroundings options disk).length ≤ count
  · rw [crashed_all all]
    exact iff_of_true ⟨rfl, rfl, rfl, fun _ => rfl⟩ (Or.inr (Or.inl all))
  simp only [begun, all, false_or]
  rcases @resolutionWrites_shape sha256Hex surroundings options disk with
    nothing | ⟨followup, resolution, now, event, rest, -, writes, rests⟩
  · rw [nothing] at all
    exact absurd (Nat.zero_le count) all
  rcases rests with rfl | ⟨draft, second, third, requirement, rfl⟩
  · -- the follow-up stands for no criterion, and the event of the answer is missing
    have one : count = 1 := by
      rw [writes] at all
      simp only [List.length_cons, List.length_nil] at all
      omega
    have missing : .event event ∈
        (resolutionWrites sha256Hex surroundings options disk).drop count := by
      rw [writes, one]
      exact List.mem_singleton_self _
    refine iff_of_false (fun same => events_crashed_ne missing same.events) ?_
    rintro ⟨-, state, requirement, -, last, -⟩
    rw [writes] at last
    cases last
  generalize FollowupStore.answerFirst options.followupId resolution now disk.load.followups = store
    at writes
  by_cases early : count < 5
  · -- the verdict on the property is missing
    have missing : .event third ∈
        (resolutionWrites sha256Hex surroundings options disk).drop count := by
      have split : resolutionWrites sha256Hex surroundings options disk =
          [.followups store, .event event, .evidence draft, .event second] ++ .event third ::
            (disk.state.map fun state => RunWrite.state (withRequirement state requirement)).toList :=
        writes
      rw [split, List.drop_append_of_le_length (by simp only [List.length_cons, List.length_nil]; omega)]
      exact List.mem_append_right _ List.mem_cons_self
    refine iff_of_false (fun same => events_crashed_ne missing same.events) ?_
    rintro ⟨size, state, other, known, last, -⟩
    rw [writes, known] at size
    simp only [List.length_cons, List.length_append, List.length_nil, Option.map_some,
      Option.toList_some] at size
    omega
  · cases known : disk.state with
    | none =>
        rw [writes, known] at all
        simp only [List.length_cons, List.length_append, List.length_nil, Option.map_none,
          Option.toList_none] at all
        omega
    | some state =>
        rw [known] at writes
        have five : count = 5 := by
          rw [writes] at all
          simp only [List.length_cons, List.length_append, List.length_nil, Option.map_some,
            Option.toList_some] at all
          omega
        rw [@sameOutcome_crashed_state _ _ _ count disk [.followups store, .event event,
          .evidence draft, .event second, .event third] _ _ known writes five (by simp)]
        constructor
        · intro status
          exact ⟨by rw [writes, five]; rfl, state, requirement, known, by rw [writes]; rfl, status⟩
        · rintro ⟨-, other, replaced, sameState, last, status⟩
          rw [known] at sameState
          cases sameState
          rw [writes] at last
          have same : withRequirement state requirement = withRequirement state replaced :=
            RunWrite.state.inj (Option.some.inj last)
          have found := congrArg (fun written : RunState =>
            written.requirements.get? requirement.propertyId) same
          simp only [withRequirement, OrderedMap.get?_set_self] at found
          by_cases one : requirement.propertyId = replaced.propertyId
          · rw [one, OrderedMap.get?_set_self] at found
            cases Option.some.inj found
            exact status
          · rw [OrderedMap.get?_set_ne _ one] at found
            rw [← found]
            rfl

/-- A run in which a person is asked for one criterion. -/
def askedDisk : RunDisk :=
  ⟨recordsAfter lengthHash (sweptAgain.take 1), none⟩

/-- The answer of the person. -/
def confirmedAnswer : ResolveFollowupOptions :=
  answerFirstFollowup [manualProperty] (js "confirm")

/-- The call is interrupted after it wrote the follow-ups.  The next one returns early: the
answer is never recorded as evidence, and no event tells of it. -/
theorem interrupted_resolution_lost :
    ¬ SameOutcome confirmedAnswer.followupId
        (retriedResolution lengthHash (stillSurroundings 0) confirmedAnswer 1 askedDisk)
        (completedResolution lengthHash (stillSurroundings 0) confirmedAnswer askedDisk) ∧
      (retriedResolution lengthHash (stillSurroundings 0) confirmedAnswer 1 askedDisk).records.events =
        askedDisk.records.events := by
  have writing : (resolutionWrites lengthHash (stillSurroundings 0) confirmedAnswer askedDisk).length =
      5 := by
    decide +kernel
  have crash := @retriedResolution_eq_crashed lengthHash (stillSurroundings 0) confirmedAnswer 1
    askedDisk Nat.one_ne_zero
  rcases @resolutionWrites_shape lengthHash (stillSurroundings 0) confirmedAnswer askedDisk with
    nothing | ⟨followup, resolution, now, event, rest, -, writes, -⟩
  · rw [nothing] at writing
    cases writing
  have missing : .event event ∈
      (resolutionWrites lengthHash (stillSurroundings 0) confirmedAnswer askedDisk).drop 1 := by
    rw [writes]
    exact List.mem_cons_self
  rw [crash]
  refine ⟨fun same => events_crashed_ne missing same.events, ?_⟩
  rw [crashed, writes, events_perform]
  exact List.append_nil _

end SpecAsCode.Runtime
