import SpecAsCode.Lib.History
import SpecAsCode.Runtime.Attestation
import SpecAsCode.Runtime.HumanVerdicts
import SpecAsCode.Runtime.ResolveFollowup

/-!
# Extending an attested run

Resolutions append to the logs of a run that has been attested.  The events that the
attestation covers are told apart from the later ones; the evidence is not.
-/

namespace SpecAsCode.Runtime

open SpecAsCode.Js
open SpecAsCode.Core
open SpecAsCode.Schema
open SpecAsCode.Text
open SpecAsCode.Verifier

/-! ## Resolutions on a run directory -/

/-- A call of `resolveFollowup`, with the identifiers and times that its events take from
their surroundings, by the number of events before them. -/
structure Resolution.Call where
  surroundings : Surroundings
  stamps : Nat → Stamp × Stamp
  options : ResolveFollowupOptions

/-- What the events of a step are appended with, from a number of events on. -/
def eventInputs (stamps : Nat → Stamp × Stamp) : Nat → List RunEvent → List EventStore.Input
  | _, [] => []
  | count, event :: rest =>
      event.input (stamps count).1 (stamps count).2 :: eventInputs stamps (count + 1) rest

section Resolve

variable (sha256Hex : JsString → JsString) (runId : JsString)

/-- The records that `resolveFollowup` works on. -/
def RunFiles.records (files : RunFiles) (evidence : EvidenceStore) : RunRecords :=
  ⟨evidence, FollowupStore.load files.followups, []⟩

/-- `resolveFollowup` on a run directory: it loads the stores, and its records are appended
to the files.  A directory that cannot be loaded is left as it is. -/
def RunFiles.resolve (call : Resolution.Call) (files : RunFiles) : RunFiles :=
  match files.load sha256Hex runId with
  | .error _ => files
  | .ok (events, evidence) =>
      let resolved := (resolveFollowup sha256Hex call.surroundings call.options
        (files.records evidence)).1
      match events.appendAll sha256Hex files.events
          (eventInputs call.stamps events.log.records.length resolved.events) with
      | .error _ => files
      | .ok (_, written, _) =>
          { files with
            events := written
            evidence := (resolved.all.drop evidence.records.length).foldl
              (fun file e => appendLine file (EvidenceStore.line e)) files.evidence
            followups := resolved.followups }

end Resolve

/-- The criterion that a resolution records an answer for, if it records one. -/
def answeredCriterion (options : ResolveFollowupOptions) (followups : FollowupStore) :
    Option (JsString × DesiredProperty) :=
  (followups.withId options.followupId).bind fun followup =>
    if followup.status = .resolved then
      none
    else
      match invalidOption options followup with
      | some _ => none
      | none => followupTarget options followup

/-! ## What a resolution writes -/

section Writes

variable {sha256Hex : JsString → JsString} {surroundings : Surroundings}
  {options : ResolveFollowupOptions}

/-- A resolution records evidence when it answers a criterion, and then one record. -/
theorem resolveFollowup_evidence (records : RunRecords) :
    (answeredCriterion options records.followups = none ∧
      (resolveFollowup sha256Hex surroundings options records).1.evidence = records.evidence) ∨
    (answeredCriterion options records.followups ≠ none ∧
      ∃ draft, (resolveFollowup sha256Hex surroundings options records).1.evidence =
        records.evidence.extend sha256Hex draft) := by
  rw [answeredCriterion, resolveFollowup]
  cases found : records.followups.withId options.followupId with
  | none => exact Or.inl ⟨rfl, rfl⟩
  | some followup =>
      rw [Option.bind_some]
      by_cases resolved : followup.status = .resolved
      · rw [if_pos resolved]
        simp only [if_pos resolved]
        exact Or.inl ⟨trivial, trivial⟩
      · rw [if_neg resolved]
        simp only [if_neg resolved]
        cases invalidOption options followup with
        | some refused => exact Or.inl ⟨rfl, rfl⟩
        | none =>
            cases followupTarget options followup with
            | none => exact Or.inl ⟨rfl, rfl⟩
            | some target => exact Or.inr ⟨by simp, _, rfl⟩

/-- A resolution appends at most three events. -/
theorem resolveFollowup_events (records : RunRecords) :
    ∃ emitted, (resolveFollowup sha256Hex surroundings options records).1.events =
      records.events ++ emitted ∧ emitted.length ≤ 3 := by
  rw [resolveFollowup]
  cases records.followups.withId options.followupId with
  | none => exact ⟨[], by simp, by simp⟩
  | some followup =>
      by_cases resolved : followup.status = .resolved
      · simp only [if_pos resolved]
        exact ⟨[], by simp, by simp⟩
      · simp only [if_neg resolved]
        cases invalidOption options followup with
        | some refused => exact ⟨[], by simp, by simp⟩
        | none =>
            cases followupTarget options followup with
            | none => exact ⟨[_], rfl, by simp⟩
            | some target =>
                have joined : ∀ (events : List RunEvent) first second third,
                    ((events ++ [first]) ++ [second]) ++ [third] = events ++ [first, second, third] := by
                  simp
                exact ⟨_, joined _ _ _ _, by simp⟩

theorem length_eventInputs (stamps : Nat → Stamp × Stamp) (count : Nat) (events : List RunEvent) :
    (eventInputs stamps count events).length = events.length := by
  induction events generalizing count with
  | nil => rfl
  | cons event events inductionHypothesis =>
      rw [eventInputs, List.length_cons, List.length_cons, inductionHypothesis]

end Writes

/-! ## Run directories written by the stores -/

variable {sha256Hex : JsString → JsString} {runId : JsString}

/-- A run directory whose logs the stores wrote, and what they load as. -/
structure Written (sha256Hex : JsString → JsString) (files : RunFiles) (events : List Event)
    (evidence : List Evidence) : Prop where
  events : ∃ store texts, EventStore.Follows sha256Hex store texts ∧ Complete files.events texts ∧
    store.log.records.map Event.stored = events
  evidence : ∃ store texts, EvidenceStore.Follows sha256Hex store texts ∧
    Complete files.evidence texts ∧ store.records = evidence

/-- The events of such a directory are what a load returns. -/
theorem Written.stored {files : RunFiles} {events : List Event} {evidence : List Evidence}
    (written : Written sha256Hex files events evidence) : events.map Event.stored = events := by
  obtain ⟨store, texts, -, -, rfl⟩ := written.events
  rw [List.map_map]
  exact List.map_congr_left fun event _ => event.stored_stored

/-- Such a directory loads, and the loaded stores continue its logs. -/
theorem Written.load {files : RunFiles} {events : List Event} {evidence : List Evidence}
    (written : Written sha256Hex files events evidence) (runId : JsString) :
    ∃ eventStore evidenceStore eventTexts evidenceTexts,
      files.load sha256Hex runId = .ok (eventStore, evidenceStore) ∧
      eventStore.log.records = events ∧ evidenceStore.records = evidence ∧
      EventStore.Follows sha256Hex eventStore eventTexts ∧ Complete files.events eventTexts ∧
      EvidenceStore.Follows sha256Hex evidenceStore evidenceTexts ∧
      Complete files.evidence evidenceTexts := by
  obtain ⟨eventWriter, eventTexts, eventFollows, eventComplete, rfl⟩ := written.events
  obtain ⟨evidenceWriter, evidenceTexts, evidenceFollows, evidenceComplete, rfl⟩ := written.evidence
  obtain ⟨eventStore, loaded, records, follows⟩ :=
    (eventJournal_laws sha256Hex runId).load eventFollows eventComplete
  obtain ⟨evidenceStore, evidenceLoaded, evidenceRecords, evidenceFollows⟩ :=
    (evidenceJournal_laws sha256Hex).load evidenceFollows evidenceComplete
  rw [eventJournal_load] at loaded
  rw [evidenceJournal_load] at evidenceLoaded
  rw [List.map_id] at evidenceRecords
  refine ⟨eventStore, evidenceStore, eventTexts, evidenceTexts, ?_, records, evidenceRecords,
    follows, eventComplete, evidenceFollows, evidenceComplete⟩
  rw [RunFiles.load, loaded]
  simp only [evidenceLoaded]

/-- What a resolution does to a run directory. -/
theorem Written.resolve {files : RunFiles} {events : List Event} {evidence : List Evidence}
    (written : Written sha256Hex files events evidence) (runId : JsString)
    (call : Resolution.Call) (small : events.length + 3 < 2 ^ 53) :
    ∃ more added, Written sha256Hex (files.resolve sha256Hex runId call) (events ++ more)
        (evidence ++ added) ∧ more.length ≤ 3 ∧
      (files.resolve sha256Hex runId call).attestation = files.attestation ∧
      (added = [] ↔
        answeredCriterion call.options (FollowupStore.load files.followups) = none) := by
  obtain ⟨eventStore, evidenceStore, eventTexts, evidenceTexts, loaded, rfl, rfl, follows, complete,
    evidenceFollows, evidenceComplete⟩ := written.load runId
  obtain ⟨emitted, shape, few⟩ := @resolveFollowup_events sha256Hex call.surroundings call.options
    (files.records evidenceStore)
  rw [RunFiles.records, List.nil_append] at shape
  obtain ⟨last, log, appended, ran, records, lastFollows, lastComplete, -⟩ :=
    (eventJournal_laws sha256Hex runId).appendAll
      (eventInputs call.stamps eventStore.log.records.length emitted) follows complete
      (by rw [length_eventInputs]; exact lt_of_le_of_lt (Nat.add_le_add_left few _) small)
  have count := appendAll_length ran
  rw [length_eventInputs] at count
  have wrote : files.resolve sha256Hex runId call =
      { files with
        events := log
        evidence := ((resolveFollowup sha256Hex call.surroundings call.options
            (files.records evidenceStore)).1.all.drop evidenceStore.records.length).foldl
          (fun file e => appendLine file (EvidenceStore.line e)) files.evidence
        followups := (resolveFollowup sha256Hex call.surroundings call.options
            (files.records evidenceStore)).1.followups } := by
    have sameRun : eventStore.appendAll sha256Hex files.events
        (eventInputs call.stamps eventStore.log.records.length emitted) = .ok (last, log, appended) :=
      ran
    rw [RunFiles.resolve, loaded]
    simp only [RunFiles.records, shape, sameRun]
  have events : ∃ store texts, EventStore.Follows sha256Hex store texts ∧ Complete log texts ∧
      store.log.records.map Event.stored = eventStore.log.records ++ appended.map Event.stored := by
    refine ⟨last, _, lastFollows, lastComplete, ?_⟩
    have grown : last.log.records = eventStore.log.records ++ appended := records
    rw [grown, List.map_append, written.stored]
  have inputs : (files.records evidenceStore).followups = FollowupStore.load files.followups := rfl
  rw [wrote]
  rcases @resolveFollowup_evidence sha256Hex call.surroundings call.options
    (files.records evidenceStore) with ⟨unanswered, same⟩ | ⟨answered, draft, extended⟩
  · refine ⟨appended.map Event.stored, [], ⟨events, evidenceStore, evidenceTexts, evidenceFollows,
      ?_, (List.append_nil _).symm⟩, ?_, rfl, iff_of_true rfl (inputs ▸ unanswered)⟩
    · have new : (resolveFollowup sha256Hex call.surroundings call.options
          (files.records evidenceStore)).1.all.drop evidenceStore.records.length = [] := by
        rw [RunRecords.all, same]
        exact List.drop_length
      simp only [new, List.foldl_nil]
      exact evidenceComplete
    · rw [List.length_map, count]
      exact few
  · obtain ⟨next, e, added, grown, nextFollows⟩ := evidenceFollows.add evidenceComplete
      (EvidenceStore.inputOf draft (evidenceStore.records.length + 1))
    rw [@EvidenceStore.add_eq_extend sha256Hex _ draft _ (evidenceFollows.adoptDiskTail evidenceComplete _)] at added
    cases added
    refine ⟨appended.map Event.stored, [evidenceStore.nextRecord sha256Hex draft], ⟨events,
      _, _, nextFollows, ?_, grown⟩, ?_, rfl, iff_of_false (by simp) (inputs ▸ answered)⟩
    · have new : (resolveFollowup sha256Hex call.surroundings call.options
          (files.records evidenceStore)).1.all.drop evidenceStore.records.length =
            [evidenceStore.nextRecord sha256Hex draft] := by
        rw [RunRecords.all, extended]
        exact List.drop_left
      simp only [new, List.foldl_cons, List.foldl_nil]
      exact evidenceComplete.append _
    · rw [List.length_map, count]
      exact few

/-! ## What a check comes to -/

/-- The heads of a list of evidence are those of another only if the lists are as long, when
the hash tells their texts apart. -/
def HashDistinguishes (sha256Hex : JsString → JsString) (first second : List Evidence) : Prop :=
  ∀ text other, canonicalJson (.array (first.map headEntry)) = .ok text →
    canonicalJson (.array (second.map headEntry)) = .ok other →
    sha256Hex text = sha256Hex other → text = other

theorem isJson_heads (evidence : List Evidence) :
    (JsValue.array (evidence.map headEntry)).isJson = true := by
  rw [JsValue.isJson, itemsAreJson_iff]
  intro item member
  obtain ⟨e, -, rfl⟩ := List.mem_map.mp member
  have keys : Enumerated [(js "id", JsValue.string e.id), (js "digest", .string e.digest)] :=
    @enumerated_of_keys _ [js "id", js "digest"] rfl (by decide)
  rw [headEntry, JsValue.isJson, Bool.and_eq_true, decide_eq_true_eq, membersAreJson_iff]
  refine ⟨keys, fun member found => ?_⟩
  simp only [List.mem_cons, List.not_mem_nil, or_false] at found
  rcases found with rfl | rfl
  · rfl
  · rfl

theorem exists_evidenceHead (sha256Hex : JsString → JsString) (evidence : List Evidence) :
    ∃ text, canonicalJson (.array (evidence.map headEntry)) = .ok text ∧
      evidenceHeadOf sha256Hex evidence = .ok (js "sha256:" ++ sha256Hex text) := by
  obtain ⟨copy, copied⟩ := transformInner_isJson [] (isJson_heads evidence)
  have text : canonicalJson (.array (evidence.map headEntry)) = .ok copy.stringify := by
    rw [canonicalJson, canonicalize, copied]
    rfl
  refine ⟨copy.stringify, text, ?_⟩
  rw [evidenceHeadOf, digestOf, text]
  rfl

theorem length_eq_of_evidenceHeadOf {first second : List Evidence}
    (distinguishes : HashDistinguishes sha256Hex first second)
    (same : evidenceHeadOf sha256Hex first = evidenceHeadOf sha256Hex second) :
    first.length = second.length := by
  obtain ⟨text, known, head⟩ := exists_evidenceHead sha256Hex first
  obtain ⟨other, otherKnown, otherHead⟩ := exists_evidenceHead sha256Hex second
  rw [head, otherHead, Except.ok.injEq, List.append_cancel_left_eq] at same
  have texts := distinguishes text other known otherKnown same
  have canonical : ∀ evidence : List Evidence, Canonicalizable
      ⟨.array (evidence.map headEntry), isWellFormed_of_isJson (isJson_heads evidence)⟩ :=
    fun evidence => transformInner_isJson [] (isJson_heads evidence)
  have equal := (canonicalJson_eq_iff (canonical first) (canonical second)).mp
    (by rw [known, otherKnown, texts])
  simp only [withoutProto, itemsWithoutProto_eq_map] at equal
  cases equal with
  | array length items => simpa using length

/-- A check that finds the attestation, and finds it right. -/
def Stands (result : Except ReplayError AttestationReport) : Prop :=
  ∃ report, result = .ok report ∧ (report.attestation = .verified ∨
    report.attestation = .extendedAfterAttestation)

/-- An attestation holds of events and evidence. -/
structure RunAttestation.HoldsOf (sha256Hex : JsString → JsString) (attestation : RunAttestation)
    (events : List Event) (evidence : List Evidence) : Prop where
  count : attestation.eventCount ≤ events.length
  events : eventHeadOf sha256Hex (events.take attestation.eventCount) =
    .ok attestation.eventChainHead
  evidence : evidenceHeadOf sha256Hex evidence = .ok attestation.evidenceHead

/-- A report that tells whether an attestation holds. -/
def Tells (report : AttestationReport) (holds : Prop) : Prop :=
  (holds ∧ (report.attestation = .verified ∨ report.attestation = .extendedAfterAttestation)) ∨
    (¬ holds ∧ report.attestation = .broken)

theorem exists_eventHead {events : List Event} (storable : ∀ event ∈ events, event.Storable) :
    ∃ head, eventHeadOf sha256Hex events = .ok head := by
  rw [eventHeadOf]
  cases last : events.getLast? with
  | none => exact ⟨noEventsHead, rfl⟩
  | some event => exact exists_digestOf sha256Hex (storable event (List.mem_of_getLast? last))

/-- A check finds an attestation that holds right, and any other one broken. -/
theorem checkAttestation_cases (words : AttestationWords) {events : List Event}
    (storable : ∀ event ∈ events, event.Storable) (evidence : List Evidence)
    (recorded : RunAttestation) :
    ∃ report, checkAttestation sha256Hex words events evidence recorded = .ok report ∧
      Tells report (recorded.HoldsOf sha256Hex events evidence) := by
  obtain ⟨text, -, evidenceHead⟩ := exists_evidenceHead sha256Hex evidence
  obtain ⟨head, eventHead⟩ := @exists_eventHead sha256Hex (events.take recorded.eventCount)
    fun event member => storable event (List.mem_of_mem_take member)
  rw [checkAttestation]
  simp only [List.length_take, evidenceHead, eventHead, Except.bind, Except.map]
  by_cases short : min recorded.eventCount events.length < recorded.eventCount
  · rw [if_pos short]
    refine ⟨_, rfl, Or.inr ⟨fun holds => ?_, rfl⟩⟩
    have count := holds.count
    omega
  · rw [if_neg short]
    refine ⟨_, rfl, ?_⟩
    by_cases same : head = recorded.eventChainHead ∧
        js "sha256:" ++ sha256Hex text = recorded.evidenceHead
    · rw [if_neg (by rw [not_or, not_not, not_not]; exact same)]
      refine Or.inl ⟨⟨by omega, by rw [eventHead, same.1], by rw [evidenceHead, same.2]⟩, ?_⟩
      split
      · split
        · exact Or.inl rfl
        · exact Or.inr rfl
      · exact Or.inl rfl
    · have fallen : ¬ recorded.HoldsOf sha256Hex events evidence := fun holds =>
        same ⟨Except.ok.inj (eventHead.symm.trans holds.events),
          Except.ok.inj (evidenceHead.symm.trans holds.evidence)⟩
      rw [if_pos (by rw [← not_and_or]; exact same)]
      exact Or.inr ⟨fallen, rfl⟩

/-- The check of an attested directory that the stores wrote. -/
theorem Written.check {files : RunFiles} {events : List Event} {evidence : List Evidence}
    (written : Written sha256Hex files events evidence) (runId : JsString)
    {attestation : RunAttestation} (known : files.attestation = some attestation)
    (words : AttestationWords) :
    ∃ report, files.checkAttestation sha256Hex words runId = .ok report ∧
      Tells report (attestation.HoldsOf sha256Hex events evidence) := by
  obtain ⟨eventStore, evidenceStore, eventTexts, -, loaded, rfl, rfl, follows, -⟩ :=
    written.load runId
  obtain ⟨report, checked, outcome⟩ := @checkAttestation_cases sha256Hex words _ follows.storable
    evidenceStore.records attestation
  refine ⟨report, ?_, outcome⟩
  rw [RunFiles.checkAttestation, loaded, known]
  show (Runtime.checkAttestation sha256Hex words eventStore.log.records evidenceStore.records
    attestation).mapError _ = _
  rw [checked]
  rfl

theorem Written.stands_iff {files : RunFiles} {events : List Event} {evidence : List Evidence}
    (written : Written sha256Hex files events evidence) (words : AttestationWords) :
    Stands (files.checkAttestation sha256Hex words runId) ↔
      ∃ attestation, files.attestation = some attestation ∧
        attestation.HoldsOf sha256Hex events evidence := by
  cases known : files.attestation with
  | none =>
      obtain ⟨eventStore, evidenceStore, -, -, loaded, -⟩ := written.load runId
      refine iff_of_false ?_ (by simp)
      rintro ⟨report, shown, standing⟩
      rw [RunFiles.checkAttestation, loaded, known] at shown
      cases shown
      simp at standing
  | some attestation =>
      obtain ⟨report, checked, outcome⟩ := written.check runId known words
      rcases outcome with ⟨holds, standing⟩ | ⟨fallen, broken⟩
      · exact iff_of_true ⟨report, checked, standing⟩ ⟨attestation, rfl, holds⟩
      · refine iff_of_false ?_ ?_
        · rintro ⟨other, shown, standing⟩
          rw [checked, Except.ok.injEq] at shown
          rw [← shown, broken] at standing
          simp at standing
        · rintro ⟨other, same, holds⟩
          cases same
          exact fallen holds

/-- Events that are appended are not covered by an attestation. -/
theorem RunAttestation.HoldsOf.append {attestation : RunAttestation} {events more : List Event}
    {evidence : List Evidence} (holds : attestation.HoldsOf sha256Hex events evidence) :
    attestation.HoldsOf sha256Hex (events ++ more) evidence := by
  refine ⟨?_, ?_, holds.evidence⟩
  · rw [List.length_append]
    exact Nat.le_add_right_of_le holds.count
  · rw [List.take_append_of_le_length holds.count]
    exact holds.events

/-! ## Sequences of resolutions -/

/-- A resolution that answers no criterion. -/
def RecordsNothing (files : RunFiles) (call : Resolution.Call) : Prop :=
  answeredCriterion call.options (FollowupStore.load files.followups) = none

/-- What a sequence of resolutions does to a run directory. -/
theorem Written.run {files : RunFiles} {events : List Event} {evidence : List Evidence}
    (written : Written sha256Hex files events evidence) (runId : JsString)
    (calls : List Resolution.Call) (small : events.length + 3 * calls.length < 2 ^ 53) :
    ∃ more added, Written sha256Hex
        (History.run (RunFiles.resolve sha256Hex runId) calls files) (events ++ more)
        (evidence ++ added) ∧
      (History.run (RunFiles.resolve sha256Hex runId) calls files).attestation =
        files.attestation ∧
      (added = [] ↔
        History.EveryStep (RunFiles.resolve sha256Hex runId) RecordsNothing calls files) := by
  induction calls generalizing files events evidence with
  | nil =>
      refine ⟨[], [], ?_, rfl, iff_of_true rfl trivial⟩
      rw [List.append_nil, List.append_nil]
      exact written
  | cons call calls inductionHypothesis =>
      rw [List.length_cons] at small
      obtain ⟨more, added, next, few, attestation, recorded⟩ :=
        written.resolve runId call (by omega)
      obtain ⟨later, further, last, kept, steps⟩ :=
        inductionHypothesis next (by rw [List.length_append]; omega)
      refine ⟨more ++ later, added ++ further, ?_, kept.trans attestation, ?_⟩
      · rw [← List.append_assoc, ← List.append_assoc]
        exact last
      · rw [List.append_eq_nil_iff]
        exact and_congr recorded steps

/-- When the attestation of a run survives resolutions: as long as they answer no criterion,
and only then, as far as the hash tells the lists of evidence apart. -/
theorem attestation_of_extended_run (sha256Hex : JsString → JsString) (runId : JsString)
    (files : RunFiles) (events : List Event) (evidence : List Evidence)
    (calls : List Resolution.Call) (written : Written sha256Hex files events evidence)
    (small : events.length + 3 * calls.length < 2 ^ 53)
    (stands : Stands (replayAttestation sha256Hex runId files)) :
    (History.EveryStep (RunFiles.resolve sha256Hex runId) RecordsNothing calls files →
      Stands (replayAttestation sha256Hex runId
          (History.run (RunFiles.resolve sha256Hex runId) calls files)) ∧
        Stands (bundleAttestation sha256Hex runId
          (History.run (RunFiles.resolve sha256Hex runId) calls files))) ∧
    ((∀ loaded, (History.run (RunFiles.resolve sha256Hex runId) calls files).load sha256Hex runId =
          .ok loaded → HashDistinguishes sha256Hex loaded.2.records evidence) →
      Stands (replayAttestation sha256Hex runId
          (History.run (RunFiles.resolve sha256Hex runId) calls files)) ∨
        Stands (bundleAttestation sha256Hex runId
          (History.run (RunFiles.resolve sha256Hex runId) calls files)) →
      History.EveryStep (RunFiles.resolve sha256Hex runId) RecordsNothing calls files) := by
  obtain ⟨more, added, extended, kept, steps⟩ := written.run runId calls small
  obtain ⟨attestation, known, holds⟩ := (written.stands_iff _).mp stands
  rw [replayAttestation, bundleAttestation, extended.stands_iff, extended.stands_iff, kept, known]
  constructor
  · intro silent
    have nothing := steps.mpr silent
    rw [nothing, List.append_nil]
    exact ⟨⟨attestation, rfl, holds.append⟩, ⟨attestation, rfl, holds.append⟩⟩
  · intro distinguishes standing
    obtain ⟨other, same, holdsOfAll⟩ := standing.elim id id
    cases same
    refine steps.mp (List.eq_nil_of_length_eq_zero ?_)
    obtain ⟨eventStore, evidenceStore, -, -, loaded, -, records, -⟩ := extended.load runId
    have apart := distinguishes _ loaded
    rw [records] at apart
    have length := length_eq_of_evidenceHeadOf apart
      (holdsOfAll.evidence.trans holds.evidence.symm)
    rw [List.length_append] at length
    omega

/-! ## Runs that end attested -/

/-- What a run writes until it ends. -/
structure FinishedRun where
  events : List EventStore.Input
  evidence : List EvidenceStore.Input
  followups : FollowupStore
  request : AttestationRequest
  stamp : Stamp × Stamp

/-- The directory of a run that ends with `attestRecords`. -/
def FinishedRun.files (sha256Hex : JsString → JsString) (runId : JsString) (run : FinishedRun) :
    Except CanonicalError RunFiles :=
  ((EventStore.fresh runId).appendAll sha256Hex none run.events).bind fun events =>
    (EvidenceStore.addAll sha256Hex HashChain.Log.empty none run.evidence).bind fun evidence =>
      (attestRecords sha256Hex run.request events.1 evidence.1.records).bind fun attestation =>
        (events.1.append sha256Hex (attestation.input run.stamp.1 run.stamp.2)).map fun attested =>
          { events := appendLine events.2.1 (EventStore.line attested.2)
            evidence := evidence.2.1
            followups := run.followups
            attestation := some attestation }

theorem eventHeadOf_stored {events : List Event} (storable : ∀ event ∈ events, event.Storable) :
    eventHeadOf sha256Hex (events.map Event.stored) = eventHeadOf sha256Hex events := by
  rw [eventHeadOf, eventHeadOf, List.getLast?_map]
  cases last : events.getLast? with
  | none => rfl
  | some event => exact digestOf_stored sha256Hex (storable event (List.mem_of_getLast? last))

/-- A run that ends attested is verified by replay. -/
theorem finishedRun_stands (sha256Hex : JsString → JsString) (runId : JsString) (run : FinishedRun)
    (small : run.events.length + run.evidence.length + 1 < 2 ^ 53) :
    ∃ files events evidence, run.files sha256Hex runId = .ok files ∧
      Written sha256Hex files events evidence ∧ events.length = run.events.length + 1 ∧
      files.followups = run.followups ∧
      Stands (replayAttestation sha256Hex runId files) := by
  obtain ⟨store, log, appended, ran, records, follows, complete, -⟩ :=
    (eventJournal_laws sha256Hex runId).appendAll run.events (EventStore.fresh_follows runId)
      (Or.inr ⟨rfl, rfl⟩) (by simp [eventJournal, EventStore.fresh, HashChain.Log.empty]; omega)
  have appendedAll : (EventStore.fresh runId).appendAll sha256Hex none run.events =
    .ok (store, log, appended) := ran
  have count : store.log.records.length = run.events.length := by
    rw [← appendAll_length ran]
    have grown : store.log.records = (EventStore.fresh runId).log.records ++ appended := records
    rw [grown]
    simp [EventStore.fresh, HashChain.Log.empty]
  obtain ⟨evidenceStore, evidenceLog, added, evidenceRan, -, evidenceFollows, evidenceComplete, -⟩ :=
    (evidenceJournal_laws sha256Hex).appendAll run.evidence EvidenceStore.fresh_follows
      (Or.inr ⟨rfl, rfl⟩) (by simp [evidenceJournal, HashChain.Log.empty]; omega)
  have addedAll : EvidenceStore.addAll sha256Hex HashChain.Log.empty none run.evidence =
    .ok (evidenceStore, evidenceLog, added) := evidenceRan
  obtain ⟨head, headKnown⟩ := @exists_eventHead sha256Hex _ follows.storable
  obtain ⟨text, -, evidenceHead⟩ := exists_evidenceHead sha256Hex evidenceStore.records
  generalize attested : RunAttestation.mk run.request.runId run.request.specId run.request.status
    store.log.records.length head (js "sha256:" ++ sha256Hex text) none run.request.attestedAt =
      attestation
  have attestedRecords : attestRecords sha256Hex run.request store evidenceStore.records =
      .ok attestation := by
    rw [attestRecords, attest, headKnown, evidenceHead, ← attested]
    rfl
  obtain ⟨next, event, pushed, nextRecords, -, -, nextFollows⟩ :=
    follows.append (attestation.input run.stamp.1 run.stamp.2) (by rw [count]; omega)
  have written : Written sha256Hex
      { events := appendLine log (EventStore.line event), evidence := evidenceLog
        followups := run.followups, attestation := some attestation }
      ((store.log.records ++ [event]).map Event.stored) evidenceStore.records := by
    exact ⟨⟨next, _, nextFollows, complete.append _, by rw [nextRecords]⟩,
      ⟨evidenceStore, _, evidenceFollows, evidenceComplete, rfl⟩⟩
  refine ⟨_, _, _, ?_, written, by simp [count], rfl, ?_⟩
  · rw [FinishedRun.files, appendedAll, addedAll]
    simp only [Except.bind, attestedRecords, pushed, Except.map]
  · refine (written.stands_iff _).mpr ⟨attestation, rfl, ?_, ?_, ?_⟩
    · rw [← attested]
      simp
    · rw [← attested, List.map_append, List.take_left' (List.length_map _),
        eventHeadOf_stored follows.storable]
      exact headKnown
    · rw [← attested]
      exact evidenceHead

/-- A run that leaves the follow-up of a human criterion open. -/
def runWithFollowup : FinishedRun :=
  { events := [runCreatedInput], evidence := []
    followups :=
      [{ type := .manualVerification, blocking := false, title := js "look"
         description := js "look", propertyId := some (js "P-1"), taskId := none, options := none
         recommendedDefault := none, criterionId := some (js "A-1"), command := none
         id := js "F-001", runId := js "run-1", status := .opened, createdAt := js "t"
         resolvedAt := none, resolution := none }]
    request := ⟨js "run-1", js "spec", .partiallySatisfied, js "t"⟩
    stamp := (⟨js "t", instant_ne_nil⟩, ⟨js "t", instant_ne_nil⟩) }

/-- A person confirms the criterion. -/
def confirmation : Resolution.Call :=
  { surroundings := stillSurroundings 0
    stamps := fun _ => (⟨js "t", instant_ne_nil⟩, ⟨js "t", instant_ne_nil⟩)
    options := answerFirstFollowup [manualProperty] (js "confirm") }

theorem attestation_of_extended_run_confirmation :
    ∃ files, runWithFollowup.files (fun text => text) (js "run-1") = .ok files ∧
      (History.EveryStep (RunFiles.resolve (fun text => text) (js "run-1")) RecordsNothing
          [confirmation] files →
        Stands (replayAttestation (fun text => text) (js "run-1")
            (files.resolve (fun text => text) (js "run-1") confirmation)) ∧
          Stands (bundleAttestation (fun text => text) (js "run-1")
            (files.resolve (fun text => text) (js "run-1") confirmation))) := by
  obtain ⟨files, events, evidence, made, written, length, -, stands⟩ :=
    finishedRun_stands (fun text => text) (js "run-1") runWithFollowup (by simp [runWithFollowup])
  exact ⟨files, made, (attestation_of_extended_run (fun text => text) (js "run-1") files events
    evidence [confirmation] written (by rw [length]; simp [runWithFollowup]) stands).1⟩

/-- The attestation of the run is verified, and is reported as broken after the
confirmation. -/
theorem not_attestation_of_extended_run :
    ∃ files, runWithFollowup.files (fun text => text) (js "run-1") = .ok files ∧
      Stands (replayAttestation (fun text => text) (js "run-1") files) ∧
      (∃ report, replayAttestation (fun text => text) (js "run-1")
          (files.resolve (fun text => text) (js "run-1") confirmation) = .ok report ∧
        report.attestation = .broken) ∧
      ∃ report, bundleAttestation (fun text => text) (js "run-1")
          (files.resolve (fun text => text) (js "run-1") confirmation) = .ok report ∧
        report.attestation = .broken := by
  obtain ⟨files, events, evidence, made, written, length, followups, stands⟩ :=
    finishedRun_stands (fun text => text) (js "run-1") runWithFollowup (by simp [runWithFollowup])
  refine ⟨files, made, stands, ?_⟩
  have answered : answeredCriterion confirmation.options (FollowupStore.load files.followups) ≠
      none := by
    rw [followups]
    decide +kernel
  obtain ⟨more, added, extended, -, kept, recorded⟩ :=
    written.resolve (js "run-1") confirmation (by rw [length]; simp [runWithFollowup])
  obtain ⟨attestation, known, holds⟩ := (written.stands_iff _).mp stands
  have fallen : ¬ attestation.HoldsOf (fun text => text) (events ++ more) (evidence ++ added) := by
    intro holdsOfAll
    refine answered (recorded.mp (List.eq_nil_of_length_eq_zero ?_))
    have length := length_eq_of_evidenceHeadOf (fun text other _ _ same => same)
      (holdsOfAll.evidence.trans holds.evidence.symm)
    rw [List.length_append] at length
    omega
  constructor
  · obtain ⟨report, checked, outcome⟩ := extended.check (js "run-1") (kept.trans known) _
    exact ⟨report, checked, (outcome.resolve_left fun right => fallen right.1).2⟩
  · obtain ⟨report, checked, outcome⟩ := extended.check (js "run-1") (kept.trans known) _
    exact ⟨report, checked, (outcome.resolve_left fun right => fallen right.1).2⟩

end SpecAsCode.Runtime
