import SpecAsCode.Runtime.EventStore

/-!
# Tamper evidence of the event log

The digest of the last event of a chained log determines the log, and the logs the
store writes are chained.
-/

namespace SpecAsCode.Runtime

open SpecAsCode.Js
open SpecAsCode.Core
open SpecAsCode.Schema
open SpecAsCode.Text

/-- Two events with the same content. -/
def EventEqual (first second : Event) : Prop :=
  LogicallyEqual first.toValue second.toValue

theorem EventEqual.chain {first second : Event} (equal : EventEqual first second) :
    first.chain = second.chain := by
  have properties : ∀ key, LogicallyEqual (lookup key first.members) (lookup key second.members) := by
    cases equal with
    | object properties => exact properties
  have sameOptional : ∀ {value other : JsValue}, LogicallyEqual value other →
      optionalString value = optionalString other := by
    intro value other equal
    cases equal <;> rfl
  have read := first.lookup_members.2.2.2.2.2.2
  rw [sameOptional (properties (js "chain")), second.lookup_members.2.2.2.2.2.2] at read
  exact (Option.some.inj read).symm

/-- The events on the lines of a file, whatever their chain pointers. -/
def readEvents (file : Option (List Octet)) : Except (LoadError Empty) (List Event) :=
  loadFile (collector eventSchema) [] file

section

variable {sha256Hex : JsString → JsString}

/-- The events of an accepted log are the events on its lines, and the chain checks
passed on them. -/
theorem load_sound {runId : JsString} {file : Option (List Octet)} {store : EventStore}
    (loaded : EventStore.load sha256Hex runId file = .ok store) :
    readEvents file = .ok store.log.records ∧
      HashChain.acceptAll (eventChain sha256Hex) HashChain.Log.empty store.log.records =
        .ok store.log := by
  have read : loadFile (eventReader sha256Hex) HashChain.Log.empty file = .ok store.log := by
    rw [EventStore.load] at loaded
    split at loaded
    next => cases loaded
    next log equal =>
      cases loaded
      exact equal
  obtain ⟨records, accepts, collected⟩ := loadFile_collect read
  have same : store.log.records = records := (HashChain.sound_acceptAll accepts).2
  rw [same]
  exact ⟨collected, accepts⟩

/-- The events of an accepted log with a chained last event are linked. -/
theorem linked_of_load {runId : JsString} {file : Option (List Octet)} {store : EventStore}
    (loaded : EventStore.load sha256Hex runId file = .ok store) {last : Event} {pointer : JsString}
    (ends : store.log.records.getLast? = some last) (chained : last.chain = some pointer) :
    HashChain.Linked (eventChain sha256Hex) store.log.records := by
  obtain ⟨-, accepted⟩ := load_sound loaded
  rcases (HashChain.sound_acceptAll accepted).1 with legacy | ⟨linked, -⟩
  · obtain ⟨initial, split⟩ := List.getLast?_eq_some_iff.mp ends
    rw [split] at accepted
    have unlinked : last.chain = none := HashChain.link_of_legacy accepted legacy
    rw [chained] at unlinked
    cases unlinked
  · exact linked

/-- An accepted chained log with an event in it: the last event has a pointer. -/
theorem chained_last {runId : JsString} {file : Option (List Octet)} {store : EventStore}
    (loaded : EventStore.load sha256Hex runId file = .ok store)
    (status : store.log.status = some .chained) {last : Event}
    (ends : store.log.records.getLast? = some last) : ∃ pointer, last.chain = some pointer := by
  obtain ⟨-, accepted⟩ := load_sound loaded
  rcases (HashChain.sound_acceptAll accepted).1 with legacy | ⟨linked, -⟩
  · rw [legacy] at status
    cases status
  · exact linked.last_link ends

end

/-- Tamper evidence.  Two accepted chained logs whose last events have one digest hold
the same events.  A file whose events are not those of an accepted chained log but end
with its last event is refused.  And what a fresh store appends is accepted, and is
chained as soon as there is an event. -/
theorem tamper_evidence (sha256Hex : JsString → JsString) :
    (∀ runId otherRunId file otherFile store otherStore last otherLast digest,
      EventStore.load sha256Hex runId file = .ok store →
      EventStore.load sha256Hex otherRunId otherFile = .ok otherStore →
      store.log.status = some .chained → otherStore.log.status = some .chained →
      HashChain.CollisionFree (eventChain sha256Hex) EventEqual store.log.records
        otherStore.log.records →
      store.log.records.getLast? = some last → otherStore.log.records.getLast? = some otherLast →
      digestOf sha256Hex last.toValue = .ok digest →
      digestOf sha256Hex otherLast.toValue = .ok digest →
      store.log.records.length = otherStore.log.records.length ∧
        List.Forall₂ EventEqual store.log.records otherStore.log.records) ∧
    (∀ runId file store tampered events last otherLast,
      EventStore.load sha256Hex runId file = .ok store →
      store.log.status = some .chained →
      readEvents tampered = .ok events →
      HashChain.CollisionFree (eventChain sha256Hex) EventEqual store.log.records events →
      store.log.records.getLast? = some last → events.getLast? = some otherLast →
      EventEqual last otherLast → ¬ List.Forall₂ EventEqual store.log.records events →
      ∃ error, EventStore.load sha256Hex runId tampered = .error error) ∧
    (∀ runId (inputs : List EventStore.Input), inputs.length < 2 ^ 53 →
      ∃ store file events,
        (EventStore.fresh runId).appendAll sha256Hex none inputs = .ok (store, file, events) ∧
        store.log.records = events ∧ events.map Event.payload = inputs.map EventStore.Input.payload ∧
        ∃ loaded, EventStore.load sha256Hex runId file = .ok loaded ∧
          loaded.log.records = events.map Event.stored ∧
          (inputs ≠ [] → loaded.log.status = some .chained)) := by
  refine ⟨?_, ?_, ?_⟩
  · intro runId otherRunId file otherFile store otherStore last otherLast digest loaded otherLoaded
      status otherStatus collisionFree ends otherEnds known otherKnown
    obtain ⟨pointer, chained⟩ := chained_last loaded status ends
    obtain ⟨otherPointer, otherChained⟩ := chained_last otherLoaded otherStatus otherEnds
    have lastEqual := collisionFree.identifies last (List.mem_of_getLast? ends) otherLast
      (List.mem_of_getLast? otherEnds) digest known otherKnown
    have same := (linked_of_load loaded ends chained).unique
      (fun record other equal => EventEqual.chain equal)
      (linked_of_load otherLoaded otherEnds otherChained) collisionFree ends otherEnds lastEqual
    exact ⟨same.length_eq, same⟩
  · intro runId file store tampered events last otherLast loaded status read collisionFree ends
      otherEnds lastEqual different
    cases result : EventStore.load sha256Hex runId tampered with
    | error error => exact ⟨error, rfl⟩
    | ok other =>
        obtain ⟨otherRead, -⟩ := load_sound result
        rw [read] at otherRead
        cases otherRead
        obtain ⟨pointer, chained⟩ := chained_last loaded status ends
        have otherChained : otherLast.chain = some pointer := by
          rw [← EventEqual.chain lastEqual, chained]
        exact absurd ((linked_of_load loaded ends chained).unique
          (fun record other equal => EventEqual.chain equal)
          (linked_of_load result otherEnds otherChained) collisionFree ends otherEnds lastEqual)
          different
  · intro runId inputs small
    obtain ⟨store, events, appended, records, -, payloads, follows⟩ :=
      (@EventStore.fresh_follows sha256Hex runId).appendAll inputs
        (by simpa [EventStore.fresh, HashChain.Log.empty] using small) none
    have stored : store.log.records = events := records
    refine ⟨store, _, events, appended, stored, payloads, ?_⟩
    have read := follows.load runId
    rw [stored, List.nil_append] at read
    cases events with
    | nil =>
        refine ⟨EventStore.fresh runId, rfl, rfl, fun some => ?_⟩
        have none : inputs = [] := List.map_eq_nil_iff.mp payloads.symm
        exact absurd none some
    | cons event events =>
        have first : appendLine none (EventStore.line event) =
            appendLine (some []) (EventStore.line event) := rfl
        rw [List.foldl_cons, first, ← List.foldl_cons (l := events), EventStore.appendLines_eq,
          List.nil_append]
        exact ⟨_, read, rfl, fun _ => by simp [HashChain.chainedLog]⟩

/-- The first event of a run, and the text that is hashed for it. -/
def firstEvent : Event where
  seq := JsNumber.ofNat 1
  id := js "a"
  type := .runCreated
  runId := js "r"
  timestamp := js "t"
  payload := []
  chain := some EVENT_CHAIN_GENESIS

/-- The canonical text of `firstEvent`. -/
def firstEventText : JsString :=
  js "\x7b\"chain\":\"sha256:0000000000000000000000000000000000000000000000000000000000000000\"" ++
    js ",\"id\":\"a\",\"payload\":\x7b\x7d,\"runId\":\"r\",\"seq\":1" ++
    js ",\"timestamp\":\"t\",\"type\":\"RUN_CREATED\"\x7d"

/-- A function that is SHA-256 on the canonical text of `firstEvent`. -/
def firstEventHash (text : JsString) : JsString :=
  if text = firstEventText then
    js "b5c532219885786b3d53f231d4ad0bdf2590ce061da09f314d73ae0c74cdeb0f"
  else
    text

theorem digestOf_firstEvent : digestOf firstEventHash firstEvent.stored.toValue =
    .ok (js "sha256:b5c532219885786b3d53f231d4ad0bdf2590ce061da09f314d73ae0c74cdeb0f") := by
  have computed : (digestOf firstEventHash firstEvent.stored.toValue).toOption =
      some (js "sha256:b5c532219885786b3d53f231d4ad0bdf2590ce061da09f314d73ae0c74cdeb0f") := by
    decide +kernel
  cases digest : digestOf firstEventHash firstEvent.stored.toValue with
  | error error => rw [digest] at computed; cases computed
  | ok text =>
      rw [digest] at computed
      exact congrArg Except.ok (Option.some.inj computed)

theorem firstEvent_storable : firstEvent.Storable :=
  ⟨@JsNumber.isPositiveInteger_ofNat 1 (by decide) (by decide), by decide, by decide,
    by decide⟩

theorem firstEvent_follows :
    EventStore.Follows firstEventHash ⟨js "r", ⟨[firstEvent], none⟩⟩ [EventStore.line firstEvent] :=
  ⟨by simpa using firstEvent_storable, .cons (EventStore.recordLine firstEvent_storable) .nil,
    .first rfl, by simp⟩

private theorem firstEvent_collisionFree {others : List Event}
    (copies : ∀ event ∈ others, event = firstEvent.stored) :
    HashChain.CollisionFree (eventChain firstEventHash) EventEqual [firstEvent.stored] others where
  identifies record member other found _ _ _ := by
    rw [List.mem_singleton.mp member, copies other found]
    exact LogicallyEqual.refl _
  notGenesis record member genesis := by
    have same : record = firstEvent.stored :=
      member.elim (fun found => List.mem_singleton.mp found) (copies record)
    have known : digestOf firstEventHash firstEvent.stored.toValue = .ok EVENT_CHAIN_GENESIS := by
      rw [← same]
      exact genesis
    rw [digestOf_firstEvent] at known
    exact absurd (Except.ok.inj known) (by decide)

/-- The log of one event is determined by its last event, and refused when the event is
written twice; and one append writes a chained log. -/
theorem tamper_evidence_firstEvent :
    List.Forall₂ EventEqual [firstEvent.stored] [firstEvent.stored] ∧
      (∃ error, EventStore.load firstEventHash (js "r")
        (some (lineOctets [EventStore.line firstEvent, EventStore.line firstEvent])) =
          .error error) ∧
      ∃ store file events, (EventStore.fresh (js "r")).appendAll firstEventHash none
        [⟨.runCreated, [], js "a", js "t", by decide, by decide, by decide⟩] =
          .ok (store, file, events) := by
  have loaded := firstEvent_follows.load (js "r")
  have line := @EventStore.recordLine firstEventHash _ firstEvent_storable
  refine ⟨?_, ?_, ?_⟩
  · exact ((tamper_evidence firstEventHash).1 (js "r") (js "r") _ _ _ _ firstEvent.stored
      firstEvent.stored _ loaded loaded rfl rfl
      (firstEvent_collisionFree fun event member => List.mem_singleton.mp member) rfl rfl
      digestOf_firstEvent digestOf_firstEvent).2
  · refine (tamper_evidence firstEventHash).2.1 (js "r") _ _ _
      [firstEvent.stored, firstEvent.stored] firstEvent.stored firstEvent.stored loaded rfl ?_
      (firstEvent_collisionFree (by simp)) rfl rfl (LogicallyEqual.refl _) ?_
    · have collects : RecordLine (collector eventSchema) (EventStore.line firstEvent)
          firstEvent.stored := ⟨line.line, line.reads⟩
      exact loadFile_complete (.cons collects (.cons collects .nil)) rfl
    · intro same
      exact absurd same.length_eq (by decide)
  · obtain ⟨store, file, events, appended, -⟩ := (tamper_evidence firstEventHash).2.2 (js "r")
      [⟨.runCreated, [], js "a", js "t", by decide, by decide, by decide⟩] (by decide)
    exact ⟨store, file, events, appended⟩

end SpecAsCode.Runtime
