import SpecAsCode.Lib.HashChain
import SpecAsCode.Runtime.LogRecovery
import SpecAsCode.Schema.Event

/-!
# The event store

`EventStore` reads the event log and appends to it.  Every event carries the digest of
the event before it.
-/

namespace SpecAsCode.Runtime

open SpecAsCode.Js
open SpecAsCode.Core
open SpecAsCode.Schema
open SpecAsCode.Text

/-- How events are chained. -/
def eventChain (sha256Hex : JsString → JsString) :
    HashChain.Format Event JsString CanonicalError where
  link := Event.chain
  digest event := digestOf sha256Hex event.toValue
  genesis := EVENT_CHAIN_GENESIS

/-- How the event log is read. -/
def eventReader (sha256Hex : JsString → JsString) :
    LogReader Event (HashChain.Log Event) (HashChain.Refusal CanonicalError) where
  schema := eventSchema
  accept := HashChain.accept (eventChain sha256Hex)

/-- A store: the run it belongs to, its events and its chain status. -/
structure EventStore where
  runId : JsString
  log : HashChain.Log Event

namespace EventStore

/-- A store that has not loaded anything. -/
def fresh (runId : JsString) : EventStore :=
  ⟨runId, HashChain.Log.empty⟩

/-- What a call of `append` is given, with the identifier and the time it takes from
its surroundings.  Payloads are JSON objects. -/
structure Input where
  type : EventType
  payload : Members
  id : JsString
  timestamp : JsString
  json : (JsValue.object payload).isJson = true
  id_ne_nil : id ≠ []
  timestamp_ne_nil : timestamp ≠ []

variable (sha256Hex : JsString → JsString)

/-- `load` of a fresh store. -/
def load (runId : JsString) (file : Option (List Octet)) :
    Except (LoadError (HashChain.Refusal CanonicalError)) EventStore :=
  match loadFile (eventReader sha256Hex) HashChain.Log.empty file with
  | .error error => .error error
  | .ok log => .ok ⟨runId, log⟩

/-- The chain pointer of the next event. -/
def nextChain (store : EventStore) : Except CanonicalError (Option JsString) :=
  if store.log.status = some .legacy then
    .ok none
  else
    match store.log.records.getLast? with
    | none => .ok (some EVENT_CHAIN_GENESIS)
    | some last => (digestOf sha256Hex last.toValue).map some

/-- The event an append creates. -/
def newEvent (store : EventStore) (input : Input) (chain : Option JsString) : Event where
  seq := JsNumber.ofNat (store.log.records.length + 1)
  id := input.id
  type := input.type
  runId := store.runId
  timestamp := input.timestamp
  payload := input.payload
  chain := chain

/-- `this.events.push(event)`. -/
def push (store : EventStore) (event : Event) : EventStore :=
  ⟨store.runId, ⟨store.log.records ++ [event], store.log.status⟩⟩

@[simp]
theorem push_records (store : EventStore) (event : Event) :
    (store.push event).log.records = store.log.records ++ [event] := rfl

/-- `append`: the store after it and the event, which is printed on a line. -/
def append (store : EventStore) (input : Input) : Except CanonicalError (EventStore × Event) :=
  (store.nextChain sha256Hex).map fun chain =>
    (store.push (store.newEvent input chain), store.newEvent input chain)

/-- The line of an event. -/
def line (event : Event) : JsString :=
  event.toValue.stringify

/-- A sequence of appends: the store and the file after it, and the new events. -/
def appendAll : EventStore → Option (List Octet) → List Input →
    Except CanonicalError (EventStore × Option (List Octet) × List Event) :=
  appendEach (fun store _ input => store.append sha256Hex input) line

/-- What a store and the lines of its file have in common: the lines hold the events of
the store, as a log returns them, and the chain is intact. -/
structure Follows (store : EventStore) (texts : List JsString) : Prop where
  storable : ∀ event ∈ store.log.records, event.Storable
  lines : List.Forall₂ (RecordLine (eventReader sha256Hex)) texts
    (store.log.records.map Event.stored)
  linked : HashChain.Linked (eventChain sha256Hex) (store.log.records.map Event.stored)
  notLegacy : store.log.status ≠ some .legacy

variable {sha256Hex}

theorem fresh_follows (runId : JsString) : Follows sha256Hex (fresh runId) [] :=
  ⟨by simp [fresh, HashChain.Log.empty], .nil, .nil, by simp [fresh, HashChain.Log.empty]⟩

/-- The line of a storable event. -/
theorem recordLine {event : Event} (storable : event.Storable) :
    RecordLine (eventReader sha256Hex) (line event) event.stored := by
  have json := storable.isJson
  refine ⟨?_, _, parseJson_stringify json, eventSchema_toValue storable⟩
  exact @lineText_object (unit 's') (js "eq") _ _ json (by decide) (by decide)

/-- A file that follows a store is loaded as the events of the store. -/
theorem Follows.load {store : EventStore} {texts : List JsString}
    (follows : Follows sha256Hex store texts) (runId : JsString) :
    EventStore.load sha256Hex runId (some (lineOctets texts)) =
      .ok ⟨runId, HashChain.chainedLog (store.log.records.map Event.stored)⟩ := by
  rw [EventStore.load, loadFile_complete follows.lines follows.linked.acceptAll]

/-- A store that loaded the file follows it too. -/
theorem Follows.loaded {store : EventStore} {texts : List JsString}
    (follows : Follows sha256Hex store texts) (runId : JsString) :
    Follows sha256Hex ⟨runId, HashChain.chainedLog (store.log.records.map Event.stored)⟩ texts := by
  have again : (store.log.records.map Event.stored).map Event.stored =
      store.log.records.map Event.stored := by
    rw [List.map_map]
    exact List.map_congr_left fun event _ => event.stored_stored
  refine ⟨?_, ?_, ?_, ?_⟩
  · intro event member
    obtain ⟨source, found, rfl⟩ := List.mem_map.mp member
    exact Event.stored_storable (follows.storable source found)
  · show List.Forall₂ _ texts ((store.log.records.map Event.stored).map Event.stored)
    rw [again]
    exact follows.lines
  · show HashChain.Linked _ ((store.log.records.map Event.stored).map Event.stored)
    rw [again]
    exact follows.linked
  · simp only [HashChain.chainedLog]
    split <;> simp

/-- One append writes a line that continues the chain. -/
theorem Follows.append {store : EventStore} {texts : List JsString}
    (follows : Follows sha256Hex store texts) (input : Input)
    (small : store.log.records.length + 1 < 2 ^ 53) :
    ∃ next event, store.append sha256Hex input = .ok (next, event) ∧
      next.log.records = store.log.records ++ [event] ∧ event.payload = input.payload ∧
      next.runId = store.runId ∧ Follows sha256Hex next (texts ++ [line event]) := by
  have storable : ∀ chain, (store.newEvent input chain).Storable := fun chain => ⟨JsNumber.isPositiveInteger_ofNat (by omega) small, input.id_ne_nil,
      input.timestamp_ne_nil, input.json⟩
  -- the pointer is the one the reader will ask for
  have pointer : ∃ pointer, store.nextChain sha256Hex = .ok (some pointer) ∧
      ∀ event : Event, event.chain = some pointer →
        HashChain.Linked (eventChain sha256Hex)
          (store.log.records.map Event.stored ++ [event.stored]) := by
    rw [nextChain, if_neg follows.notLegacy]
    cases last : store.log.records.getLast? with
    | none =>
        have empty := List.getLast?_eq_none_iff.mp last
        refine ⟨EVENT_CHAIN_GENESIS, rfl, fun event chain => ?_⟩
        rw [empty]
        exact .first chain
    | some previous =>
        obtain ⟨initial, split⟩ := List.getLast?_eq_some_iff.mp last
        have previousStorable := follows.storable previous (split ▸ by simp)
        obtain ⟨digest, known⟩ := exists_digestOf sha256Hex previousStorable
        refine ⟨digest, congrArg (Except.map some) known, fun event chain => ?_⟩
        have linked := follows.linked
        rw [split, List.map_append] at linked ⊢
        exact .next linked ((digestOf_stored sha256Hex previousStorable).trans known) chain
  obtain ⟨pointer, known, continued⟩ := pointer
  refine ⟨store.push (store.newEvent input (some pointer)), store.newEvent input (some pointer),
    by rw [EventStore.append, known]; rfl, rfl, rfl, rfl, ?_⟩
  refine ⟨?_, ?_, ?_, follows.notLegacy⟩
  · intro event member
    rcases List.mem_append.mp member with old | new
    · exact follows.storable event old
    · rw [List.mem_singleton.mp new]
      exact storable _
  · rw [push_records, List.map_append]
    exact List.rel_append follows.lines (.cons (recordLine (storable _)) .nil)
  · rw [push_records, List.map_append]
    exact continued _ rfl

/-- A sequence of appends writes the lines of its events. -/
theorem Follows.appendAll (inputs : List Input) :
    ∀ {store : EventStore} {texts : List JsString}, Follows sha256Hex store texts →
      store.log.records.length + inputs.length < 2 ^ 53 → ∀ file,
      ∃ last events, EventStore.appendAll sha256Hex store file inputs =
          .ok (last, events.foldl (fun file event => appendLine file (line event)) file, events) ∧
        last.log.records = store.log.records ++ events ∧ last.runId = store.runId ∧
        events.map Event.payload = inputs.map Input.payload ∧
        Follows sha256Hex last (texts ++ events.map line) := by
  induction inputs with
  | nil =>
      intro store texts follows _ file
      exact ⟨store, [], rfl, by simp, rfl, rfl, by simpa using follows⟩
  | cons input inputs inductionHypothesis =>
      intro store texts follows small file
      rw [List.length_cons] at small
      obtain ⟨next, event, appended, records, payload, runId, nextFollows⟩ :=
        follows.append input (by omega)
      obtain ⟨last, events, rest, lastRecords, lastRunId, payloads, lastFollows⟩ :=
        inductionHypothesis nextFollows
          (by rw [records, List.length_append, List.length_singleton]; omega)
          (appendLine file (line event))
      refine ⟨last, event :: events, ?_, ?_, lastRunId.trans runId, ?_, ?_⟩
      · rw [EventStore.appendAll] at rest ⊢
        rw [appendEach, appended, Except.bind]
        simp only [rest]
        rfl
      · rw [lastRecords, records, List.append_assoc]
        rfl
      · rw [List.map_cons, List.map_cons, payload, payloads]
      · rw [List.map_cons]
        rw [List.append_assoc] at lastFollows
        exact lastFollows

theorem appendLines_eq (events : List Event) (octets : List Octet) :
    events.foldl (fun file event => appendLine file (line event)) (some octets) =
      some (octets ++ lineOctets (events.map line)) := by
  induction events generalizing octets with
  | nil => simp [lineOctets]
  | cons event events inductionHypothesis =>
      have first : appendLine (some octets) (line event) =
          some (octets ++ encodeUtf8 (line event ++ [newline])) := rfl
      rw [List.foldl_cons, first, inductionHypothesis]
      simp [lineOctets]

end EventStore

end SpecAsCode.Runtime
