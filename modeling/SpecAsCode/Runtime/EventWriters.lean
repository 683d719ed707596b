import SpecAsCode.Runtime.SharedLog

/-!
# Several writers of the event log

The live driver, a resolution of a follow-up, a supersession and a cancellation open event
stores of their own over the log of one run.
-/

namespace SpecAsCode.Runtime

open SpecAsCode.Js
open SpecAsCode.Core
open SpecAsCode.Schema
open SpecAsCode.Text
open SpecAsCode.History

/-- A log of one run and the event stores over it. -/
abbrev SharedEvents (Writer : Type) := SharedLog Writer EventStore Event

abbrev EventOp (Writer : Type) := WriterOp Writer EventStore.Input

variable {Writer : Type} [DecidableEq Writer] (sha256Hex : JsString → JsString) (runId : JsString)

/-- One operation on the event log. -/
def SharedEvents.act (op : EventOp Writer) (shared : SharedEvents Writer) : SharedEvents Writer :=
  SharedLog.act (eventJournal sha256Hex runId) (fun _ input => input) op shared

/-- A fresh load succeeds and returns every appended event once and in its place, and no two
events have one sequence number. -/
structure SharedEvents.Coherent (shared : SharedEvents Writer) : Prop where
  loads : ∃ store, EventStore.load sha256Hex runId shared.file = .ok store ∧
    store.log.records = shared.log.map Event.stored
  distinct : (shared.log.map Event.seq).Nodup

/-- A store that appends holds as many events as the log, which are fewer than the safe
integers. -/
def SharedEvents.UpToDate (shared : SharedEvents Writer) (op : EventOp Writer) : Prop :=
  match op with
  | .append writer _ => ∀ store, shared.stores writer = some store →
      store.log.records.length = shared.log.length ∧ shared.log.length + 1 < 2 ^ 53
  | _ => True

/-- What an event store must have for what it holds to decide the next append. -/
structure EventStore.Sound (store : EventStore) : Prop where
  storable : ∀ event ∈ store.log.records, event.Storable
  notLegacy : store.log.status ≠ some .legacy

theorem eventJournal_sharedLaws : (eventJournal sha256Hex runId).SharedLaws
    (EventStore.Follows sha256Hex) Event.stored EventStore.Sound where
  fresh := ⟨EventStore.fresh_follows runId, rfl⟩
  sound _ _ follows := ⟨follows.storable, follows.notLegacy⟩
  follows store other texts sound same followed := by
    refine ⟨sound.storable, ?_, ?_, sound.notLegacy⟩
    · exact (same ▸ followed.lines :)
    · exact (same ▸ followed.linked :)

/-- The log is consistent and its events are numbered from one on. -/
structure SharedEvents.Numbered (shared : SharedEvents Writer) : Prop where
  consistent : SharedLog.Consistent (eventJournal sha256Hex runId) (EventStore.Follows sha256Hex)
    Event.stored EventStore.Sound shared
  numbers : shared.log.map Event.seq =
    (List.range shared.log.length).map fun index => JsNumber.ofNat (index + 1)
  small : shared.log.length < 2 ^ 53

variable {sha256Hex runId} {shared : SharedEvents Writer}

omit [DecidableEq Writer] in
/-- Small numbers are different as JavaScript numbers. -/
theorem JsNumber.ofNat_inj {first second : Nat} (firstSmall : first < 2 ^ 53)
    (secondSmall : second < 2 ^ 53) (same : JsNumber.ofNat first = JsNumber.ofNat second) :
    first = second := by
  obtain ⟨double, number, name⟩ := JsNumber.ofNat_eq firstSmall
  obtain ⟨other, otherNumber, otherName⟩ := JsNumber.ofNat_eq secondSmall
  rw [number, otherNumber] at same
  cases same
  have safe := (Decimal.safeInteger_ofNat firstSmall).1
  rw [← name, otherName, (Decimal.safeInteger_ofNat secondSmall).1] at safe
  exact (Option.some.inj safe).symm

/-- The sequence number of the event that an append creates. -/
theorem EventStore.append_seq {store next : EventStore} {input : EventStore.Input} {event : Event}
    (appended : store.append sha256Hex input = .ok (next, event)) :
    event.seq = JsNumber.ofNat (store.log.records.length + 1) := by
  rw [EventStore.append] at appended
  cases chain : store.nextChain sha256Hex with
  | error error =>
      rw [chain] at appended
      cases appended
  | ok pointer =>
      rw [chain] at appended
      cases appended
      rfl

/-- A store over well-formed events appends. -/
theorem EventStore.Sound.append {store : EventStore} (sound : store.Sound)
    (input : EventStore.Input) :
    ∃ event, store.append sha256Hex input = .ok (store.push event, event) := by
  have pointer : ∃ chain, store.nextChain sha256Hex = .ok chain := by
    rw [EventStore.nextChain, if_neg sound.notLegacy]
    cases last : store.log.records.getLast? with
    | none => exact ⟨_, rfl⟩
    | some previous =>
        obtain ⟨digest, known⟩ :=
          exists_digestOf sha256Hex (sound.storable previous (List.mem_of_getLast? last))
        exact ⟨some digest, congrArg (Except.map some) known⟩
  obtain ⟨chain, known⟩ := pointer
  exact ⟨store.newEvent input chain, by rw [EventStore.append, known]; rfl⟩

/-- The events that a load returns have passed the schema. -/
theorem EventStore.load_seq {file : Option (List Octet)} {store : EventStore}
    (loaded : EventStore.load sha256Hex runId file = .ok store) :
    ∀ event ∈ store.log.records, event.seq.isPositiveInteger = true := by
  rw [EventStore.load] at loaded
  split at loaded
  next => cases loaded
  next log read =>
    cases loaded
    refine @loadFile_invariant _ _ _ (eventReader sha256Hex)
      (fun log => ∀ event ∈ log.records, event.seq.isPositiveInteger = true) _ _ _ read
      (fun event member => absurd member List.not_mem_nil) ?_
    intro value event before after valid accepted held
    rw [(HashChain.accept_ok accepted).1]
    exact List.forall_mem_append.mpr ⟨held, by
      simpa using isPositiveInteger_of_eventSchema valid⟩

/-! ## The log under its writers -/

omit [DecidableEq Writer] in
theorem SharedEvents.numbered_start :
    SharedEvents.Numbered sha256Hex runId (SharedLog.start : SharedEvents Writer) :=
  ⟨SharedLog.consistent_start (eventJournal_sharedLaws sha256Hex runId), rfl,
    Nat.two_pow_pos 53⟩

/-- An append of a store that is up to date writes the event with the next number. -/
theorem SharedEvents.Numbered.append (numbered : shared.Numbered sha256Hex runId) {writer : Writer}
    {store : EventStore} (found : shared.stores writer = some store)
    (all : store.log.records.length = shared.log.length) (small : shared.log.length + 1 < 2 ^ 53)
    (input : EventStore.Input) :
    (shared.act sha256Hex runId (.append writer input)).Numbered sha256Hex runId := by
  have shares := eventJournal_sharedLaws sha256Hex runId
  obtain ⟨texts, reference, complete, follows, records⟩ := numbered.consistent.written
  have followed := (numbered.consistent.remembered writer store found).follows shares follows
    records all
  obtain ⟨next, event, appended, held, -, -, nextFollows⟩ :=
    followed.append input (by rw [all]; exact small)
  have acted : shared.act sha256Hex runId (.append writer input) =
      shared.push (eventJournal sha256Hex runId) writer next event := by
    have ran : (eventJournal sha256Hex runId).append store shared.file input = .ok (next, event) :=
      appended
    simp only [SharedEvents.act, SharedLog.act, found, ran]
  have remembered : store.log.records.map Event.stored = shared.log.map Event.stored :=
    (numbered.consistent.remembered writer store found).records.eq_of_length
      (by rw [List.length_map, List.length_map]; exact all)
  have seq := EventStore.append_seq appended
  rw [acted]
  refine ⟨numbered.consistent.push shares writer complete nextFollows ?_, ?_, ?_⟩
  · show next.log.records.map Event.stored = (shared.log ++ [event]).map Event.stored
    rw [held, List.map_append, List.map_append, remembered]
  · show (shared.log ++ [event]).map Event.seq = (List.range (shared.log ++ [event]).length).map _
    rw [List.map_append, numbered.numbers, List.length_append, List.length_singleton,
      List.range_succ, List.map_append, List.map_singleton, List.map_singleton, seq, all]
  · show (shared.log ++ [event]).length < 2 ^ 53
    rw [List.length_append]
    exact small

theorem SharedEvents.Numbered.act (numbered : shared.Numbered sha256Hex runId)
    {op : EventOp Writer} (upToDate : shared.UpToDate op) :
    (shared.act sha256Hex runId op).Numbered sha256Hex runId := by
  have shares := eventJournal_sharedLaws sha256Hex runId
  cases op with
  | create writer =>
      exact ⟨numbered.consistent.create shares writer, numbered.numbers, numbered.small⟩
  | load writer =>
      obtain ⟨store, loaded, -, remembers⟩ :=
        numbered.consistent.loads (eventJournal_laws sha256Hex runId) shares
      have acted : shared.act sha256Hex runId (.load writer) = shared.keep writer store := by
        simp only [SharedEvents.act, SharedLog.act, loaded]
      rw [acted]
      exact ⟨numbered.consistent.keep writer remembers, numbered.numbers, numbered.small⟩
  | append writer input =>
      cases found : shared.stores writer with
      | none =>
          have acted : shared.act sha256Hex runId (.append writer input) = shared := by
            simp only [SharedEvents.act, SharedLog.act, found]
          rw [acted]
          exact numbered
      | some store =>
          obtain ⟨all, small⟩ := upToDate store found
          exact numbered.append found all small input

omit [DecidableEq Writer] in
/-- A numbered log is coherent. -/
theorem SharedEvents.Numbered.coherent (numbered : shared.Numbered sha256Hex runId) :
    shared.Coherent sha256Hex runId := by
  obtain ⟨store, loaded, records, -⟩ := numbered.consistent.loads
    (eventJournal_laws sha256Hex runId) (eventJournal_sharedLaws sha256Hex runId)
  rw [eventJournal_load] at loaded
  refine ⟨⟨store, loaded, records⟩, ?_⟩
  rw [numbered.numbers]
  refine List.nodup_range.map_on fun first firstMember second secondMember same => ?_
  have small := numbered.small
  rw [List.mem_range] at firstMember secondMember
  have equal := JsNumber.ofNat_inj (by omega) (by omega) same
  omega

/-- An append of a store that is not up to date, or that has no safe number left, spoils the
log for good. -/
theorem SharedEvents.Numbered.not_coherent (numbered : shared.Numbered sha256Hex runId)
    {op : EventOp Writer} (stale : ¬ shared.UpToDate op) {final : SharedEvents Writer}
    (extends_ : (shared.act sha256Hex runId op).log <+: final.log) :
    ¬ final.Coherent sha256Hex runId := by
  intro coherent
  cases op with
  | create writer => exact stale trivial
  | load writer => exact stale trivial
  | append writer input =>
      simp only [UpToDate, not_forall] at stale
      obtain ⟨store, found, stale⟩ := stale
      have remembers := numbered.consistent.remembered writer store found
      obtain ⟨event, appended⟩ := @EventStore.Sound.append sha256Hex store remembers.sound input
      have acted : (shared.act sha256Hex runId (.append writer input)).log =
          shared.log ++ [event] := by
        have ran : (eventJournal sha256Hex runId).append store shared.file input =
            .ok (store.push event, event) := appended
        simp only [SharedEvents.act, SharedLog.act, found, ran]
        rfl
      rw [acted] at extends_
      have seq := EventStore.append_seq appended
      have shorter : store.log.records.length ≤ shared.log.length := by
        have bound := remembers.records.length_le
        rwa [List.length_map, List.length_map] at bound
      by_cases all : store.log.records.length = shared.log.length
      · -- the number is not safe any more, and the schema refuses the event
        have size : shared.log.length + 1 = 2 ^ 53 := by
          have small := numbered.small
          have large : ¬ shared.log.length + 1 < 2 ^ 53 := fun fits => stale ⟨all, fits⟩
          omega
        obtain ⟨loaded, loads, records⟩ := coherent.loads
        have member : event.stored ∈ loaded.log.records := by
          rw [records]
          exact List.mem_map_of_mem (extends_.subset (by simp))
        have positive := EventStore.load_seq loads _ member
        have unsafe_ : (JsNumber.ofNat (2 ^ 53)).isPositiveInteger = false := by decide +kernel
        have number : event.stored.seq = JsNumber.ofNat (2 ^ 53) := by
          rw [← size, ← all]
          exact seq
        rw [number, unsafe_] at positive
        cases positive
      · -- the number is the one of an earlier event
        have distinct := coherent.distinct.sublist (extends_.sublist.map Event.seq)
        rw [List.map_append, numbered.numbers, List.nodup_append] at distinct
        refine distinct.2.2 event.seq ?_ event.seq (by simp) rfl
        rw [seq]
        exact List.mem_map_of_mem (List.mem_range.mpr (by omega))

/-- The log is coherent after a run of its writers if and only if every append was made by a
store that held every event of the log. -/
theorem shared_event_log_iff (sha256Hex : JsString → JsString) (runId : JsString)
    (ops : List (EventOp Writer)) :
    (run (SharedEvents.act sha256Hex runId) ops SharedLog.start).Coherent sha256Hex runId ↔
      EveryStep (SharedEvents.act sha256Hex runId) SharedEvents.UpToDate ops SharedLog.start := by
  have numbered : ∀ ops : List (EventOp Writer),
      EveryStep (SharedEvents.act sha256Hex runId) SharedEvents.UpToDate ops SharedLog.start →
      (run (SharedEvents.act sha256Hex runId) ops SharedLog.start).Numbered sha256Hex runId :=
    fun ops steps => steps.invariant SharedEvents.numbered_start
      fun shared op upToDate numbered => numbered.act upToDate
  constructor
  · intro coherent
    by_contra stale
    obtain ⟨before, op, after, rfl, earlier, failure⟩ := exists_first_failure stale
    rw [run_append] at coherent
    exact (numbered before earlier).not_coherent failure (SharedLog.log_prefix_run after _) coherent
  · exact fun steps => (numbered ops steps).coherent

/-- The driver of a run, `false`, appends an event while a resolution, `true`, has the log
open, which then appends another one. -/
def appendBetween : List (EventOp Bool) :=
  [.create false, .load true, .append false runCreatedInput, .append true runCreatedInput]

/-- The store of the resolution does not hold the event of the driver: both events have the
number one. -/
theorem appendBetween_not_coherent :
    ¬ (run (SharedEvents.act id (js "r")) appendBetween SharedLog.start).Coherent id (js "r") := by
  have created : (SharedEvents.act id (js "r") (.create false)
      (SharedLog.start : SharedEvents Bool)).Numbered id (js "r") :=
    SharedEvents.numbered_start.act (show SharedEvents.UpToDate _ (.create false) from trivial)
  have opened := created.act (show SharedEvents.UpToDate _ (.load true) from trivial)
  have driver : (SharedEvents.act id (js "r") (.load true) (SharedEvents.act id (js "r")
      (.create false) SharedLog.start)).stores false = some (EventStore.fresh (js "r")) := rfl
  have driven := opened.append driver rfl (by decide) runCreatedInput
  have stale : ¬ SharedEvents.UpToDate (SharedEvents.act id (js "r")
      (.append false runCreatedInput) (SharedEvents.act id (js "r") (.load true)
        (SharedEvents.act id (js "r") (.create false) SharedLog.start)))
      (.append true runCreatedInput) := fun upToDate =>
    absurd (upToDate (EventStore.fresh (js "r")) rfl).1 (by decide)
  exact driven.not_coherent stale List.prefix_rfl

end SpecAsCode.Runtime
