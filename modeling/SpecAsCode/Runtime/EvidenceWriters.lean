import SpecAsCode.Runtime.RunRecords
import SpecAsCode.Runtime.SharedLog

/-!
# Several writers of the evidence log

Evidence stores are opened on one file like event stores, but `add` reads the last record of
the file first and adopts it when it is not the last one the store has seen.
-/

namespace SpecAsCode.Runtime

open SpecAsCode.Js
open SpecAsCode.Core
open SpecAsCode.Schema
open SpecAsCode.Text
open SpecAsCode.Verifier
open SpecAsCode.History

/-- An evidence log and the stores over it. -/
abbrev SharedEvidence (Writer : Type) := SharedLog Writer EvidenceStore Evidence

abbrev EvidenceOp (Writer : Type) := WriterOp Writer EvidenceDraft

/-- The input of an addition.  Callers number a record by what their store holds. -/
def EvidenceStore.mint (store : EvidenceStore) (draft : EvidenceDraft) : EvidenceStore.Input :=
  EvidenceStore.inputOf draft (store.records.length + 1)

section Writers

variable {Writer : Type} [DecidableEq Writer] (sha256Hex : JsString → JsString)

/-- One operation on the evidence log. -/
def SharedEvidence.act (op : EvidenceOp Writer) (shared : SharedEvidence Writer) :
    SharedEvidence Writer :=
  SharedLog.act (evidenceJournal sha256Hex) EvidenceStore.mint op shared

omit [DecidableEq Writer] in
/-- A fresh load succeeds and returns every added record once and in its place, and no two
records have one identifier. -/
structure SharedEvidence.Coherent (shared : SharedEvidence Writer) : Prop where
  loads : ∃ store, EvidenceStore.load sha256Hex shared.file = .ok store ∧
    store.records = shared.log
  distinct : (shared.log.map Evidence.id).Nodup

/-- After an addition of its own a store holds the records of the file. -/
def SharedEvidence.InMemory (shared : SharedEvidence Writer) (op : EvidenceOp Writer) : Prop :=
  match op with
  | .append writer _ => ∀ store, (shared.act sha256Hex op).stores writer = some store →
      store.records = (shared.act sha256Hex op).log
  | _ => True

/-- A store that adds has seen every record of the log, or every record but the last one, and
then the last one has another digest than the last one it has seen. -/
def SharedEvidence.NearlyUpToDate (shared : SharedEvidence Writer) (op : EvidenceOp Writer) :
    Prop :=
  match op with
  | .append writer _ => ∀ store, shared.stores writer = some store →
      store.records.length = shared.log.length ∨
        (store.records.length + 1 = shared.log.length ∧
          store.records.getLast?.map Evidence.digest ≠ shared.log.getLast?.map Evidence.digest)
  | _ => True

end Writers

/-! ## Identifiers -/

/-- The number of an identifier is read back. -/
theorem EvidenceStore.evidenceNumber_evidenceId (number : Nat) :
    EvidenceStore.evidenceNumber (EvidenceStore.evidenceId number) = some number := by
  have starts : startsWith (EvidenceStore.evidenceId number) (js "EV-") = true := by
    rw [EvidenceStore.evidenceId, List.append_assoc, startsWith, List.isPrefixOf_iff_prefix]
    exact List.prefix_append _ _
  have dropped : (EvidenceStore.evidenceId number).drop 3 =
      List.replicate (4 - (natText number).length) (unit '0') ++ natText number := by
    rw [EvidenceStore.evidenceId, List.append_assoc]
    rfl
  have value := natOfDigits_padded (4 - (natText number).length) number
  rw [EvidenceStore.evidenceNumber, if_pos starts, dropped, mapM_digitOf_padded]
  cases digits : List.replicate (4 - (natText number).length) (0 : Digit) ++ natDigits number with
  | nil => exact absurd (List.append_eq_nil_iff.mp digits).2 (natDigits_ne_nil number)
  | cons digit rest =>
      rw [digits] at value
      exact congrArg some value

theorem EvidenceStore.evidenceId_injective : Function.Injective EvidenceStore.evidenceId :=
  padded_injective (js "EV-") 4

/-! ## Adding -/

/-- What an evidence store must have for what it holds to decide the next addition. -/
structure EvidenceStore.Sound (sha256Hex : JsString → JsString) (store : EvidenceStore) : Prop where
  storable : ∀ evidence ∈ store.records, evidence.Storable
  digests : ∀ evidence ∈ store.records, contentDigest sha256Hex evidence = .ok evidence.digest
  notLegacy : store.status ≠ some .legacy

theorem evidenceJournal_sharedLaws (sha256Hex : JsString → JsString) :
    (evidenceJournal sha256Hex).SharedLaws (EvidenceStore.Follows sha256Hex) id
      (EvidenceStore.Sound sha256Hex) where
  fresh := ⟨EvidenceStore.fresh_follows, rfl⟩
  sound _ _ follows := ⟨follows.storable, follows.digests, follows.notLegacy⟩
  follows store other texts sound same followed := by
    rw [List.map_id, List.map_id] at same
    have records : store.records = other.records := same
    refine ⟨sound.storable, sound.digests, ?_, ?_, sound.notLegacy⟩
    · exact records ▸ followed.lines
    · exact records ▸ followed.linked

namespace EvidenceStore

variable {sha256Hex : JsString → JsString}

/-- What an addition writes and leaves, whatever is adopted. -/
theorem add_ok {store next : EvidenceStore} {file : Option (List Octet)} {input : Input}
    {evidence : Evidence} (added : store.add sha256Hex file input = .ok (next, evidence)) :
    evidence.id = (store.adoptDiskTail file input.id).2 ∧
      next.records = (store.adoptDiskTail file input.id).1.records ++ [evidence] := by
  rw [EvidenceStore.add] at added
  generalize store.adoptDiskTail file input.id = adopted at added ⊢
  cases digest : contentDigest sha256Hex (withChain input adopted.2 (nextChain adopted.1) []) with
  | error error =>
      simp only [digest] at added
      cases added
  | ok digest =>
      simp only [digest] at added
      cases added
      exact ⟨rfl, rfl⟩

/-- At most one record is adopted. -/
theorem adoptDiskTail_length (store : EvidenceStore) (file : Option (List Octet)) (id : JsString) :
    (store.adoptDiskTail file id).1.records.length ≤ store.records.length + 1 := by
  rw [EvidenceStore.adoptDiskTail]
  split
  · exact Nat.le_succ _
  · split
    · exact Nat.le_succ _
    · simp

/-- A store that has not seen the last record of its file adopts it. -/
theorem adoptDiskTail_missed {store : EvidenceStore} {file : Option (List Octet)} {last : Evidence}
    {number : Nat} (tail : diskTail file = some last)
    (missed : store.records.getLast?.map Evidence.digest ≠ some last.digest)
    (chained : ∃ link, last.chain = some link) (notLegacy : store.status ≠ some .legacy)
    (named : last.id = evidenceId number) (id : JsString) :
    store.adoptDiskTail file id =
      (⟨store.records ++ [last], some .chained⟩, evidenceId (number + 1)) := by
  obtain ⟨link, pointer⟩ := chained
  rw [EvidenceStore.adoptDiskTail, tail]
  simp only [if_neg missed, named, evidenceNumber_evidenceId, pointer, if_neg notLegacy]
  rfl

/-- A store that has seen the last record of its file adopts nothing. -/
theorem adoptDiskTail_seen {store : EvidenceStore} {file : Option (List Octet)} {last : Evidence}
    (tail : diskTail file = some last)
    (seen : store.records.getLast?.map Evidence.digest = some last.digest) (id : JsString) :
    store.adoptDiskTail file id = (store, id) := by
  rw [EvidenceStore.adoptDiskTail, tail]
  exact if_pos seen

/-- A store that has not seen the last record of its file adds as one that has. -/
theorem add_eq_of_adopted {store caught : EvidenceStore} {file : Option (List Octet)}
    {draft : EvidenceDraft}
    (adopts : store.adoptDiskTail file (evidenceId (store.records.length + 1)) =
      (caught, evidenceId (caught.records.length + 1)))
    (nothing : caught.adoptDiskTail file (evidenceId (caught.records.length + 1)) =
      (caught, evidenceId (caught.records.length + 1))) :
    store.add sha256Hex file (store.mint draft) = caught.add sha256Hex file (caught.mint draft) := by
  have stale : store.adoptDiskTail file (store.mint draft).id =
      (caught, evidenceId (caught.records.length + 1)) := adopts
  have current : caught.adoptDiskTail file (caught.mint draft).id =
      (caught, evidenceId (caught.records.length + 1)) := nothing
  rw [EvidenceStore.add, EvidenceStore.add, stale, current]
  rfl

end EvidenceStore

/-! ## The log under its writers -/

section Writers

variable {Writer : Type} [DecidableEq Writer] {sha256Hex : JsString → JsString}
  {shared : SharedEvidence Writer}

omit [DecidableEq Writer] in
/-- The log is consistent and its records are numbered from one on. -/
structure SharedEvidence.Numbered (sha256Hex : JsString → JsString)
    (shared : SharedEvidence Writer) : Prop where
  consistent : SharedLog.Consistent (evidenceJournal sha256Hex)
    (EvidenceStore.Follows sha256Hex) id (EvidenceStore.Sound sha256Hex) shared
  numbers : shared.log.map Evidence.id =
    (List.range shared.log.length).map fun index => EvidenceStore.evidenceId (index + 1)

omit [DecidableEq Writer] in
theorem SharedEvidence.numbered_start :
    SharedEvidence.Numbered sha256Hex (SharedLog.start : SharedEvidence Writer) :=
  ⟨SharedLog.consistent_start (evidenceJournal_sharedLaws sha256Hex), rfl⟩

omit [DecidableEq Writer] in
/-- A store remembers records of the log. -/
theorem SharedEvidence.Numbered.remembered (numbered : shared.Numbered sha256Hex) {writer : Writer}
    {store : EvidenceStore} (found : shared.stores writer = some store) :
    store.Sound sha256Hex ∧ store.records <+: shared.log := by
  have remembers := numbered.consistent.remembered writer store found
  have records := remembers.records
  rw [List.map_id, List.map_id] at records
  exact ⟨remembers.sound, records⟩

omit [DecidableEq Writer] in
/-- The identifier of the last record. -/
theorem SharedEvidence.Numbered.last_id (numbered : shared.Numbered sha256Hex) {last : Evidence}
    (ends : shared.log.getLast? = some last) :
    last.id = EvidenceStore.evidenceId shared.log.length := by
  obtain ⟨initial, split⟩ := List.getLast?_eq_some_iff.mp ends
  have numbers := numbered.numbers
  rw [split, List.length_append, List.length_singleton, List.range_succ, List.map_append,
    List.map_append] at numbers
  have same := (List.append_inj' numbers rfl).2
  rw [split, List.length_append, List.length_singleton]
  exact (List.cons.inj same).1

omit [DecidableEq Writer] in
/-- The last record of the file is the last one of the log. -/
theorem SharedEvidence.Numbered.diskTail (numbered : shared.Numbered sha256Hex) :
    EvidenceStore.diskTail shared.file = shared.log.getLast? := by
  obtain ⟨texts, reference, complete, follows, records⟩ := numbered.consistent.written
  rw [List.map_id, List.map_id] at records
  have held : reference.records = shared.log := records
  rcases complete with file | ⟨file, rfl⟩
  · rw [file, follows.diskTail, held]
  · have nothing : reference.records = [] := List.forall₂_nil_left_iff.mp follows.lines
    rw [file, ← held, nothing]
    rfl

omit [DecidableEq Writer] in
/-- A store that adds nearly up to date adds as a store that follows the file. -/
theorem SharedEvidence.Numbered.caught (numbered : shared.Numbered sha256Hex) {writer : Writer}
    {store : EvidenceStore} (found : shared.stores writer = some store)
    (nearly : store.records.length = shared.log.length ∨
      (store.records.length + 1 = shared.log.length ∧
        store.records.getLast?.map Evidence.digest ≠ shared.log.getLast?.map Evidence.digest))
    (draft : EvidenceDraft) :
    ∃ caught texts, Complete shared.file texts ∧ EvidenceStore.Follows sha256Hex caught texts ∧
      caught.records = shared.log ∧ store.add sha256Hex shared.file (store.mint draft) =
        caught.add sha256Hex shared.file (caught.mint draft) := by
  have shares := evidenceJournal_sharedLaws sha256Hex
  obtain ⟨sound, known⟩ := numbered.remembered found
  obtain ⟨texts, reference, complete, follows, records⟩ := numbered.consistent.written
  rw [List.map_id, List.map_id] at records
  have held : reference.records = shared.log := records
  rcases nearly with all | ⟨allButOne, fresh⟩
  · have same : store.records = shared.log := known.eq_of_length all
    refine ⟨store, texts, complete, shares.follows store reference texts sound ?_ follows, same, rfl⟩
    rw [List.map_id, List.map_id]
    exact same.trans held.symm
  · have nonempty : shared.log ≠ [] := by
      intro empty
      rw [empty] at allButOne
      cases allButOne
    obtain ⟨last, ends⟩ := Option.ne_none_iff_exists'.mp (mt List.getLast?_eq_none_iff.mp nonempty)
    obtain ⟨initial, split⟩ := List.getLast?_eq_some_iff.mp ends
    have same : store.records = initial := by
      rw [split, List.length_append, List.length_singleton] at allButOne
      rw [split] at known
      exact (List.prefix_of_prefix_length_le known (List.prefix_append initial [last])
        (by omega)).eq_of_length (by omega)
    have chained : ∃ link, last.chain = some link :=
      follows.linked.last_link (held ▸ ends)
    have followed : EvidenceStore.Follows sha256Hex ⟨shared.log, some .chained⟩ texts := by
      refine shares.follows _ reference texts ?_ ?_ follows
      · exact ⟨held ▸ follows.storable, held ▸ follows.digests, nofun⟩
      · rw [List.map_id, List.map_id]
        exact held.symm
    refine ⟨_, texts, complete, followed, rfl, EvidenceStore.add_eq_of_adopted ?_
      (followed.adoptDiskTail complete _)⟩
    rw [ends] at fresh
    rw [EvidenceStore.adoptDiskTail_missed (numbered.diskTail.trans ends) fresh chained
      sound.notLegacy (numbered.last_id ends), same, ← split]

/-- An addition of a store that is nearly up to date writes the record with the next
identifier, and the store holds the whole log after it. -/
theorem SharedEvidence.Numbered.append (numbered : shared.Numbered sha256Hex) {writer : Writer}
    {store : EvidenceStore} (found : shared.stores writer = some store)
    (nearly : store.records.length = shared.log.length ∨
      (store.records.length + 1 = shared.log.length ∧
        store.records.getLast?.map Evidence.digest ≠ shared.log.getLast?.map Evidence.digest))
    (draft : EvidenceDraft) :
    ∃ next evidence, shared.act sha256Hex (.append writer draft) =
        shared.push (evidenceJournal sha256Hex) writer next evidence ∧
      next.records = shared.log ++ [evidence] ∧
      SharedEvidence.Numbered sha256Hex
        (shared.push (evidenceJournal sha256Hex) writer next evidence) := by
  have shares := evidenceJournal_sharedLaws sha256Hex
  obtain ⟨caught, texts, complete, followed, held, same⟩ := numbered.caught found nearly draft
  obtain ⟨next, evidence, added, records, nextFollows⟩ := followed.add complete (caught.mint draft)
  have identified := (EvidenceStore.add_ok added).1
  rw [followed.adoptDiskTail complete] at identified
  have ran : (evidenceJournal sha256Hex).append store shared.file (store.mint draft) =
      .ok (next, evidence) := same.trans added
  have whole : next.records = shared.log ++ [evidence] := by rw [records, held]
  refine ⟨next, evidence, ?_, whole, numbered.consistent.push shares writer complete nextFollows ?_,
    ?_⟩
  · simp only [SharedEvidence.act, SharedLog.act, found, ran]
  · rw [List.map_id, List.map_id]
    exact whole
  · show (shared.log ++ [evidence]).map Evidence.id =
      (List.range (shared.log ++ [evidence]).length).map _
    rw [List.map_append, numbered.numbers, List.length_append, List.length_singleton,
      List.range_succ, List.map_append, List.map_singleton, List.map_singleton, identified, ← held]
    rfl

theorem SharedEvidence.Numbered.act (numbered : shared.Numbered sha256Hex) {op : EvidenceOp Writer}
    (nearly : shared.NearlyUpToDate op) :
    (shared.act sha256Hex op).Numbered sha256Hex ∧ shared.InMemory sha256Hex op := by
  have shares := evidenceJournal_sharedLaws sha256Hex
  cases op with
  | create writer =>
      exact ⟨⟨numbered.consistent.create shares writer, numbered.numbers⟩, trivial⟩
  | load writer =>
      obtain ⟨store, loaded, -, remembers⟩ :=
        numbered.consistent.loads (evidenceJournal_laws sha256Hex) shares
      have acted : shared.act sha256Hex (.load writer) = shared.keep writer store := by
        simp only [SharedEvidence.act, SharedLog.act, loaded]
      refine ⟨?_, trivial⟩
      rw [acted]
      exact ⟨numbered.consistent.keep writer remembers, numbered.numbers⟩
  | append writer draft =>
      cases found : shared.stores writer with
      | none =>
          have acted : shared.act sha256Hex (.append writer draft) = shared := by
            simp only [SharedEvidence.act, SharedLog.act, found]
          refine ⟨acted.symm ▸ numbered, fun store keeps => ?_⟩
          rw [acted, found] at keeps
          cases keeps
      | some store =>
          obtain ⟨next, evidence, acted, whole, after⟩ :=
            numbered.append found (nearly store found) draft
          refine ⟨acted ▸ after, fun kept keeps => ?_⟩
          rw [acted] at keeps ⊢
          simp only [SharedLog.push, Function.update_self, Option.some.injEq] at keeps
          exact keeps ▸ whole

omit [DecidableEq Writer] in
/-- A numbered log is coherent. -/
theorem SharedEvidence.Numbered.coherent (numbered : shared.Numbered sha256Hex) :
    shared.Coherent sha256Hex := by
  obtain ⟨store, loaded, records, -⟩ := numbered.consistent.loads
    (evidenceJournal_laws sha256Hex) (evidenceJournal_sharedLaws sha256Hex)
  rw [evidenceJournal_load] at loaded
  rw [List.map_id] at records
  refine ⟨⟨store, loaded, records⟩, ?_⟩
  rw [numbered.numbers]
  refine List.nodup_range.map fun first second same => ?_
  have equal := EvidenceStore.evidenceId_injective same
  omega

/-- A store that misses more than the last record, or that takes it for one it has seen, does
not hold the log after its addition. -/
theorem SharedEvidence.Numbered.not_inMemory (numbered : shared.Numbered sha256Hex)
    {op : EvidenceOp Writer} (stale : ¬ shared.NearlyUpToDate op) :
    ¬ shared.InMemory sha256Hex op := by
  intro inMemory
  cases op with
  | create writer => exact stale trivial
  | load writer => exact stale trivial
  | append writer draft =>
      simp only [NearlyUpToDate, not_forall, not_or, not_and, not_not] at stale
      obtain ⟨store, found, notAll, taken⟩ := stale
      have shorter := (numbered.remembered found).2.length_le
      cases added : (evidenceJournal sha256Hex).append store shared.file (store.mint draft) with
      | error error =>
          have acted : shared.act sha256Hex (.append writer draft) = shared := by
            simp only [SharedEvidence.act, SharedLog.act, found, added]
          have whole := inMemory store (by rw [acted]; exact found)
          rw [acted] at whole
          exact notAll (congrArg List.length whole)
      | ok result =>
          obtain ⟨next, evidence⟩ := result
          have acted : shared.act sha256Hex (.append writer draft) =
              shared.push (evidenceJournal sha256Hex) writer next evidence := by
            simp only [SharedEvidence.act, SharedLog.act, found, added]
          have whole := inMemory next (by rw [acted]; exact SharedLog.push_stores_self ..)
          rw [acted] at whole
          have records := (EvidenceStore.add_ok added).2.symm.trans whole
          have adopted := List.append_cancel_right records
          by_cases allButOne : store.records.length + 1 = shared.log.length
          · -- the last record has the digest of the one before it, and is not adopted
            have nonempty : shared.log ≠ [] := by
              intro empty
              rw [empty] at allButOne
              cases allButOne
            obtain ⟨last, ends⟩ :=
              Option.ne_none_iff_exists'.mp (mt List.getLast?_eq_none_iff.mp nonempty)
            have seen := taken allButOne
            rw [ends] at seen
            rw [EvidenceStore.adoptDiskTail_seen (numbered.diskTail.trans ends) seen] at adopted
            exact notAll (congrArg List.length adopted)
          · have bound := EvidenceStore.adoptDiskTail_length store shared.file (store.mint draft).id
            rw [adopted] at bound
            omega

/-- The evidence log is coherent after a run of its writers, and every addition leaves its
store with the records of the file, if and only if every addition was made by a store that
missed at most the last record. -/
theorem shared_evidence_log_iff (sha256Hex : JsString → JsString) (ops : List (EvidenceOp Writer)) :
    ((run (SharedEvidence.act sha256Hex) ops SharedLog.start).Coherent sha256Hex ∧
      EveryStep (SharedEvidence.act sha256Hex) (SharedEvidence.InMemory sha256Hex) ops
        SharedLog.start) ↔
      EveryStep (SharedEvidence.act sha256Hex) SharedEvidence.NearlyUpToDate ops
        SharedLog.start := by
  have numbered : ∀ ops : List (EvidenceOp Writer),
      EveryStep (SharedEvidence.act sha256Hex) SharedEvidence.NearlyUpToDate ops SharedLog.start →
      (run (SharedEvidence.act sha256Hex) ops SharedLog.start).Numbered sha256Hex :=
    fun ops steps => steps.invariant SharedEvidence.numbered_start
      fun shared op nearly numbered => (numbered.act nearly).1
  constructor
  · rintro ⟨-, inMemory⟩
    by_contra stale
    obtain ⟨before, op, after, rfl, earlier, failure⟩ := exists_first_failure stale
    exact (numbered before earlier).not_inMemory failure
      ((everyStep_append before (op :: after) _).mp inMemory).2.1
  · exact fun steps => ⟨(numbered ops steps).coherent, steps.of_invariant
      SharedEvidence.numbered_start (fun shared op nearly numbered => (numbered.act nearly).1)
      fun shared op nearly numbered => (numbered.act nearly).2⟩

/-- A record of a check by hand. -/
def checkedByHand : EvidenceDraft where
  runId := js "run-1"
  taskId := none
  criterionId := some (js "C-1")
  propertyRefs := [js "P-1"]
  kind := .human
  outcome := .supports
  producer := ⟨.human, none⟩
  timestamp := ⟨js "2026-01-01T00:00:00.000Z", by decide⟩
  repositoryRevision := js "0a1b2c"
  red := false
  payload := Json.null

/-- One store adds two records while another one has the file open, which then adds a
third. -/
def addTwoBetween : List (EvidenceOp Bool) :=
  [.create false, .load true, .append false checkedByHand, .append false checkedByHand,
    .append true checkedByHand]

/-- The other store adopts the second record and never sees the first one. -/
theorem addTwoBetween_not_inMemory :
    ¬ ((run (SharedEvidence.act id) addTwoBetween SharedLog.start).Coherent id ∧
      EveryStep (SharedEvidence.act id) (SharedEvidence.InMemory id) addTwoBetween
        SharedLog.start) := by
  rintro ⟨-, -, -, -, -, last, -⟩
  have created := ((@SharedEvidence.numbered_start Bool id).act
    (show SharedEvidence.NearlyUpToDate _ (.create false) from trivial)).1
  have opened := (created.act (show SharedEvidence.NearlyUpToDate _ (.load true) from trivial)).1
  have first : (SharedEvidence.act id (.load true) (SharedEvidence.act id (.create false)
      SharedLog.start)).stores false = some (HashChain.Log.empty : EvidenceStore) := rfl
  have other : (SharedEvidence.act id (.load true) (SharedEvidence.act id (.create false)
      SharedLog.start)).stores true = some (HashChain.Log.empty : EvidenceStore) := rfl
  obtain ⟨next, evidence, acted, whole, after⟩ := opened.append first (Or.inl rfl) checkedByHand
  obtain ⟨second, another, actedAgain, -, afterwards⟩ := after.append
    (SharedLog.push_stores_self ..) (Or.inl (congrArg List.length whole)) checkedByHand
  rw [acted, actedAgain] at last
  refine @SharedEvidence.Numbered.not_inMemory _ _ _ _ afterwards (.append true checkedByHand)
    (fun nearly => ?_) last
  rcases nearly HashChain.Log.empty other with all | ⟨allButOne, -⟩
  · exact absurd all.symm (Nat.succ_ne_zero 1)
  · exact absurd (Nat.succ.inj allButOne).symm (Nat.succ_ne_zero 0)

end Writers

end SpecAsCode.Runtime
