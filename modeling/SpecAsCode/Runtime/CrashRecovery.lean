import SpecAsCode.Runtime.EventStore
import SpecAsCode.Runtime.EvidenceStore

/-!
# Recovery of a log from an interrupted append

A store that loads a log whose last append was interrupted continues a consistent file
only when the interruption left nothing or all of the last line.
-/

namespace SpecAsCode.Runtime

open SpecAsCode.Js
open SpecAsCode.Core
open SpecAsCode.Schema
open SpecAsCode.Text

/-! ## Journals -/

/-- A store over a log file: how the file is read and how a record is appended. -/
structure Journal (Record State Refusal Store Input Error : Type) where
  reader : LogReader Record State Refusal
  start : State
  ofState : State → Store
  records : Store → List Record
  append : Store → Option (List Octet) → Input → Except Error (Store × Record)
  line : Record → JsString

section Journal

variable {Record State Refusal Store Input Error : Type}
  (journal : Journal Record State Refusal Store Input Error)

/-- `load` of a fresh store. -/
def Journal.load (file : Option (List Octet)) : Except (LoadError Refusal) Store :=
  (loadFile journal.reader journal.start file).map journal.ofState

/-- A sequence of appends. -/
def Journal.appendAll (store : Store) (file : Option (List Octet)) (inputs : List Input) :
    Except Error (Store × Option (List Octet) × List Record) :=
  appendEach journal.append journal.line store file inputs

/-- A file loads, and after further appends of the loaded store it loads again, as the
records of the first load followed by the appended ones. -/
def Journal.Recovers (file : Option (List Octet)) (inputs : List Input) : Prop :=
  ∃ loaded, journal.load file = .ok loaded ∧
    ∃ last written appended, journal.appendAll loaded file inputs = .ok (last, written, appended) ∧
      ∃ reloaded, journal.load written = .ok reloaded ∧
        journal.records reloaded = journal.records loaded ++ appended

/-- The file consists of complete lines; there may be no file before the first one. -/
def Complete (file : Option (List Octet)) (texts : List JsString) : Prop :=
  file = some (lineOctets texts) ∨ (file = none ∧ texts = [])

/-- Appending a line to a complete file. -/
theorem Complete.append {file : Option (List Octet)} {texts : List JsString}
    (complete : Complete file texts) (text : JsString) :
    Complete (appendLine file text) (texts ++ [text]) := by
  left
  rw [appendLine, lineOctets_snoc]
  rcases complete with rfl | ⟨rfl, rfl⟩
  · rfl
  · rfl

/-- What recovery rests on.  `Follows` relates a store to the lines of its file, `stored`
is what a load makes of a record, and `Plain` holds of the inputs whose records it does
not change. -/
structure Journal.Laws (Follows : Store → List JsString → Prop) (stored : Record → Record)
    (Plain : Input → Prop) : Prop where
  stored_stored : ∀ record, stored (stored record) = stored record
  loads : ∀ store texts, Follows store texts → ∃ state,
    List.Forall₂ (RecordLine journal.reader) texts ((journal.records store).map stored) ∧
      Accepts journal.reader journal.start ((journal.records store).map stored) state ∧
      journal.records (journal.ofState state) = (journal.records store).map stored ∧
      Follows (journal.ofState state) texts
  appends : ∀ store texts file input, Follows store texts → Complete file texts →
    (journal.records store).length + 1 < 2 ^ 53 →
    ∃ next record, journal.append store file input = .ok (next, record) ∧
      journal.records next = journal.records store ++ [record] ∧
      Follows next (texts ++ [journal.line record]) ∧ (stored record = record ↔ Plain input)
  writes : ∀ store texts file input next record, Follows store texts →
    (journal.records store).length + 1 < 2 ^ 53 →
    journal.append store file input = .ok (next, record) → LineText (journal.line record)

/-- The last pair of two related lists. -/
private theorem forall₂_snoc {Left Right : Type} {relation : Left → Right → Prop}
    {lefts : List Left} {rights : List Right} {left : Left} {right : Right}
    (related : List.Forall₂ relation (lefts ++ [left]) (rights ++ [right])) :
    List.Forall₂ relation lefts rights ∧ relation left right := by
  have reversed := List.forall₂_reverse_iff.mpr related
  rw [List.reverse_append, List.reverse_append, List.reverse_singleton, List.reverse_singleton,
    List.singleton_append, List.singleton_append, List.forall₂_cons,
    List.forall₂_reverse_iff] at reversed
  exact ⟨reversed.2, reversed.1⟩

variable {journal} {Follows : Store → List JsString → Prop} {stored : Record → Record}
  {Plain : Input → Prop} (laws : journal.Laws Follows stored Plain)

omit laws in
/-- Appends extend the file. -/
theorem appendAll_extends {inputs : List Input} : ∀ {store : Store} {octets : List Octet} {last
    written appended}, journal.appendAll store (some octets) inputs = .ok (last, written, appended) →
      ∃ tail, written = some (octets ++ tail) := by
  induction inputs with
  | nil =>
      intro store octets last written appended ran
      cases ran
      exact ⟨[], by simp⟩
  | cons input inputs inductionHypothesis =>
      intro store octets last written appended ran
      rw [Journal.appendAll, appendEach] at ran
      cases first : journal.append store (some octets) input with
      | error error => rw [first] at ran; cases ran
      | ok result =>
          obtain ⟨next, record⟩ := result
          rw [first] at ran
          cases rest : appendEach journal.append journal.line next
              (appendLine (some octets) (journal.line record)) inputs with
          | error error => simp only [Except.bind, rest] at ran; cases ran
          | ok result =>
              obtain ⟨other, otherWritten, others⟩ := result
              simp only [Except.bind, rest] at ran
              cases ran
              obtain ⟨tail, shape⟩ := inductionHypothesis rest
              exact ⟨encodeUtf8 (journal.line record ++ [newline]) ++ tail, by
                rw [shape, Option.getD_some, List.append_assoc]⟩

omit laws in
/-- Every append creates one record. -/
theorem appendAll_length {inputs : List Input} : ∀ {store : Store} {file : Option (List Octet)} {last
    written appended}, journal.appendAll store file inputs = .ok (last, written, appended) →
      appended.length = inputs.length := by
  induction inputs with
  | nil =>
      intro store file last written appended ran
      cases ran
      rfl
  | cons input inputs inductionHypothesis =>
      intro store file last written appended ran
      rw [Journal.appendAll, appendEach] at ran
      cases first : journal.append store file input with
      | error error => rw [first] at ran; cases ran
      | ok result =>
          obtain ⟨next, record⟩ := result
          rw [first] at ran
          cases rest : appendEach journal.append journal.line next
              (appendLine file (journal.line record)) inputs with
          | error error => simp only [Except.bind, rest] at ran; cases ran
          | ok result =>
              obtain ⟨other, otherWritten, others⟩ := result
              simp only [Except.bind, rest] at ran
              cases ran
              rw [List.length_cons, List.length_cons, inductionHypothesis rest]

include laws

/-- Appends to a consistent file keep it consistent. -/
theorem Journal.Laws.appendAll (inputs : List Input) : ∀ {store : Store} {texts : List JsString}
    {file : Option (List Octet)}, Follows store texts → Complete file texts →
      (journal.records store).length + inputs.length < 2 ^ 53 →
      ∃ last written appended, journal.appendAll store file inputs = .ok (last, written, appended) ∧
        journal.records last = journal.records store ++ appended ∧
        Follows last (texts ++ appended.map journal.line) ∧
        Complete written (texts ++ appended.map journal.line) ∧
        (appended.map stored = appended ↔ ∀ input ∈ inputs, Plain input) := by
  induction inputs with
  | nil =>
      intro store texts file follows complete _
      exact ⟨store, file, [], rfl, by simp, by simpa using follows, by simpa using complete, by simp⟩
  | cons input inputs inductionHypothesis =>
      intro store texts file follows complete small
      rw [List.length_cons] at small
      obtain ⟨next, record, ran, records, nextFollows, plain⟩ :=
        laws.appends store texts file input follows complete (by omega)
      obtain ⟨last, written, appended, rest, lastRecords, lastFollows, lastComplete, plains⟩ :=
        inductionHypothesis nextFollows (complete.append (journal.line record))
          (by rw [records, List.length_append, List.length_singleton]; omega)
      refine ⟨last, written, record :: appended, ?_, ?_, ?_, ?_, ?_⟩
      · rw [Journal.appendAll] at rest ⊢
        rw [appendEach, ran, Except.bind]
        simp only [rest]
        rfl
      · rw [lastRecords, records, List.append_assoc]
        rfl
      · rw [List.append_assoc] at lastFollows
        exact lastFollows
      · rw [List.append_assoc] at lastComplete
        exact lastComplete
      · rw [List.map_cons, List.cons.injEq, plain, plains, List.forall_mem_cons]

/-- A consistent file loads as the records of its store. -/
theorem Journal.Laws.load {store : Store} {texts : List JsString} (follows : Follows store texts)
    {file : Option (List Octet)} (complete : Complete file texts) :
    ∃ loaded, journal.load file = .ok loaded ∧
      journal.records loaded = (journal.records store).map stored ∧ Follows loaded texts := by
  obtain ⟨state, lines, accepts, records, loadedFollows⟩ := laws.loads store texts follows
  refine ⟨journal.ofState state, ?_, records, loadedFollows⟩
  rcases complete with rfl | ⟨rfl, rfl⟩
  · rw [Journal.load, loadFile_complete lines accepts]
    rfl
  · generalize (journal.records store).map stored = kept at lines accepts
    cases lines
    cases accepts
    rfl

/-- Recovery from a consistent file: the appended records are returned as they were
appended. -/
theorem Journal.Laws.recovers_complete {store : Store} {texts : List JsString}
    (follows : Follows store texts) {file : Option (List Octet)} (complete : Complete file texts)
    (inputs : List Input) (small : (journal.records store).length + inputs.length < 2 ^ 53) :
    journal.Recovers file inputs ↔ ∀ input ∈ inputs, Plain input := by
  obtain ⟨loaded, loads, records, loadedFollows⟩ := laws.load follows complete
  obtain ⟨last, written, appended, ran, lastRecords, lastFollows, lastComplete, plains⟩ :=
    laws.appendAll inputs loadedFollows complete (by rw [records, List.length_map]; exact small)
  obtain ⟨reloaded, reloads, reloadedRecords, -⟩ := laws.load lastFollows lastComplete
  have storedAgain : (journal.records loaded).map stored = journal.records loaded := by
    rw [records, List.map_map]
    exact List.map_congr_left fun record _ => laws.stored_stored record
  have returned : journal.records reloaded = journal.records loaded ++ appended.map stored := by
    rw [reloadedRecords, lastRecords, List.map_append, storedAgain]
  rw [← plains]
  constructor
  · rintro ⟨other, otherLoads, otherLast, otherWritten, others, otherRan, again, otherReloads, same⟩
    rw [loads] at otherLoads
    cases otherLoads
    rw [ran] at otherRan
    cases otherRan
    rw [reloads] at otherReloads
    cases otherReloads
    rw [returned] at same
    exact List.append_cancel_left same
  · intro same
    exact ⟨loaded, loads, last, written, appended, ran, reloaded, reloads, by rw [returned, same]⟩

/-- An append to a line that was cut, or has no newline yet, spoils the log. -/
theorem Journal.Laws.not_recovers {store : Store} {texts : List JsString}
    (follows : Follows store texts) {text : JsString} (line : LineText text) {count : Nat}
    (written : count ≠ 0) (inside : count ≤ (encodeUtf8 text).length) {loaded : Store}
    {loadedTexts : List JsString} (loadedFollows : Follows loaded loadedTexts)
    (loads : journal.load (some (lineOctets texts ++ (encodeUtf8 text).take count)) = .ok loaded)
    (small : (journal.records loaded).length + 1 < 2 ^ 53) (input : Input) (inputs : List Input) :
    ¬ journal.Recovers (some (lineOctets texts ++ (encodeUtf8 text).take count))
      (input :: inputs) := by
  rintro ⟨other, otherLoads, last, file, appended, ran, reloaded, reloads, -⟩
  rw [loads] at otherLoads
  cases otherLoads
  rw [Journal.appendAll, appendEach] at ran
  cases first : journal.append loaded (some (lineOctets texts ++ (encodeUtf8 text).take count))
      input with
  | error error => rw [first] at ran; cases ran
  | ok result =>
      obtain ⟨next, record⟩ := result
      rw [first] at ran
      have recordLine := laws.writes loaded loadedTexts _ input next record loadedFollows small first
      cases rest : appendEach journal.append journal.line next
          (appendLine (some (lineOctets texts ++ (encodeUtf8 text).take count))
            (journal.line record)) inputs with
      | error error => simp only [Except.bind, rest] at ran; cases ran
      | ok result =>
          obtain ⟨final, finalFile, others⟩ := result
          simp only [Except.bind, rest] at ran
          cases ran
          obtain ⟨tail, shape⟩ := appendAll_extends rest
          obtain ⟨noNewline, solid, broken⟩ := decodeUtf8_merged line recordLine written inside
          obtain ⟨state, lines, accepts, -, -⟩ := laws.loads store texts follows
          have spoiled := loadFile_corrupted lines accepts tail noNewline solid broken
          have octets : finalFile = some (lineOctets texts ++
              ((encodeUtf8 text).take count ++ encodeUtf8 (journal.line record) ++
                octet 10 :: tail)) := by
            rw [shape, Option.getD_some, recordLine.encode]
            simp only [List.append_assoc, List.singleton_append]
          rw [Journal.load, octets, spoiled] at reloads
          cases reloads

/-- Recovery from an append that wrote only the first octets of its line.  The file can
always be loaded; it can be continued exactly when nothing or all of the line was written. -/
theorem Journal.Laws.recovers_iff {store : Store} {texts : List JsString} {file : Option (List Octet)}
    (follows : Follows store texts) (complete : Complete file texts) {input : Input} {next : Store}
    {record : Record} (ran : journal.append store file input = .ok (next, record))
    {count : Nat} (inside : count ≤ (encodeUtf8 (journal.line record ++ [newline])).length)
    (inputs : List Input)
    (small : (journal.records store).length + inputs.length + 1 < 2 ^ 53) :
    (∃ loaded, journal.load (some (file.getD [] ++
        (encodeUtf8 (journal.line record ++ [newline])).take count)) = .ok loaded) ∧
      (journal.Recovers (some (file.getD [] ++
          (encodeUtf8 (journal.line record ++ [newline])).take count)) inputs ↔
        (count = 0 ∨ count = (encodeUtf8 (journal.line record ++ [newline])).length ∨ inputs = []) ∧
          ∀ input ∈ inputs, Plain input) := by
  obtain ⟨other, otherRecord, otherRan, records, nextFollows, -⟩ :=
    laws.appends store texts file input follows complete (by omega)
  rw [ran] at otherRan
  cases otherRan
  have line := laws.writes store texts file input next record follows (by omega) ran
  have before : file.getD [] = lineOctets texts := by
    rcases complete with rfl | ⟨rfl, rfl⟩ <;> rfl
  have length : (encodeUtf8 (journal.line record ++ [newline])).length =
      (encodeUtf8 (journal.line record)).length + 1 := by
    rw [line.encode, List.length_append, List.length_singleton]
  rw [before]
  by_cases nothing : count = 0
  · rw [nothing, List.take_zero, List.append_nil]
    have fileComplete : Complete (some (lineOctets texts)) texts := Or.inl rfl
    obtain ⟨loaded, loads, -, -⟩ := laws.load follows fileComplete
    refine ⟨⟨loaded, loads⟩, ?_⟩
    rw [laws.recovers_complete follows fileComplete inputs (by omega)]
    simp
  by_cases everything : count = (encodeUtf8 (journal.line record ++ [newline])).length
  · rw [everything, List.take_length, ← lineOctets_snoc]
    have fileComplete : Complete (some (lineOctets (texts ++ [journal.line record])))
        (texts ++ [journal.line record]) := Or.inl rfl
    obtain ⟨loaded, loads, -, -⟩ := laws.load nextFollows fileComplete
    refine ⟨⟨loaded, loads⟩, ?_⟩
    rw [laws.recovers_complete nextFollows fileComplete inputs
      (by rw [records, List.length_append, List.length_singleton]; omega)]
    simp
  -- some of the line is there, but not its newline
  have short : count ≤ (encodeUtf8 (journal.line record)).length := by omega
  rw [line.encode, List.take_append_of_le_length short]
  obtain ⟨loaded, loads, fewer, loadedTexts, loadedFollows⟩ : ∃ loaded,
      journal.load (some (lineOctets texts ++ (encodeUtf8 (journal.line record)).take count)) =
        .ok loaded ∧ (journal.records loaded).length ≤ (journal.records store).length + 1 ∧
      ∃ loadedTexts, Follows loaded loadedTexts := by
    by_cases whole : count = (encodeUtf8 (journal.line record)).length
    · rw [whole, List.take_length]
      obtain ⟨state, lines, accepts, stateRecords, stateFollows⟩ := laws.loads _ _ nextFollows
      refine ⟨journal.ofState state, ?_, ?_, _, stateFollows⟩
      · rw [records, List.map_append, List.map_singleton] at lines accepts
        obtain ⟨firstLines, lastLine⟩ := forall₂_snoc lines
        obtain ⟨middle, firstAccepts, lastAccepts⟩ := accepts_snoc accepts
        rw [Journal.load, loadFile_unfinished firstLines firstAccepts lastLine lastAccepts]
        rfl
      · rw [stateRecords, List.length_map, records, List.length_append, List.length_singleton]
    · obtain ⟨state, lines, accepts, stateRecords, stateFollows⟩ := laws.loads _ _ follows
      obtain ⟨-, noNewline, broken, -⟩ := decodeUtf8_cut line nothing (by omega)
      refine ⟨journal.ofState state, ?_, ?_, _, stateFollows⟩
      · rw [Journal.load, loadFile_torn lines accepts noNewline broken]
        rfl
      · rw [stateRecords, List.length_map]
        omega
  refine ⟨⟨loaded, loads⟩, ?_⟩
  cases inputs with
  | nil =>
      have trivially : journal.Recovers (some (lineOctets texts ++
          (encodeUtf8 (journal.line record)).take count)) [] :=
        ⟨loaded, loads, loaded, _, [], rfl, loaded, loads, by simp⟩
      simp [trivially]
  | cons input inputs =>
      have spoiled := laws.not_recovers follows line nothing short loadedFollows loads
        (by rw [List.length_cons] at small; omega) input inputs
      constructor
      · exact fun recovers => absurd recovers spoiled
      · rintro ⟨none | all | empty, -⟩
        · exact absurd none nothing
        · rw [← line.encode] at all
          exact absurd all everything
        · cases empty

end Journal

/-! ## The event log -/

/-- The event log of a run. -/
def eventJournal (sha256Hex : JsString → JsString) (runId : JsString) :
    Journal Event (HashChain.Log Event) (HashChain.Refusal CanonicalError) EventStore
      EventStore.Input CanonicalError where
  reader := eventReader sha256Hex
  start := HashChain.Log.empty
  ofState log := ⟨runId, log⟩
  records store := store.log.records
  append store _ input := store.append sha256Hex input
  line := EventStore.line

/-- No property of the payload is called `__proto__`. -/
def EventStore.Input.Plain (input : EventStore.Input) : Prop :=
  ∀ member ∈ input.payload, member.1 ≠ protoKey

theorem eventJournal_load (sha256Hex : JsString → JsString) (runId : JsString)
    (file : Option (List Octet)) :
    (eventJournal sha256Hex runId).load file = EventStore.load sha256Hex runId file := by
  rw [Journal.load, EventStore.load]
  show (loadFile (eventReader sha256Hex) HashChain.Log.empty file).map _ = _
  cases loadFile (eventReader sha256Hex) HashChain.Log.empty file <;> rfl

theorem stored_eq_iff (event : Event) :
    event.stored = event ↔ ∀ member ∈ event.payload, member.1 ≠ protoKey := by
  obtain ⟨seq, id, type, runId, timestamp, payload, chain⟩ := event
  simp [Event.stored, List.filter_eq_self]

theorem eventJournal_laws (sha256Hex : JsString → JsString) (runId : JsString) :
    (eventJournal sha256Hex runId).Laws (EventStore.Follows sha256Hex) Event.stored
      EventStore.Input.Plain where
  stored_stored := Event.stored_stored
  loads store texts follows :=
    ⟨_, follows.lines, follows.linked.acceptAll, rfl, follows.loaded runId⟩
  appends store texts file input follows _ small := by
    obtain ⟨next, event, ran, records, payload, -, nextFollows⟩ := follows.append input small
    refine ⟨next, event, ran, records, nextFollows, ?_⟩
    rw [stored_eq_iff, payload]
    rfl
  writes store texts file input next event follows small ran := by
    obtain ⟨other, otherEvent, otherRan, records, -, -, otherFollows⟩ := follows.append input small
    have same : store.append sha256Hex input = .ok (next, event) := ran
    rw [otherRan] at same
    cases same
    have storable := otherFollows.storable event (by rw [records]; simp)
    exact (@EventStore.recordLine sha256Hex event storable).line

/-! ## The evidence log -/

/-- The evidence log of a run. -/
def evidenceJournal (sha256Hex : JsString → JsString) :
    Journal Evidence (HashChain.Log Evidence) EvidenceRefusal EvidenceStore
      EvidenceStore.Input CanonicalError where
  reader := evidenceReader sha256Hex
  start := HashChain.Log.empty
  ofState := id
  records store := store.records
  append store file input := store.add sha256Hex file input
  line := EvidenceStore.line

theorem evidenceJournal_load (sha256Hex : JsString → JsString) (file : Option (List Octet)) :
    (evidenceJournal sha256Hex).load file = EvidenceStore.load sha256Hex file := by
  rw [Journal.load, EvidenceStore.load]
  show (loadFile (evidenceReader sha256Hex) HashChain.Log.empty file).map id = _
  cases loadFile (evidenceReader sha256Hex) HashChain.Log.empty file <;> rfl

/-- A record is never given an empty identifier. -/
theorem adoptDiskTail_id {store : EvidenceStore} {file : Option (List Octet)} {id : JsString}
    (nonempty : id ≠ []) : (store.adoptDiskTail file id).2 ≠ [] := by
  rw [EvidenceStore.adoptDiskTail]
  split
  next => exact nonempty
  next tail _ =>
    split
    next => exact nonempty
    next =>
      cases evidenceNumber : EvidenceStore.evidenceNumber tail.id with
      | none => exact nonempty
      | some number =>
          have padded : EvidenceStore.evidenceId (number + 1) =
              js "EV-" ++ (List.replicate (4 - (natText (number + 1)).length) (unit '0') ++
                natText (number + 1)) := List.append_assoc _ _ _
          show EvidenceStore.evidenceId (number + 1) ≠ []
          rw [padded]
          exact List.append_ne_nil_of_left_ne_nil (by decide) _

/-- Whatever the file is, `add` writes the line of a record. -/
theorem lineText_add {sha256Hex : JsString → JsString} {store next : EvidenceStore}
    {file : Option (List Octet)} {input : EvidenceStore.Input} {evidence : Evidence}
    (ran : store.add sha256Hex file input = .ok (next, evidence)) :
    LineText (EvidenceStore.line evidence) := by
  have identified := @adoptDiskTail_id store file input.id input.id_ne_nil
  rw [EvidenceStore.add] at ran
  generalize store.adoptDiskTail file input.id = adopted at ran identified
  obtain ⟨digest, known, nonempty⟩ := @EvidenceStore.exists_contentDigest sha256Hex
    (EvidenceStore.withChain input adopted.2 (EvidenceStore.nextChain adopted.1) [1])
    ⟨identified, input.timestamp_ne_nil, by simp [EvidenceStore.withChain], input.json⟩
  have content : contentDigest sha256Hex
      (EvidenceStore.withChain input adopted.2 (EvidenceStore.nextChain adopted.1) []) =
        .ok digest := known
  simp only [content] at ran
  cases ran
  exact (@EvidenceStore.recordLine sha256Hex _
    ⟨identified, input.timestamp_ne_nil, nonempty, input.json⟩).line

theorem evidenceJournal_laws (sha256Hex : JsString → JsString) :
    (evidenceJournal sha256Hex).Laws (EvidenceStore.Follows sha256Hex) id fun _ => True where
  stored_stored _ := rfl
  loads store texts follows := by
    have records : (HashChain.chainedLog store.records).records = store.records := rfl
    refine ⟨_, ?_, ?_, ?_, follows.loaded⟩
    · rw [List.map_id]
      exact follows.lines
    · rw [List.map_id]
      exact follows.accepts
    · rw [List.map_id]
      exact records
  appends store texts file input follows complete _ := by
    obtain ⟨next, evidence, ran, records, nextFollows⟩ := follows.add complete input
    exact ⟨next, evidence, ran, records, nextFollows, by simp⟩
  writes store texts file input next evidence _ _ ran := lineText_add ran

/-! ## Interrupted appends -/

/-- Crash recovery.  After any appends of a fresh store, an append that wrote only `count`
octets of its line leaves a file that can be loaded.  The loaded store can continue the
file exactly when none or all of the line was written, or nothing more is appended; and a
payload is returned as it was appended exactly when no property of it is called
`__proto__`. -/
theorem crash_recovery_iff (sha256Hex : JsString → JsString) :
    (∀ runId (inputs : List EventStore.Input) (input : EventStore.Input)
        (more : List EventStore.Input), inputs.length + more.length + 1 < 2 ^ 53 →
      ∃ store file events next event,
        (EventStore.fresh runId).appendAll sha256Hex none inputs = .ok (store, file, events) ∧
        store.append sha256Hex input = .ok (next, event) ∧
        ∀ count ≤ (encodeUtf8 (EventStore.line event ++ [newline])).length,
          (∃ loaded, EventStore.load sha256Hex runId (some (file.getD [] ++
            (encodeUtf8 (EventStore.line event ++ [newline])).take count)) = .ok loaded) ∧
          ((eventJournal sha256Hex runId).Recovers (some (file.getD [] ++
              (encodeUtf8 (EventStore.line event ++ [newline])).take count)) more ↔
            (count = 0 ∨ count = (encodeUtf8 (EventStore.line event ++ [newline])).length ∨
              more = []) ∧ ∀ input ∈ more, input.Plain)) ∧
    (∀ (inputs : List EvidenceStore.Input) (input : EvidenceStore.Input)
        (more : List EvidenceStore.Input), inputs.length + more.length + 1 < 2 ^ 53 →
      ∃ store file records next evidence,
        EvidenceStore.addAll sha256Hex HashChain.Log.empty none inputs =
          .ok (store, file, records) ∧
        EvidenceStore.add sha256Hex store file input = .ok (next, evidence) ∧
        ∀ count ≤ (encodeUtf8 (EvidenceStore.line evidence ++ [newline])).length,
          (∃ loaded, EvidenceStore.load sha256Hex (some (file.getD [] ++
            (encodeUtf8 (EvidenceStore.line evidence ++ [newline])).take count)) = .ok loaded) ∧
          ((evidenceJournal sha256Hex).Recovers (some (file.getD [] ++
              (encodeUtf8 (EvidenceStore.line evidence ++ [newline])).take count)) more ↔
            count = 0 ∨ count = (encodeUtf8 (EvidenceStore.line evidence ++ [newline])).length ∨
              more = [])) := by
  constructor
  · intro runId inputs input more small
    have laws := eventJournal_laws sha256Hex runId
    obtain ⟨store, file, events, ran, records, follows, complete, -⟩ :=
      laws.appendAll inputs (EventStore.fresh_follows runId) (Or.inr ⟨rfl, rfl⟩)
        (by simp [eventJournal, EventStore.fresh, HashChain.Log.empty]; omega)
    have length := appendAll_length ran
    have count : ((eventJournal sha256Hex runId).records store).length = inputs.length := by
      rw [records, ← length]
      simp [eventJournal, EventStore.fresh, HashChain.Log.empty]
    obtain ⟨next, event, appended, -⟩ :=
      laws.appends store _ file input follows complete (by omega)
    refine ⟨store, file, events, next, event, ran, appended, fun kept inside => ?_⟩
    have recovery := laws.recovers_iff follows complete appended inside more (by omega)
    rw [eventJournal_load] at recovery
    exact recovery
  · intro inputs input more small
    have laws := evidenceJournal_laws sha256Hex
    obtain ⟨store, file, records, ran, contents, follows, complete, -⟩ :=
      laws.appendAll inputs EvidenceStore.fresh_follows (Or.inr ⟨rfl, rfl⟩)
        (by simp [evidenceJournal, HashChain.Log.empty]; omega)
    have length := appendAll_length ran
    have count : ((evidenceJournal sha256Hex).records store).length = inputs.length := by
      rw [contents, ← length]
      simp [evidenceJournal, HashChain.Log.empty]
    obtain ⟨next, evidence, appended, -⟩ :=
      laws.appends store _ file input follows complete (by omega)
    refine ⟨store, file, records, next, evidence, ran, appended, fun kept inside => ?_⟩
    have recovery := laws.recovers_iff follows complete appended inside more (by omega)
    rw [evidenceJournal_load] at recovery
    simp only [implies_true, and_true] at recovery
    exact recovery

/-- An append of an event with an empty payload. -/
def runCreatedInput : EventStore.Input :=
  ⟨.runCreated, [], js "a", js "t", by decide, by decide, by decide⟩

/-- Runs with one append, and with none before it. -/
theorem crash_recovery_iff_runCreated :
    ∃ store file events next event,
      (EventStore.fresh (js "r")).appendAll id none [runCreatedInput] = .ok (store, file, events) ∧
        store.append id runCreatedInput = .ok (next, event) ∧
        (eventJournal id (js "r")).Recovers (some (file.getD [] ++
          (encodeUtf8 (EventStore.line event ++ [newline])).take 0)) [runCreatedInput] := by
  obtain ⟨store, file, events, next, event, ran, appended, recovery⟩ :=
    (crash_recovery_iff id).1 (js "r") [runCreatedInput] runCreatedInput [runCreatedInput]
      (by decide)
  refine ⟨store, file, events, next, event, ran, appended, (recovery 0 (Nat.zero_le _)).2.mpr ?_⟩
  exact ⟨Or.inl rfl, by simp [EventStore.Input.Plain, runCreatedInput]⟩

/-- The first line of a log was written without its newline.  The log is loaded, and after
one more append it is not loaded any more. -/
theorem not_recovers_missingNewline :
    ∃ next event, (EventStore.fresh (js "r")).append id runCreatedInput = .ok (next, event) ∧
      (∃ loaded, EventStore.load id (js "r") (some (encodeUtf8 (EventStore.line event))) =
        .ok loaded) ∧
      ¬ (eventJournal id (js "r")).Recovers (some (encodeUtf8 (EventStore.line event)))
        [runCreatedInput] := by
  have laws := eventJournal_laws id (js "r")
  have follows := @EventStore.fresh_follows id (js "r")
  obtain ⟨next, event, ran, -⟩ := follows.append runCreatedInput (by decide)
  have line := laws.writes _ _ none _ _ _ follows (by decide) ran
  have octets := line.encode
  have cut : (encodeUtf8 (EventStore.line event ++ [newline])).take
      (encodeUtf8 (EventStore.line event)).length = encodeUtf8 (EventStore.line event) := by
    rw [show encodeUtf8 (EventStore.line event ++ [newline]) = _ from octets]
    exact List.take_left
  have length : (encodeUtf8 (EventStore.line event ++ [newline])).length =
      (encodeUtf8 (EventStore.line event)).length + 1 := by
    rw [show encodeUtf8 (EventStore.line event ++ [newline]) = _ from octets, List.length_append]
    rfl
  have recovery := laws.recovers_iff follows (Or.inr ⟨rfl, rfl⟩) ran
    (show (encodeUtf8 (EventStore.line event)).length ≤ _ by
      rw [show (encodeUtf8 ((eventJournal id (js "r")).line event ++ [newline])).length = _ from
        length]
      omega)
    [runCreatedInput] (by decide)
  rw [eventJournal_load, Option.getD_none, List.nil_append] at recovery
  rw [show (encodeUtf8 ((eventJournal id (js "r")).line event ++ [newline])).take _ = _ from cut,
    show (encodeUtf8 ((eventJournal id (js "r")).line event ++ [newline])).length = _ from length]
    at recovery
  refine ⟨next, event, ran, recovery.1, fun recovers => ?_⟩
  obtain ⟨none | all | empty, -⟩ := recovery.2.mp recovers
  · exact line.encode_ne_nil (List.eq_nil_of_length_eq_zero none)
  · omega
  · cases empty

end SpecAsCode.Runtime
