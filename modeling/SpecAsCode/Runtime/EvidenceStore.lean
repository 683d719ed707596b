import SpecAsCode.Lib.HashChain
import SpecAsCode.Runtime.LogRecovery
import SpecAsCode.Schema.Evidence

/-!
# The evidence store

`EvidenceStore` reads the evidence log and appends to it.  Every record carries its own
digest and the digest of the record before it.
-/

namespace SpecAsCode.Runtime

open SpecAsCode.Js
open SpecAsCode.Core
open SpecAsCode.Schema
open SpecAsCode.Text

/-- How evidence records are chained. -/
def evidenceChain : HashChain.Format Evidence JsString CanonicalError where
  link := Evidence.chain
  digest evidence := .ok evidence.digest
  genesis := EVIDENCE_CHAIN_GENESIS

/-- Why an evidence record is refused. -/
inductive EvidenceRefusal where
  /-- The content has no digest. -/
  | uncanonical (error : CanonicalError)
  /-- The content does not match the recorded digest. -/
  | digestMismatch (id : JsString)
  | chain (refusal : HashChain.Refusal CanonicalError)

/-- The digest of a record's content. -/
def contentDigest (sha256Hex : JsString → JsString) (evidence : Evidence) :
    Except CanonicalError JsString :=
  digestOf sha256Hex (.object evidence.rest)

/-- The checks of a record on load. -/
def acceptEvidence (sha256Hex : JsString → JsString) (log : HashChain.Log Evidence)
    (evidence : Evidence) : Except EvidenceRefusal (HashChain.Log Evidence) :=
  match contentDigest sha256Hex evidence with
  | .error error => .error (.uncanonical error)
  | .ok digest =>
      if digest = evidence.digest then
        match HashChain.accept evidenceChain log evidence with
        | .error refusal => .error (.chain refusal)
        | .ok next => .ok next
      else
        .error (.digestMismatch evidence.id)

/-- How the evidence log is read. -/
def evidenceReader (sha256Hex : JsString → JsString) :
    LogReader Evidence (HashChain.Log Evidence) EvidenceRefusal where
  schema := evidenceSchema
  accept := acceptEvidence sha256Hex

/-- The records of a store and its chain status. -/
abbrev EvidenceStore := HashChain.Log Evidence

namespace EvidenceStore

/-- `Omit<Evidence, "digest">`, without a chain pointer: what a call of `add` is given.
Payloads are JSON values. -/
structure Input where
  id : JsString
  runId : JsString
  taskId : Option JsString
  criterionId : Option JsString
  propertyRefs : List JsString
  kind : EvidenceKind
  outcome : EvidenceOutcome
  producer : EvidenceProducer
  timestamp : JsString
  repositoryRevision : JsString
  red : Bool
  payload : JsValue
  id_ne_nil : id ≠ []
  timestamp_ne_nil : timestamp ≠ []
  json : payload.isJson = true

/-- The last line of a file that is not blank, as a record. -/
def diskTail (file : Option (List Octet)) : Option Evidence :=
  match file with
  | none => none
  | some octets =>
      match ((decodeUtf8 octets).splitOn newline).reverse.find? fun line => trim line ≠ [] with
      | none => none
      | some line => (parseJson (trim line)).bind evidenceSchema

/-- The number of an identifier `EV-` followed by digits. -/
def evidenceNumber (id : JsString) : Option Nat :=
  if startsWith id (js "EV-") then
    match (id.drop 3).mapM digitOf with
    | none => none
    | some [] => none
    | some digits => some (natOfDigits digits)
  else
    none

/-- `EV-` and a number with at least four digits. -/
def evidenceId (number : Nat) : JsString :=
  js "EV-" ++ List.replicate (4 - (natText number).length) (unit '0') ++ natText number

/-- `adoptDiskTail`: the store that continues the file, and the identifier of the next
record. -/
def adoptDiskTail (store : EvidenceStore) (file : Option (List Octet)) (id : JsString) :
    EvidenceStore × JsString :=
  match diskTail file with
  | none => (store, id)
  | some tail =>
      if store.records.getLast?.map Evidence.digest = some tail.digest then
        (store, id)
      else
        (⟨store.records ++ [tail],
          if tail.chain = none then some .legacy
          else if store.status = some .legacy then some .legacy
          else some .chained⟩,
          match evidenceNumber tail.id with
          | none => id
          | some number => evidenceId (number + 1))

/-- The chain pointer of the next record. -/
def nextChain (store : EvidenceStore) : Option JsString :=
  if store.status = some .legacy then
    none
  else
    match store.records.getLast? with
    | none => some EVIDENCE_CHAIN_GENESIS
    | some last => some last.digest

/-- A record with everything but its digest. -/
def withChain (input : Input) (id : JsString) (chain : Option JsString) (digest : JsString) :
    Evidence where
  id := id
  runId := input.runId
  taskId := input.taskId
  criterionId := input.criterionId
  propertyRefs := input.propertyRefs
  kind := input.kind
  outcome := input.outcome
  producer := input.producer
  timestamp := input.timestamp
  repositoryRevision := input.repositoryRevision
  red := input.red
  payload := input.payload
  chain := chain
  digest := digest

variable (sha256Hex : JsString → JsString)

/-- `load` of a fresh store. -/
def load (file : Option (List Octet)) : Except (LoadError EvidenceRefusal) EvidenceStore :=
  loadFile (evidenceReader sha256Hex) HashChain.Log.empty file

/-- `add`: the store after it and the record, which is printed on a line. -/
def add (store : EvidenceStore) (file : Option (List Octet)) (input : Input) :
    Except CanonicalError (EvidenceStore × Evidence) :=
  let adopted := adoptDiskTail store file input.id
  let chain := nextChain adopted.1
  (contentDigest sha256Hex (withChain input adopted.2 chain [])).map fun digest =>
    let full := withChain input adopted.2 chain digest
    (⟨adopted.1.records ++ [full], some (adopted.1.status.getD .chained)⟩, full)

/-- The line of a record. -/
def line (evidence : Evidence) : JsString :=
  (JsValue.object evidence.members).stringify

/-- A sequence of additions: the store and the file after it, and the new records. -/
def addAll : EvidenceStore → Option (List Octet) → List Input →
    Except CanonicalError (EvidenceStore × Option (List Octet) × List Evidence) :=
  appendEach (fun store file input => store.add sha256Hex file input) line

/-- What a store and the lines of its file have in common. -/
structure Follows (store : EvidenceStore) (texts : List JsString) : Prop where
  storable : ∀ evidence ∈ store.records, evidence.Storable
  digests : ∀ evidence ∈ store.records, contentDigest sha256Hex evidence = .ok evidence.digest
  lines : List.Forall₂ (RecordLine (evidenceReader sha256Hex)) texts store.records
  linked : HashChain.Linked evidenceChain store.records
  notLegacy : store.status ≠ some .legacy

variable {sha256Hex}

theorem fresh_follows : Follows sha256Hex HashChain.Log.empty [] :=
  ⟨by simp [HashChain.Log.empty], by simp [HashChain.Log.empty], .nil, .nil,
    by simp [HashChain.Log.empty]⟩

/-- The line of a storable record. -/
theorem recordLine {evidence : Evidence} (storable : evidence.Storable) :
    RecordLine (evidenceReader sha256Hex) (line evidence) evidence := by
  have json := storable.isJson (List.Sublist.refl evidence.members)
  have text : line evidence = (JsValue.object (definedMembers evidence.members)).stringify :=
    (stringify_definedMembers evidence.members).symm
  refine ⟨?_, .object (definedMembers evidence.members), ?_, evidenceSchema_members storable⟩
  · rw [text]
    exact @lineText_object (unit 'i') (js "d") _ _ json (by decide) (by decide)
  · rw [text]
    exact parseJson_stringify json

/-- The content of a storable record has a digest, which starts as digests do. -/
theorem exists_contentDigest {evidence : Evidence} (storable : evidence.Storable) :
    ∃ digest, contentDigest sha256Hex evidence = .ok digest ∧ digest ≠ [] := by
  have json := storable.isJson (List.sublist_append_left evidence.rest _)
  obtain ⟨copy, copied⟩ := transformInner_isJson [] json
  refine ⟨js "sha256:" ++ sha256Hex copy.stringify, ?_, ?_⟩
  · rw [contentDigest, ← digestOf_definedMembers, digestOf, canonicalJson, canonicalize, copied]
    rfl
  · exact List.append_ne_nil_of_left_ne_nil (by decide) _

/-- The records of a consistent store are pushed on load. -/
theorem accepts_records {records : List Evidence}
    (digests : ∀ evidence ∈ records, contentDigest sha256Hex evidence = .ok evidence.digest)
    (linked : HashChain.Linked evidenceChain records) :
    Accepts (evidenceReader sha256Hex) HashChain.Log.empty records
      (HashChain.chainedLog records) := by
  have checked : ∀ (records : List Evidence) (log : HashChain.Log Evidence) next,
      (∀ evidence ∈ records, contentDigest sha256Hex evidence = .ok evidence.digest) →
      HashChain.acceptAll evidenceChain log records = .ok next →
      Accepts (evidenceReader sha256Hex) log records next := by
    intro records
    induction records with
    | nil =>
        intro log next _ accepted
        cases accepted
        exact Accepts.nil log
    | cons evidence records inductionHypothesis =>
        intro log next digests accepted
        rw [HashChain.acceptAll, List.foldlM_cons] at accepted
        cases first : HashChain.accept evidenceChain log evidence with
        | error refusal => rw [first] at accepted; cases accepted
        | ok middle =>
            rw [first] at accepted
            refine @Accepts.head _ _ _ _ _ middle _ _ _ ?_ (inductionHypothesis middle next
              (fun other member => digests other (List.mem_cons_of_mem _ member)) accepted)
            simp only [evidenceReader, acceptEvidence, digests evidence List.mem_cons_self, if_true,
              first]
  exact checked records _ _ digests linked.acceptAll

/-- A file that follows a store is loaded as the records of the store. -/
theorem Follows.accepts {store : EvidenceStore} {texts : List JsString}
    (follows : Follows sha256Hex store texts) :
    Accepts (evidenceReader sha256Hex) HashChain.Log.empty store.records
      (HashChain.chainedLog store.records) :=
  accepts_records follows.digests follows.linked

/-- A store that loaded the file follows it too. -/
theorem Follows.loaded {store : EvidenceStore} {texts : List JsString}
    (follows : Follows sha256Hex store texts) :
    Follows sha256Hex (HashChain.chainedLog store.records) texts :=
  ⟨follows.storable, follows.digests, follows.lines, follows.linked, by
    simp only [HashChain.chainedLog]
    split <;> simp⟩

/-- The last line of a complete file is the last record of the store. -/
theorem Follows.diskTail {store : EvidenceStore} {texts : List JsString}
    (follows : Follows sha256Hex store texts) :
    EvidenceStore.diskTail (some (lineOctets texts)) = store.records.getLast? := by
  have lineTexts := RecordLine.lineTexts follows.lines
  have raw := decodeUtf8_lineOctets lineTexts []
  rw [List.append_nil] at raw
  rw [EvidenceStore.diskTail]
  simp only [raw, splitOn_lines lineTexts]
  have blank : (decodeUtf8 []).splitOn newline = [[]] := rfl
  rw [blank, List.reverse_append, List.reverse_singleton, List.singleton_append,
    List.find?_cons_of_neg (by simp [trim]), List.getLast?_eq_head?_reverse]
  have reversed : List.Forall₂ (RecordLine (evidenceReader sha256Hex)) texts.reverse
      store.records.reverse := List.forall₂_reverse_iff.mpr follows.lines
  generalize texts.reverse = backwards, store.records.reverse = latestFirst at reversed
  cases reversed with
  | nil => rfl
  | @cons text record texts records last _ =>
      have found : (text :: texts).find? (fun line => decide (trim line ≠ [])) = some text := by
        simp [last.line.trim_eq, last.line.ne_nil]
      obtain ⟨value, parsed, valid⟩ := last.reads
      rw [found]
      simp only [last.line.trim_eq, parsed, Option.bind_some, List.head?_cons]
      exact valid

/-- A consistent store has nothing to adopt from its file. -/
theorem Follows.adoptDiskTail {store : EvidenceStore} {texts : List JsString}
    (follows : Follows sha256Hex store texts) {file : Option (List Octet)}
    (complete : file = some (lineOctets texts) ∨ (file = none ∧ texts = [])) (id : JsString) :
    EvidenceStore.adoptDiskTail store file id = (store, id) := by
  have tail : EvidenceStore.diskTail file = store.records.getLast? ∨
      EvidenceStore.diskTail file = none := by
    rcases complete with rfl | ⟨rfl, -⟩
    · exact Or.inl follows.diskTail
    · exact Or.inr rfl
  rw [EvidenceStore.adoptDiskTail]
  rcases tail with last | none
  · rw [last]
    cases store.records.getLast? with
    | none => rfl
    | some record => simp
  · rw [none]

/-- Adding to a consistent store writes a line that continues the chain. -/
theorem Follows.add {store : EvidenceStore} {texts : List JsString}
    (follows : Follows sha256Hex store texts) {file : Option (List Octet)}
    (complete : file = some (lineOctets texts) ∨ (file = none ∧ texts = [])) (input : Input) :
    ∃ next evidence, store.add sha256Hex file input = .ok (next, evidence) ∧
      next.records = store.records ++ [evidence] ∧
      Follows sha256Hex next (texts ++ [line evidence]) := by
  obtain ⟨digest, known, nonempty⟩ := @exists_contentDigest sha256Hex
    (withChain input input.id (nextChain store) [1])
    ⟨input.id_ne_nil, input.timestamp_ne_nil, by simp [withChain], input.json⟩
  have content : contentDigest sha256Hex (withChain input input.id (nextChain store) []) =
      .ok digest := known
  have fullDigest : contentDigest sha256Hex
      (withChain input input.id (nextChain store) digest) = .ok digest := known
  have storable : (withChain input input.id (nextChain store) digest).Storable :=
    ⟨input.id_ne_nil, input.timestamp_ne_nil, nonempty, input.json⟩
  refine ⟨⟨store.records ++ [withChain input input.id (nextChain store) digest],
      some (store.status.getD .chained)⟩, withChain input input.id (nextChain store) digest,
    ?_, rfl, ?_⟩
  · rw [EvidenceStore.add, follows.adoptDiskTail complete]
    simp only [content]
    rfl
  refine ⟨?_, ?_, List.rel_append follows.lines (.cons (recordLine storable) .nil), ?_, ?_⟩
  · exact List.forall_mem_append.mpr ⟨follows.storable, by simpa using storable⟩
  · refine List.forall_mem_append.mpr ⟨follows.digests, fun evidence member => ?_⟩
    rw [List.mem_singleton.mp member]
    exact fullDigest
  · cases last : store.records.getLast? with
    | none =>
        have empty := List.getLast?_eq_none_iff.mp last
        rw [empty]
        refine .first ?_
        show nextChain store = some EVIDENCE_CHAIN_GENESIS
        rw [nextChain, if_neg follows.notLegacy, last]
    | some previous =>
        obtain ⟨initial, split⟩ := List.getLast?_eq_some_iff.mp last
        have linked := follows.linked
        rw [split] at linked ⊢
        refine .next linked rfl ?_
        show nextChain store = some previous.digest
        rw [nextChain, if_neg follows.notLegacy, last]
  · cases status : store.status with
    | none => simp
    | some kind =>
        have notLegacy := follows.notLegacy
        rw [status] at notLegacy
        simpa using notLegacy

end EvidenceStore

end SpecAsCode.Runtime
