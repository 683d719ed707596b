import SpecAsCode.Runtime.CrashRecovery
import SpecAsCode.Runtime.RunRecords
import SpecAsCode.Schema.State

/-!
# Attestations

At its end a run commits to the events it has written and to its evidence.  Replay and the
verification of a bundle recompute what the run committed to.
-/

namespace SpecAsCode.Runtime

open SpecAsCode.Js
open SpecAsCode.Core
open SpecAsCode.Schema
open SpecAsCode.Text
open SpecAsCode.Verifier

/-- `RunAttestation`, without the anchor in the history of the repository. -/
structure RunAttestation where
  runId : JsString
  specId : JsString
  status : RunStatus
  eventCount : Nat
  eventChainHead : JsString
  evidenceHead : JsString
  resultRevision : Option JsString
  attestedAt : JsString
  deriving DecidableEq

/-! ## Heads -/

/-- An entry of the list that `evidenceHeadOf` digests. -/
def headEntry (e : Evidence) : JsValue :=
  .object [(js "id", .string e.id), (js "digest", .string e.digest)]

section Heads

variable (sha256Hex : JsString → JsString)

/-- `evidenceHeadOf`. -/
def evidenceHeadOf (evidence : List Evidence) : Except CanonicalError JsString :=
  digestOf sha256Hex (.array (evidence.map headEntry))

/-- The head of a log without events. -/
def noEventsHead : JsString :=
  js "sha256:" ++ List.replicate 64 (unit '0')

/-- The digest of the last event. -/
def eventHeadOf (events : List Event) : Except CanonicalError JsString :=
  match events.getLast? with
  | none => .ok noEventsHead
  | some last => digestOf sha256Hex last.toValue

/-! ## Attesting -/

/-- What an attestation is made of besides the records of the run. -/
structure AttestationRequest where
  runId : JsString
  specId : JsString
  status : RunStatus
  attestedAt : JsString

/-- What a run commits to. -/
def attest (request : AttestationRequest) (resultRevision : Option JsString) (events : List Event)
    (evidence : List Evidence) : Except CanonicalError RunAttestation :=
  (eventHeadOf sha256Hex events).bind fun eventChainHead =>
    (evidenceHeadOf sha256Hex evidence).map fun evidenceHead =>
      { runId := request.runId, specId := request.specId, status := request.status
        eventCount := events.length, eventChainHead, evidenceHead, resultRevision
        attestedAt := request.attestedAt }

/-- The fields of an attestation. -/
def RunAttestation.fields (attestation : RunAttestation) : List Field :=
  [(js "schema", some (.text (js "spc-run-attestation/1"))),
    (js "runId", some (.text attestation.runId)), (js "specId", some (.text attestation.specId)),
    (js "status", some (.text attestation.status.text)),
    (js "eventCount", some (.number (JsNumber.ofNat attestation.eventCount))),
    (js "eventChainHead", some (.text attestation.eventChainHead)),
    (js "evidenceHead", some (.text attestation.evidenceHead)),
    (js "resultRevision", attestation.resultRevision.map .text),
    (js "attestedAt", some (.text attestation.attestedAt))]

theorem RunAttestation.fields_ordered (attestation : RunAttestation) :
    Ordered attestation.fields := by
  simp only [Ordered, RunAttestation.fields, List.map]
  decide +kernel

theorem RunAttestation.json_fields (attestation : RunAttestation) :
    (JsValue.object (fieldMembers attestation.fields)).isJson = true :=
  isJson_fieldMembers attestation.fields_ordered

/-- The event that an attestation is recorded with. -/
def RunAttestation.input (attestation : RunAttestation) (id timestamp : Stamp) :
    EventStore.Input where
  type := .runAttested
  payload := fieldMembers attestation.fields
  id := id.1
  timestamp := timestamp.1
  json := attestation.json_fields
  id_ne_nil := Stamp.ne_nil id
  timestamp_ne_nil := Stamp.ne_nil timestamp

/-- `attestRun`: the attestation of an apply run. -/
def attestRun (request : AttestationRequest) (resultRevision : Option JsString)
    (events : EventStore) (evidence : EvidenceStore) : Except CanonicalError RunAttestation :=
  attest sha256Hex request (resultRevision.filter fun revision => revision != [])
    events.log.records evidence.records

/-- `attestRecords`: the attestation of a run without a run branch. -/
def attestRecords (request : AttestationRequest) (events : EventStore) (evidence : List Evidence) :
    Except CanonicalError RunAttestation :=
  attest sha256Hex request none events.log.records evidence

end Heads

/-! ## Checking -/

inductive AttestationVerdict where
  | verified
  | extendedAfterAttestation
  | missing
  | broken
  deriving DecidableEq, Repr

/-- The words in which a check reports. -/
structure AttestationWords where
  log : JsString
  mismatch : JsString
  extension : JsString

structure AttestationReport where
  attestation : AttestationVerdict
  attestationDetail : Option JsString
  deriving DecidableEq

variable (sha256Hex : JsString → JsString)

/-- The check of a recorded attestation. -/
def checkAttestation (words : AttestationWords) (events : List Event) (evidence : List Evidence)
    (recorded : RunAttestation) : Except CanonicalError AttestationReport :=
  let attested := events.take recorded.eventCount
  if attested.length < recorded.eventCount then
    .ok ⟨.broken, some (js "attested " ++ natText recorded.eventCount ++ js " events but the " ++
      words.log ++ js " holds " ++ natText events.length)⟩
  else
    (eventHeadOf sha256Hex attested).bind fun headAtN =>
      (evidenceHeadOf sha256Hex evidence).map fun evHead =>
        if headAtN ≠ recorded.eventChainHead ∨ evHead ≠ recorded.evidenceHead then
          ⟨.broken, some words.mismatch⟩
        else if recorded.eventCount < events.length then
          -- `RUN_ATTESTED` itself extends the chain after what it covers.
          if (events.drop recorded.eventCount).all fun event => event.type == .runAttested then
            ⟨.verified, some (js "prefix commitment intact; RUN_ATTESTED event(s) extend the chain")⟩
          else
            ⟨.extendedAfterAttestation,
              some (natText (events.length - recorded.eventCount) ++ words.extension)⟩
        else
          ⟨.verified, none⟩

/-- The files of a run directory that are read here, and its follow-ups. -/
structure RunFiles where
  events : Option (List Octet)
  evidence : Option (List Octet)
  followups : FollowupStore
  attestation : Option RunAttestation

/-- Why a run directory cannot be checked. -/
inductive ReplayError where
  | events (error : LoadError (HashChain.Refusal CanonicalError))
  | evidence (error : LoadError EvidenceRefusal)
  | canonical (error : CanonicalError)

/-- The strict loads of a run directory. -/
def RunFiles.load (runId : JsString) (files : RunFiles) :
    Except ReplayError (EventStore × EvidenceStore) :=
  match EventStore.load sha256Hex runId files.events with
  | .error error => .error (.events error)
  | .ok events =>
      match EvidenceStore.load sha256Hex files.evidence with
      | .error error => .error (.evidence error)
      | .ok evidence => .ok (events, evidence)

/-- The loads, and the check of the attestation if there is one. -/
def RunFiles.checkAttestation (words : AttestationWords) (runId : JsString) (files : RunFiles) :
    Except ReplayError AttestationReport :=
  (files.load sha256Hex runId).bind fun loaded =>
    match files.attestation with
    | none => .ok ⟨.missing, none⟩
    | some recorded =>
        (Runtime.checkAttestation sha256Hex words loaded.1.log.records loaded.2.records
          recorded).mapError .canonical

/-- The part of `replayRun` on the attestation. -/
def replayAttestation (runId : JsString) (files : RunFiles) : Except ReplayError AttestationReport :=
  files.checkAttestation sha256Hex
    { log := js "log"
      mismatch := js
        "recomputed heads over the attested prefix do not match the recorded commitment"
      extension := js " legitimate post-attestation event(s); prefix commitment intact" } runId

/-- The part of `verifyBundle` on the attestation, on the run directory of the bundle. -/
def bundleAttestation (runId : JsString) (files : RunFiles) : Except ReplayError AttestationReport :=
  files.checkAttestation sha256Hex
    { log := js "bundle log"
      mismatch := js "recomputed heads do not match the recorded commitment"
      extension := js " post-attestation event(s); prefix intact" } runId

end SpecAsCode.Runtime
