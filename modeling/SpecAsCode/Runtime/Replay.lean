import SpecAsCode.Runtime.Attestation
import SpecAsCode.Runtime.Projection

/-!
# Replaying a run

`replayRun` reads the files of a run directory again: the persisted state must follow from the
events, and the attestation must hold of the logs.
-/

namespace SpecAsCode.Runtime

open SpecAsCode.Js
open SpecAsCode.Schema
open SpecAsCode.Text

/-! ## Reading files -/

/-- Why a run or a bundle cannot be checked. -/
inductive ReplayFault where
  | runNotFound
  | bundleNotFound
  | bundleInvalid
  | missing (file : JsString)
  | malformed (file : JsString)
  | type (error : TypeError)
  | replay (error : ReplayError)

/-- The files of a directory by their names. -/
abbrev Files := JsString → Option (List Octet)

/-- `JSON.parse(readFileSync(file, "utf8"))`. -/
def readJson (name : JsString) (octets : Option (List Octet)) : Except ReplayFault JsValue :=
  match octets with
  | none => .error (.missing name)
  | some octets =>
      match parseFile octets with
      | none => .error (.malformed name)
      | some value => .ok value

/-- The same for a file that need not be there. -/
def readIfAny (name : JsString) (octets : Option (List Octet)) :
    Except ReplayFault (Option JsValue) :=
  match octets with
  | none => .ok none
  | some octets => (readJson name (some octets)).map some

/-- The status a text spells. -/
def statusOfText (text : JsString) : Option RunStatus :=
  [RunStatus.running, .succeeded, .partiallySatisfied, .blocked, .failed, .cancelled,
    .timedOut].find? fun status => status.text = text

/-- A number of events. -/
def asCount : JsValue → Option Nat
  | .number (.finite value) => if value.name.isNegative then none else value.name.safeInteger
  | _ => none

/-- An attestation as it was written. -/
def RunAttestation.ofValue (value : JsValue) : Option RunAttestation := do
  let runId ← (value.property (js "runId")).asString
  let specId ← (value.property (js "specId")).asString
  let status ← (value.property (js "status")).asString.bind statusOfText
  let eventCount ← asCount (value.property (js "eventCount"))
  let eventChainHead ← (value.property (js "eventChainHead")).asString
  let evidenceHead ← (value.property (js "evidenceHead")).asString
  let attestedAt ← (value.property (js "attestedAt")).asString
  return { runId, specId, status, eventCount, eventChainHead, evidenceHead
           resultRevision := (value.property (js "resultRevision")).asString, attestedAt }

/-- The attestation of a run directory. -/
def readAttestation (octets : Option (List Octet)) :
    Except ReplayFault (Option RunAttestation) :=
  (readIfAny (js "attestation.json") octets).bind fun value =>
    match value with
    | none => .ok none
    | some value =>
        match RunAttestation.ofValue value with
        | none => .error (.malformed (js "attestation.json"))
        | some attestation => .ok (some attestation)

theorem asCount_ofNat {count : Nat} (small : count < 2 ^ 53) :
    asCount (Json.number (.ofNat count)).1 = some count := by
  obtain ⟨double, number, name⟩ := JsNumber.ofNat_eq small
  obtain ⟨safe, sign⟩ := Decimal.safeInteger_ofNat small
  rw [number]
  show (if double.name.isNegative then none else double.name.safeInteger) = some count
  rw [name, sign, safe]
  rfl

/-- The properties of an attestation are its fields. -/
theorem RunAttestation.properties (attestation : RunAttestation) :
    let value := JsValue.object (fieldMembers attestation.fields)
    value.property (js "runId") = .string attestation.runId ∧
      value.property (js "specId") = .string attestation.specId ∧
      value.property (js "status") = .string attestation.status.text ∧
      value.property (js "eventCount") = (Json.number (.ofNat attestation.eventCount)).1 ∧
      value.property (js "eventChainHead") = .string attestation.eventChainHead ∧
      value.property (js "evidenceHead") = .string attestation.evidenceHead ∧
      value.property (js "attestedAt") = .string attestation.attestedAt ∧
      (value.property (js "resultRevision")).asString = attestation.resultRevision := by
  obtain ⟨runId, specId, status, eventCount, eventHead, evidenceHead, revision, time⟩ := attestation
  cases revision with
  | none => exact ⟨rfl, rfl, rfl, rfl, rfl, rfl, rfl, rfl⟩
  | some revision => exact ⟨rfl, rfl, rfl, rfl, rfl, rfl, rfl, rfl⟩

theorem statusOfText_text (status : RunStatus) : statusOfText status.text = some status := by
  cases status <;> decide +kernel

/-- The attestation that was written is read from its file. -/
theorem readAttestation_file (attestation : RunAttestation)
    (small : attestation.eventCount < 2 ^ 53) :
    readAttestation (some (JsValue.object (fieldMembers attestation.fields)).file) =
      .ok (some attestation) := by
  have read : RunAttestation.ofValue (.object (fieldMembers attestation.fields)) =
      some attestation := by
    obtain ⟨runId, specId, status, count, eventHead, evidenceHead, time, revision⟩ :=
      attestation.properties
    rw [RunAttestation.ofValue, runId, specId, status, count, eventHead, evidenceHead, time,
      revision, asCount_ofNat small]
    simp only [JsValue.asString, Option.bind_eq_bind, Option.bind_some, statusOfText_text]
    rfl
  rw [readAttestation, readIfAny, readJson,
    parseFile_file (isJson_fieldMembers attestation.fields_ordered)]
  simp only [Except.map, Except.bind, read]

/-- `loadRunMeta`. -/
def loadRunMeta (files : Files) : Option JsValue :=
  (files (js "metadata.json")).bind parseFile

/-! ## The checks -/

section Checks

variable (sha256Hex : JsString → JsString)

/-- The strict loads of the two logs. -/
def loadStores (runId : JsString) (files : Files) :
    Except ReplayFault (EventStore × EvidenceStore) :=
  ((RunFiles.mk (files (js "events.jsonl")) (files (js "evidence.jsonl")) [] none).load sha256Hex
    runId).mapError .replay

/-- Whether the persisted state follows from the events. -/
structure ProjectionReport where
  projectionMatches : Bool
  projectionDiffs : List JsString
  deriving DecidableEq

/-- The comparison of the persisted state, if there is one, with the replayed one. -/
def checkProjection (words : DiffWords) (missing : JsString) (persisted : Option JsValue)
    (replayed : ProjectedState) : Except ReplayFault ProjectionReport :=
  match persisted with
  | none => .ok ⟨true, [missing]⟩
  | some persisted =>
      ((stateDiffs words persisted replayed).map fun diffs =>
        ⟨diffs.isEmpty, diffs⟩).mapError .type

/-- The check of the attestation, if there is one. -/
def checkRecorded (words : AttestationWords) (events : List Event) (evidence : List Evidence)
    (recorded : Option RunAttestation) : Except ReplayFault AttestationReport :=
  match recorded with
  | none => .ok ⟨.missing, none⟩
  | some recorded =>
      (checkAttestation sha256Hex words events evidence recorded).mapError fun error =>
        .replay (.canonical error)

/-- What `replayRun` reports, but for the anchor in the history of the repository. -/
structure ReplayReport where
  runId : JsString
  eventCount : Nat
  chainStatus : HashChain.Status
  evidenceCount : Nat
  projection : ProjectionReport
  attestation : AttestationReport
  deriving DecidableEq

def replayDiffWords : DiffWords :=
  ⟨js "persisted ", js ", replayed "⟩

def replayWords : AttestationWords where
  log := js "log"
  mismatch := js "recomputed heads over the attested prefix do not match the recorded commitment"
  extension := js " legitimate post-attestation event(s); prefix commitment intact"

/-- `replayRun` on the files of a run directory. -/
def replayRun (files : Files) (runId : JsString) (plan : JsValue) :
    Except ReplayFault ReplayReport :=
  match (loadRunMeta files).filter isTruthy with
  | none => .error .runNotFound
  | some runMeta => do
      let stores ← loadStores sha256Hex runId files
      let replayed ← (projectState runMeta plan stores.1.log.records).mapError .type
      let persisted ← readIfAny (js "state.json") (files (js "state.json"))
      let projection ← checkProjection replayDiffWords
        (js "state.json missing; replayed state is the only projection") persisted replayed
      let recorded ← readAttestation (files (js "attestation.json"))
      let attestation ← checkRecorded sha256Hex replayWords stores.1.log.records stores.2.records
        recorded
      return { runId, eventCount := stores.1.log.records.length
               chainStatus := stores.1.log.status.getD .legacy
               evidenceCount := stores.2.records.length, projection, attestation }

/-- The attestation that `replayRun` reports on is the one of the run directory. -/
theorem replayAttestation_eq (runId : JsString) (files : RunFiles) :
    replayAttestation sha256Hex runId files = files.checkAttestation sha256Hex replayWords runId :=
  rfl

end Checks

end SpecAsCode.Runtime
