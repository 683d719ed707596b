import SpecAsCode.Harness.SchemaCheck
import SpecAsCode.Harness.Store
import SpecAsCode.Js.Parse

/-!
# Portable answer candidates

A candidate is composed against the records of one request and claimed for another one whose
records have the same fingerprint.
-/

namespace SpecAsCode.Harness

open SpecAsCode.Js

structure CandidateFingerprint where
  taskDigest : JsString
  schemaName : JsString
  schemaDigest : JsString
  baseRevision : JsValue
  writeScope : JsValue
  configDigest : JsString

structure CandidateRecord where
  id : JsString
  value : JsValue
  composedAgainst : CandidateFingerprint
  composedFromRequest : JsString
  composedBy : Option JsString

/-- Why a claim is rejected. -/
inductive ClaimRefusal where
  | requestNotLive
  | consumed
  | fingerprintMismatch (detail : JsString)
  | schemaInvalid (detail : JsString)

/-- The text from an opening brace on, up to the brace that closes it. -/
def objectText (depth : Nat) (inString escaped : Bool) : JsString → Option JsString
  | [] => none
  | letter :: rest =>
      if inString then
        let closes := !escaped && letter == unit '"'
        (objectText depth (!closes) (!escaped && letter == unit '\\') rest).map (letter :: ·)
      else if letter = unit '"' then
        (objectText depth true false rest).map (letter :: ·)
      else if letter = unit '\x7b' then
        (objectText (depth + 1) false false rest).map (letter :: ·)
      else if letter = unit '\x7d' then
        if depth = 1 then some [letter]
        else (objectText (depth - 1) false false rest).map (letter :: ·)
      else
        (objectText depth false false rest).map (letter :: ·)

/-- The JSON object that a prompt embeds. -/
def extractPayload (prompt : JsString) : Option JsValue :=
  (objectText 0 false false (prompt.dropWhile fun letter => letter ≠ unit '\x7b')).bind parseJson

/-- `value ?? {}`. -/
def orEmpty (value : JsValue) : JsValue :=
  value.orElse (.object [])

/-- The fingerprint that the records of a request have now. -/
def deriveFingerprint (sha256 : JsString → JsString) (configDigest : JsString)
    (request : HarnessRequest) : CandidateFingerprint :=
  let sha (value : JsValue) := js "sha256:" ++ sha256 (value.asString.getD value.stringify)
  let payload := (extractPayload request.prompt).getD (.object [])
  let targets := orEmpty ((orEmpty (payload.property (js "task"))).property (js "targets"))
  let allowed := (payload.property (js "allowedWritePaths")).orElse (.array [])
  { taskDigest := sha payload
    schemaName := request.schemaName
    schemaDigest := sha request.jsonSchema
    baseRevision :=
      ((orEmpty (payload.property (js "repository"))).property (js "revision")).orElse .null
    writeScope := (targets.property (js "write")).orElse allowed
    configDigest := configDigest }

/-- The members that are compared, with their names, the specific ones first. -/
def CandidateFingerprint.members (fingerprint : CandidateFingerprint) :
    List (JsString × JsString) :=
  [(js "baseRevision", fingerprint.baseRevision.stringify),
    (js "writeScope", fingerprint.writeScope.stringify),
    (js "schema", (JsValue.string fingerprint.schemaDigest).stringify),
    (js "config", (JsValue.string fingerprint.configDigest).stringify),
    (js "task", (JsValue.string fingerprint.taskDigest).stringify)]

def fingerprintDetail (composed live : CandidateFingerprint) : Option JsString :=
  ((composed.members.zip live.members).find? fun pair => pair.1.2 ≠ pair.2.2).map fun pair =>
    js "fingerprint member " ++ pair.1.1 ++
      js " differs between composition and the live request"

/-- An answer record names the candidate. -/
def candidateConsumed (answers : List HarnessAnswer) (id : JsString) : Bool :=
  answers.any fun answer => answer.candidateId == some id

/-- The checks of `claimCandidate` on a request that was found live, before its rename.  `answers`
are all records under `answered/`. -/
def claimRefusal (sha256 : JsString → JsString) (configDigest : JsString)
    (candidate : CandidateRecord) (request : HarnessRequest) (answers : List HarnessAnswer) :
    Option ClaimRefusal :=
  if candidateConsumed answers candidate.id then
    some .consumed
  else
    match fingerprintDetail candidate.composedAgainst
        (deriveFingerprint sha256 configDigest request) with
    | some mismatch =>
        some (.fingerprintMismatch
          (mismatch ++ js "; the candidate is PRESERVED for a matching successor"))
    | none =>
        match checkJsonSchema request.jsonSchema candidate.value with
        | [] => none
        | issues =>
            some (.schemaInvalid (((issues.take 8).map fun issue =>
              issue.path ++ js ": " ++ issue.message).intersperse (js "; ")).flatten)

/-- The answer that a claim installs. -/
def CandidateRecord.answer (candidate : CandidateRecord) (requestId : JsString) (now : Int) :
    HarnessAnswer where
  id := requestId
  value := candidate.value
  answeredBy := some (candidate.composedBy.getD (js "candidate"))
  answeredAt := now
  rehearsedWith := none
  candidateId := some candidate.id
  claimedFromRequest := some candidate.composedFromRequest

/-- An admitted candidate is consumed. -/
theorem candidateConsumed_answer (candidate : CandidateRecord) (requestId : JsString) (now : Int)
    (answers : List HarnessAnswer) :
    candidateConsumed (candidate.answer requestId now :: answers) candidate.id = true := by
  rw [candidateConsumed, List.any_cons, CandidateRecord.answer, beq_self_eq_true, Bool.true_or]

/-- A consumed candidate is not claimed again. -/
theorem claimRefusal_of_consumed {sha256 : JsString → JsString} {configDigest : JsString}
    {candidate : CandidateRecord} {request : HarnessRequest} {answers : List HarnessAnswer}
    (consumed : candidateConsumed answers candidate.id = true) :
    claimRefusal sha256 configDigest candidate request answers = some .consumed :=
  if_pos consumed

end SpecAsCode.Harness
