import SpecAsCode.Js.OrderedMap
import SpecAsCode.Runtime.EvidenceStore
import SpecAsCode.Runtime.Runs
import SpecAsCode.Verifier.EvaluateSound

/-!
# Inherited flips

A criterion that passes at the base of a run counts as flipped when the evidence of an
earlier run of the chain shows it fail and pass.  The adoption reads the evidence files
itself: which flips it adopts, and when the evaluator would have counted them.
-/

namespace SpecAsCode.Runtime

open SpecAsCode.Js
open SpecAsCode.Core
open SpecAsCode.Schema
open SpecAsCode.Text
open SpecAsCode.Verifier

/-! ## Adoption -/

/-- `e.criterionId` when it is truthy.  A truthy value that is not a string is the identifier
of no criterion. -/
def recordCriterion (record : JsValue) : Option JsString :=
  (record.property (js "criterionId")).asString.filter fun id => id ≠ []

/-- The member of the record is the text. -/
def hasText (record : JsValue) (key text : JsString) : Bool :=
  (record.property key).asString == some text

/-- A record for `sawRed`. -/
def isRedContradiction (record : JsValue) : Bool :=
  hasText record (js "phase") (js "red") && hasText record (js "outcome") (js "contradicts") &&
    isEligibleRed .contradicts (record.property (js "payload"))

/-- A record for `sawGreen`. -/
def isGreenSupport (record : JsValue) : Bool :=
  !hasText record (js "phase") (js "red") && hasText record (js "outcome") (js "supports")

def sawRed (records : List JsValue) : List JsString :=
  (records.filter isRedContradiction).filterMap recordCriterion

def sawGreen (records : List JsValue) : List JsString :=
  (records.filter isGreenSupport).filterMap recordCriterion

/-- The flips found so far: the run that a criterion's flip is inherited from. -/
abbrev Flips := OrderedMap JsString JsString

/-- The body of the loop over `sawGreen`. -/
def adoptFlip (red : List JsString) (priorId : JsString) (flips : Flips) (criterion : JsString) :
    Flips :=
  if criterion ∈ red ∧ flips.get? criterion = none then flips.set criterion priorId else flips

/-- `adoptAncestorFlips`. -/
def adoptAncestorFlips (records : List JsValue) (priorId : JsString) (flips : Flips) : Flips :=
  (sawGreen records).foldl (adoptFlip (sawRed records) priorId) flips

/-- The parsed lines of an evidence file. -/
def evidenceLines (octets : List Octet) : Option (List JsValue) :=
  (((decodeUtf8 octets).splitOn newline).filter fun line => line ≠ []).mapM parseJson

/-- The records the adoption reads.  Nothing is adopted from a file that is missing, from one
with a line that is not JSON, and from one with a `null`, whose members cannot be read. -/
def ancestorRecords (runs : RunsDir) (id : JsString) : List JsValue :=
  match (runs.folder id).evidence.bind evidenceLines with
  | none => []
  | some records => if records.any JsValue.isNullish then [] else records

/-- The criterion-level chain flips of a run. -/
def inheritedFlips (runs : RunsDir) (run : RunMeta) : Flips :=
  (ancestorIds runs run).foldl
    (fun flips id => adoptAncestorFlips (ancestorRecords runs id) id flips) OrderedMap.empty

/-- The evidence of a run has an eligible red contradiction and a green support. -/
def ShowsFlip (runs : RunsDir) (id criterion : JsString) : Prop :=
  criterion ∈ sawRed (ancestorRecords runs id) ∧ criterion ∈ sawGreen (ancestorRecords runs id)

instance showsFlip_decidable (runs : RunsDir) (id criterion : JsString) :
    Decidable (ShowsFlip runs id criterion) :=
  inferInstanceAs (Decidable (_ ∧ _))

/-- A flip is inherited from the nearest run whose evidence shows it. -/
theorem get?_inheritedFlips (runs : RunsDir) (run : RunMeta) (criterion : JsString) :
    (inheritedFlips runs run).get? criterion =
      (ancestorIds runs run).find? fun id => ShowsFlip runs id criterion := by
  refine OrderedMap.get?_foldl_nearest (fun flips id => ?_) _
  have adopts : ∀ (flips : Flips) (criterion : JsString),
      adoptFlip (sawRed (ancestorRecords runs id)) id flips criterion =
        if criterion ∈ sawRed (ancestorRecords runs id) ∧ flips.get? criterion = none then
          flips.set criterion id
        else flips :=
    fun _ _ => rfl
  rw [adoptAncestorFlips, OrderedMap.get?_foldl_adopt adopts]
  congr 1
  split_ifs with seen shows shows
  · rfl
  · exact absurd seen shows
  · exact absurd shows seen
  · rfl

/-! ## The evaluator on the evidence of an earlier run -/

/-- The records of the evidence log of a run, when it can be loaded. -/
def LoadsEvidence (sha256Hex : JsString → JsString) (runs : RunsDir) (id : JsString)
    (records : List Evidence) : Prop :=
  ∃ octets store, (runs.folder id).evidence = some octets ∧
    EvidenceStore.load sha256Hex (some octets) = .ok store ∧ store.records = records

/-- On the evidence of the run the evaluator counts the criterion as flipped, when an author
marked it discriminating and nothing is inherited. -/
def CountedAsFlipped (sha256Hex : JsString → JsString) (runs : RunsDir) (id name : JsString) :
    Prop :=
  ∃ records, LoadsEvidence sha256Hex runs id records ∧
    ∀ (criterion : AcceptanceCriterion) (options : EvaluationOptions), criterion.id = name →
      isDiscriminating criterion = true → options.requireRedPhase = true →
      options.inheritedFlips name = none →
      (criterionVerdict options (latestByCriterion (records.filter fun e => !e.red))
          (latestByCriterion (records.filter fun e => e.red)) criterion).status = .pass ∧
        (criterionVerdict options (latestByCriterion (records.filter fun e => !e.red))
          (latestByCriterion (records.filter fun e => e.red)) criterion).redPhase = some .flipped

/-- The log of the run loads, and no newer record supersedes the red contradiction and the
green support of the criterion. -/
def FlipStands (sha256Hex : JsString → JsString) (runs : RunsDir) (id name : JsString) : Prop :=
  ∃ records, LoadsEvidence sha256Hex runs id records ∧
    (∃ red, Newest name (records.filter fun e => e.red) red ∧ red.outcome = .contradicts ∧
      isEligibleRed red.outcome red.payload = true) ∧
    ∃ green, Newest name (records.filter fun e => !e.red) green ∧ green.outcome = .supports

theorem greenVerdict_supports {criterion : AcceptanceCriterion} {e : Evidence}
    (supports : e.outcome = .supports) :
    (greenVerdict criterion (some e)).status = .pass := by
  rw [greenVerdict_status]
  simp only [supports]

/-- An eligible contradiction at the base keeps the pass and marks it as flipped. -/
theorem redVerdict_eligible (flips : JsString → Option JsString) (verdict : CriterionVerdict)
    {red : Evidence} (contradicts : red.outcome = .contradicts)
    (eligible : isEligibleRed red.outcome red.payload = true) :
    redVerdict flips verdict (some red) = { verdict with redPhase := some .flipped } := by
  rw [contradicts] at eligible
  simp [redVerdict, contradicts, eligible]

theorem countedAsFlipped_iff (sha256Hex : JsString → JsString) (runs : RunsDir)
    (id name : JsString) :
    CountedAsFlipped sha256Hex runs id name ↔ FlipStands sha256Hex runs id name := by
  constructor
  · rintro ⟨records, loads, counted⟩
    have sample := counted (.command name [] none none (some true))
      { allowAgentOnly := false, inProgressPropertyIds := [], now := [], requireRedPhase := true,
        inheritedFlips := fun _ => none } rfl rfl rfl rfl
    obtain ⟨⟨green, newestGreen, supports⟩, flip⟩ := criterionVerdict_pass sample.1
    obtain ⟨red, newestRed, earns⟩ := flip rfl rfl
    refine ⟨records, loads, ⟨red, latestByCriterion_eq_some.mp newestRed, ?_⟩,
      green, latestByCriterion_eq_some.mp newestGreen, supports⟩
    rcases earns with eligible | ⟨-, inherited⟩
    · exact eligible
    · cases inherited
  · rintro ⟨records, loads, ⟨red, newestRed, contradicts, eligible⟩, green, newestGreen, supports⟩
    refine ⟨records, loads, fun criterion options same marked required _ => ?_⟩
    rw [← latestByCriterion_eq_some, ← same] at newestRed newestGreen
    have passes : (greenVerdict criterion (some green)).status = .pass :=
      greenVerdict_supports supports
    have flipped : criterionVerdict options (latestByCriterion (records.filter fun e => !e.red))
        (latestByCriterion (records.filter fun e => e.red)) criterion =
        { greenVerdict criterion (some green) with redPhase := some .flipped } := by
      have gate : (options.requireRedPhase && isDiscriminating criterion &&
          (greenVerdict criterion (some green)).status == .pass) = true := by
        rw [required, marked, passes]
        rfl
      rw [← redVerdict_eligible options.inheritedFlips _ contradicts eligible, criterionVerdict,
        newestGreen, newestRed]
      exact if_pos gate
    rw [flipped]
    exact ⟨passes, rfl⟩

/-- The flips a run inherits are those the evaluator would have counted, exactly when in the
nearest run that shows a flip at all it is not superseded. -/
theorem inheritedFlips_counted_iff (sha256Hex : JsString → JsString) (runs : RunsDir)
    (run : RunMeta) :
    (∀ criterion id, (inheritedFlips runs run).get? criterion = some id →
      CountedAsFlipped sha256Hex runs id criterion) ↔
    ∀ criterion nearer id farther, ancestorIds runs run = nearer ++ id :: farther →
      (∀ other ∈ nearer, ¬ ShowsFlip runs other criterion) → ShowsFlip runs id criterion →
        FlipStands sha256Hex runs id criterion := by
  constructor
  · intro counted criterion nearer id farther walk silent shows
    rw [← countedAsFlipped_iff]
    apply counted
    rw [get?_inheritedFlips, List.find?_eq_some_iff_append]
    exact ⟨by simpa using shows, nearer, farther, walk, by simpa using silent⟩
  · intro stands criterion id inherited
    rw [get?_inheritedFlips, List.find?_eq_some_iff_append] at inherited
    obtain ⟨shows, nearer, farther, walk, silent⟩ := inherited
    rw [countedAsFlipped_iff]
    exact stands criterion nearer id farther walk (by simpa using silent) (by simpa using shows)

/-- A hash of texts that tells texts of different lengths apart. -/
def lengthHash (text : JsString) : JsString :=
  natText text.length

theorem firstEvidenceId_ne_nil : js "EV-0001" ≠ [] := by
  decide

theorem isJson_object_nil : (JsValue.object []).isJson = true := by
  decide

/-- A record of a command that is the criterion `A-1` of the property `A`. -/
def commandRecord (outcome : EvidenceOutcome) (red : Bool) (timestamp : JsString)
    (stamped : timestamp ≠ []) : EvidenceStore.Input :=
  { id := js "EV-0001", runId := js "run-0", taskId := none, criterionId := some (js "A-1"),
    propertyRefs := [js "A"], kind := .command, outcome, producer := ⟨.runtime, none⟩, timestamp
    repositoryRevision := js "head", red, payload := .object [], id_ne_nil := firstEvidenceId_ne_nil
    timestamp_ne_nil := stamped, json := isJson_object_nil }

/-- A run that continues `run-0`. -/
def continuation : RunMeta :=
  { runId := js "run-1", specId := js "spec", specDigest := js "digest", planId := none
    baseRevision := none, parentRunId := some (js "run-0") }

/-- A directory with the evidence log of `run-0`. -/
def oneAncestor (evidence : Option (List Octet)) : RunsDir where
  ids := []
  folder id := ⟨none, if id = js "run-0" then evidence else none, none⟩
  listed _ known := absurd rfl known

/-- The evidence log after some additions to a fresh store. -/
def writtenLog (inputs : List EvidenceStore.Input) : Option (List Octet) :=
  match EvidenceStore.addAll lengthHash HashChain.Log.empty none inputs with
  | .ok (_, file, _) => file
  | .error _ => none

/-- The criterion fails at the base, passes, and fails again. -/
def relapsedLog : Option (List Octet) :=
  writtenLog [commandRecord .contradicts true (js "1") (by decide),
    commandRecord .supports false (js "2") (by decide),
    commandRecord .contradicts false (js "3") (by decide)]

/-- The failure after the pass does not keep the flip from being inherited. -/
theorem not_inheritedFlips_counted :
    (inheritedFlips (oneAncestor relapsedLog) continuation).get? (js "A-1") = some (js "run-0") ∧
      (EvidenceStore.load lengthHash relapsedLog).toOption.isSome = true ∧
      ¬ CountedAsFlipped lengthHash (oneAncestor relapsedLog) (js "run-0") (js "A-1") := by
  refine ⟨by decide +kernel, by decide +kernel, ?_⟩
  rw [countedAsFlipped_iff]
  rintro ⟨records, ⟨octets, store, file, loaded, rfl⟩, -, green, newest, supports⟩
  have newestOutcome : ((EvidenceStore.load lengthHash relapsedLog).toOption.bind fun store =>
      latestByCriterion (store.records.filter fun e => !e.red) (js "A-1")).map Evidence.outcome =
      some .contradicts := by
    decide +kernel
  have same : relapsedLog = some octets := by
    rw [← file]
    simp [oneAncestor]
  rw [same, loaded] at newestOutcome
  have entry : (latestByCriterion (store.records.filter fun e => !e.red) (js "A-1")).map
      Evidence.outcome = some .contradicts := newestOutcome
  rw [latestByCriterion_eq_some.mpr newest, Option.map_some, supports] at entry
  cases entry

end SpecAsCode.Runtime
