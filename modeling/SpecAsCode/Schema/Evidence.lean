import SpecAsCode.Schema.Fields

/-!
# Evidence records
-/

namespace SpecAsCode.Schema

open SpecAsCode.Js
open SpecAsCode.Core

inductive EvidenceKind where
  | command
  | test
  | file
  | diff
  | agent
  | human
  | preparation
  deriving DecidableEq, Repr

/-- The kind as the schema spells it. -/
def EvidenceKind.text : EvidenceKind → JsString
  | .command => js "command"
  | .test => js "test"
  | .file => js "file"
  | .diff => js "diff"
  | .agent => js "agent"
  | .human => js "human"
  | .preparation => js "preparation"

def EvidenceKind.ofText (text : JsString) : Option EvidenceKind :=
  [.command, .test, .file, .diff, .agent, .human, .preparation].find? fun kind => kind.text = text

@[simp]
theorem EvidenceKind.ofText_text (kind : EvidenceKind) :
    EvidenceKind.ofText kind.text = some kind := by
  cases kind <;> rfl

inductive EvidenceOutcome where
  | supports
  | contradicts
  | inconclusive
  deriving DecidableEq, Repr

def EvidenceOutcome.text : EvidenceOutcome → JsString
  | .supports => js "supports"
  | .contradicts => js "contradicts"
  | .inconclusive => js "inconclusive"

def EvidenceOutcome.ofText (text : JsString) : Option EvidenceOutcome :=
  [.supports, .contradicts, .inconclusive].find? fun outcome => outcome.text = text

@[simp]
theorem EvidenceOutcome.ofText_text (outcome : EvidenceOutcome) :
    EvidenceOutcome.ofText outcome.text = some outcome := by
  cases outcome <;> rfl

inductive ProducerType where
  | runtime
  | agent
  | human
  deriving DecidableEq, Repr

def ProducerType.text : ProducerType → JsString
  | .runtime => js "runtime"
  | .agent => js "agent"
  | .human => js "human"

def ProducerType.ofText (text : JsString) : Option ProducerType :=
  [.runtime, .agent, .human].find? fun type => type.text = text

@[simp]
theorem ProducerType.ofText_text (type : ProducerType) :
    ProducerType.ofText type.text = some type := by
  cases type <;> rfl

structure EvidenceProducer where
  type : ProducerType
  identity : Option JsString

def EvidenceProducer.members (producer : EvidenceProducer) : Members :=
  [(js "type", .string producer.type.text), (js "identity", optionalField producer.identity)]

/-- `evidenceProducerSchema`. -/
def evidenceProducerSchema (value : JsValue) : Option EvidenceProducer :=
  match value with
  | .object members =>
      if onlyKeys [js "type", js "identity"] members then do
        let type ← (lookup (js "type") members).asString.bind ProducerType.ofText
        let identity ← optionalString (lookup (js "identity") members)
        return { type, identity }
      else
        none
  | _ => none

/-- An evidence record.  `red` is the presence of `phase: "red"`, the mark of a record
made at the base revision. -/
structure Evidence where
  id : JsString
  runId : JsString
  taskId : Option JsString
  criterionId : Option JsString
  propertyRefs : List JsString
  kind : EvidenceKind
  outcome : EvidenceOutcome
  producer : EvidenceProducer
  timestamp : JsString
  repositoryRevision : JsString
  red : Bool
  payload : JsValue
  chain : Option JsString
  digest : JsString

/-- The record without its digest. -/
def Evidence.rest (evidence : Evidence) : Members :=
  [(js "id", .string evidence.id), (js "runId", .string evidence.runId),
    (js "taskId", optionalField evidence.taskId),
    (js "criterionId", optionalField evidence.criterionId),
    (js "propertyRefs", .array (evidence.propertyRefs.map .string)),
    (js "kind", .string evidence.kind.text), (js "outcome", .string evidence.outcome.text),
    (js "producer", .object (definedMembers evidence.producer.members)),
    (js "timestamp", .string evidence.timestamp),
    (js "repositoryRevision", .string evidence.repositoryRevision),
    (js "phase", optionalField (if evidence.red then some (js "red") else none)),
    (js "payload", evidence.payload), (js "chain", optionalField evidence.chain)]

/-- The record as it is printed. -/
def Evidence.members (evidence : Evidence) : Members :=
  evidence.rest ++ [(js "digest", .string evidence.digest)]

/-- `z.literal("red").optional()`. -/
def redPhase (value : JsValue) : Option Bool :=
  match value with
  | .undefined => some false
  | .string text => if text = js "red" then some true else none
  | _ => none

/-- The keys of an evidence record. -/
def evidenceKeys : List JsString :=
  [js "id", js "runId", js "taskId", js "criterionId", js "propertyRefs", js "kind", js "outcome",
    js "producer", js "timestamp", js "repositoryRevision", js "phase", js "payload", js "chain",
    js "digest"]

/-- `evidenceSchema.safeParse`. -/
def evidenceSchema (value : JsValue) : Option Evidence :=
  match value with
  | .object members =>
      if onlyKeys evidenceKeys members then do
        let id ← nonemptyString (lookup (js "id") members)
        let runId ← (lookup (js "runId") members).asString
        let taskId ← optionalString (lookup (js "taskId") members)
        let criterionId ← optionalString (lookup (js "criterionId") members)
        let propertyRefs ← stringArray (lookup (js "propertyRefs") members)
        let kind ← (lookup (js "kind") members).asString.bind EvidenceKind.ofText
        let outcome ← (lookup (js "outcome") members).asString.bind EvidenceOutcome.ofText
        let producer ← evidenceProducerSchema (lookup (js "producer") members)
        let timestamp ← nonemptyString (lookup (js "timestamp") members)
        let repositoryRevision ← (lookup (js "repositoryRevision") members).asString
        let red ← redPhase (lookup (js "phase") members)
        let chain ← optionalString (lookup (js "chain") members)
        let digest ← nonemptyString (lookup (js "digest") members)
        return { id, runId, taskId, criterionId, propertyRefs, kind, outcome, producer, timestamp
                 repositoryRevision, red, chain, digest, payload := lookup (js "payload") members }
      else
        none
  | _ => none

/-- The genesis value of the evidence chain. -/
def EVIDENCE_CHAIN_GENESIS : JsString :=
  js "sha256:" ++ List.replicate 64 (unit '0')

/-- A record that a log can hold. -/
structure Evidence.Storable (evidence : Evidence) : Prop where
  id : evidence.id ≠ []
  timestamp : evidence.timestamp ≠ []
  digest : evidence.digest ≠ []
  payload : evidence.payload.isJson = true

theorem Evidence.members_keys (evidence : Evidence) :
    evidence.members.map Prod.fst = evidenceKeys := rfl

theorem evidenceKeys_inOrder : evidenceKeys.Pairwise KeysInOrder := by
  decide +kernel

theorem Evidence.enumerated (evidence : Evidence) : Enumerated evidence.members :=
  enumerated_of_keys evidence.members_keys evidenceKeys_inOrder

private theorem evidenceProducerSchema_members (producer : EvidenceProducer) :
    evidenceProducerSchema (.object (definedMembers producer.members)) = some producer := by
  have distinct : (producer.members.map Prod.fst).Nodup := by
    show [js "type", js "identity"].Nodup
    decide
  have only : onlyKeys [js "type", js "identity"] (definedMembers producer.members) = true :=
    onlyKeys_definedMembers (by rfl)
  have type : lookup (js "type") producer.members = .string producer.type.text := rfl
  have identity : lookup (js "identity") producer.members = optionalField producer.identity := rfl
  rw [evidenceProducerSchema, if_pos only, lookup_definedMembers distinct,
    lookup_definedMembers distinct, type, identity]
  simp [JsValue.asString]

private theorem redPhase_optionalField (red : Bool) :
    redPhase (optionalField (if red then some (js "red") else none)) = some red := by
  cases red <;> rfl

/-- A storable record passes the schema as it is. -/
theorem evidenceSchema_members {evidence : Evidence} (storable : evidence.Storable) :
    evidenceSchema (.object (definedMembers evidence.members)) = some evidence := by
  have distinct := evidence.enumerated.distinct
  have only : onlyKeys evidenceKeys (definedMembers evidence.members) = true :=
    onlyKeys_definedMembers (by rfl)
  have id : lookup (js "id") evidence.members = .string evidence.id := rfl
  have runId : lookup (js "runId") evidence.members = .string evidence.runId := rfl
  have taskId : lookup (js "taskId") evidence.members = optionalField evidence.taskId := rfl
  have criterionId : lookup (js "criterionId") evidence.members =
      optionalField evidence.criterionId := rfl
  have propertyRefs : lookup (js "propertyRefs") evidence.members =
      .array (evidence.propertyRefs.map .string) := rfl
  have kind : lookup (js "kind") evidence.members = .string evidence.kind.text := rfl
  have outcome : lookup (js "outcome") evidence.members = .string evidence.outcome.text := rfl
  have producer : lookup (js "producer") evidence.members =
      .object (definedMembers evidence.producer.members) := rfl
  have timestamp : lookup (js "timestamp") evidence.members = .string evidence.timestamp := rfl
  have revision : lookup (js "repositoryRevision") evidence.members =
      .string evidence.repositoryRevision := rfl
  have phase : lookup (js "phase") evidence.members =
      optionalField (if evidence.red then some (js "red") else none) := rfl
  have payload : lookup (js "payload") evidence.members = evidence.payload := rfl
  have chain : lookup (js "chain") evidence.members = optionalField evidence.chain := rfl
  have digest : lookup (js "digest") evidence.members = .string evidence.digest := rfl
  simp only [evidenceSchema, if_pos only, lookup_definedMembers distinct, id, runId, taskId,
    criterionId, propertyRefs, kind, outcome, producer, timestamp, revision, phase, payload, chain,
    digest, nonemptyString_string storable.id, nonemptyString_string storable.timestamp,
    nonemptyString_string storable.digest, optionalString_optionalField, stringArray_map,
    evidenceProducerSchema_members, redPhase_optionalField, JsValue.asString]
  simp

/-- The properties of a storable record make a JSON object. -/
theorem Evidence.Storable.isJson {evidence : Evidence} (storable : evidence.Storable)
    {members : Members} (some : members.Sublist evidence.members) :
    (JsValue.object (definedMembers members)).isJson = true := by
  have optional : ∀ value : Option JsString, (optionalField value).isUndefined = false →
      (optionalField value).isJson = true := by
    intro value defined
    cases value with
    | none => cases defined
    | some text => rfl
  have producer : (JsValue.object (definedMembers evidence.producer.members)).isJson = true := by
    rw [JsValue.isJson, Bool.and_eq_true, decide_eq_true_eq, membersAreJson_iff]
    have enumerated : Enumerated evidence.producer.members :=
      @enumerated_of_keys _ [js "type", js "identity"] rfl (by decide)
    refine ⟨enumerated.filter _, fun member found => ?_⟩
    obtain ⟨source, defined⟩ := List.mem_filter.mp found
    simp only [EvidenceProducer.members, List.mem_cons, List.not_mem_nil, or_false] at source
    rcases source with rfl | rfl
    · rfl
    · exact optional _ (by simpa using defined)
  have refs : (JsValue.array (evidence.propertyRefs.map .string)).isJson = true := by
    rw [JsValue.isJson, itemsAreJson_iff]
    intro item member
    obtain ⟨text, -, rfl⟩ := List.mem_map.mp member
    rfl
  rw [JsValue.isJson, Bool.and_eq_true, decide_eq_true_eq, membersAreJson_iff]
  refine ⟨(evidence.enumerated.sublist some).filter _, fun member found => ?_⟩
  obtain ⟨source, defined⟩ := List.mem_filter.mp found
  have listed := some.subset source
  simp only [Evidence.members, Evidence.rest, List.cons_append, List.nil_append, List.mem_cons,
    List.not_mem_nil, or_false] at listed
  simp only [Bool.not_eq_true'] at defined
  rcases listed with rfl | rfl | rfl | rfl | rfl | rfl | rfl | rfl | rfl | rfl | rfl | rfl | rfl |
    rfl
  · rfl
  · rfl
  · exact optional _ defined
  · exact optional _ defined
  · exact refs
  · rfl
  · rfl
  · exact producer
  · rfl
  · rfl
  · exact optional _ defined
  · exact storable.payload
  · exact optional _ defined
  · rfl

end SpecAsCode.Schema
