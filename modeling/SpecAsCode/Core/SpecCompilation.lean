import SpecAsCode.Core.MetadataHashing

/-!
# When compiling a specification throws

The compiler returns a specification or diagnostics, unless it accepts a document with a value
under `metadata` that canonical JSON refuses.
-/

namespace SpecAsCode.Compiler

open SpecAsCode.Js
open SpecAsCode.Core
open SpecAsCode.Lib
open SpecAsCode.Schema (FileAssert Priority)
open SpecAsCode.Js.Path (normalize)

variable {yaml : YamlParser} {schema : SpecSchema} {sha256Hex : JsString → JsString}

/-- The compilation returns a compiled specification or a list of diagnostics. -/
def Returns (outcome : Except CanonicalError SpecCompileResult) : Prop :=
  ∃ result, outcome = .ok result

/-- What the document of a source has under `metadata` in its properties is fit for canonical
JSON. -/
def HashableMetadata (yaml : YamlParser) (source : JsString) : Prop :=
  ∀ doc, yaml source = .ok [doc] → ∀ members, some members ∈ doc.walked.value.metadataRecords →
    ∀ member ∈ members, member.2.hashable = true

/-! ## Specifications that are hashed -/

theorem metadata_propertySources (spec : Spec) :
    (propertySources spec).map (fun source => source.metadata) = spec.metadataRecords := by
  rw [propertySources, Spec.source, getD_map_source, List.map_append, List.map_map, List.map_map]
  rfl

/-- A specification is finalized exactly when its metadata is copied. -/
theorem finalizeSpec_iff (spec : Spec) (importedFiles : Option (List JsString)) :
    (∃ ir, finalizeSpec sha256Hex spec importedFiles = .ok ir) ↔
      ∀ record, some record ∈ spec.metadataRecords → record.Copies := by
  have properties : (∀ source ∈ (normalizeSpec spec.source).requirements ++
      (normalizeSpec spec.source).constraints, ∀ record, source.metadata = some record →
        record.Copies) ↔ ∀ record, some record ∈ spec.metadataRecords → record.Copies := by
    rw [← metadata_propertySources, ← @map_properties _ DesiredProperty.metadata _ fun _ _ => rfl]
    constructor
    · intro each record member
      obtain ⟨source, here, held⟩ := List.mem_map.mp member
      exact each source here record held
    · intro each source here record held
      exact each record (List.mem_map.mpr ⟨source, here, held⟩)
  rw [← properties, ← copies_specDocument_iff]
  have wellFormed := specDocument.wellFormed (normalizeSpec spec.source)
  constructor
  · rintro ⟨ir, finalized⟩
    obtain ⟨copy, copied⟩ := @canonicalizable_of_digestOf ⟨_, wellFormed⟩ _ _
      (finalizeSpec_ok finalized).1
    exact copies_of_copied wellFormed copied
  · intro copies
    obtain ⟨digest, hashed⟩ := @digestOf_of_canonicalizable ⟨_, wellFormed⟩ sha256Hex (copies [])
    exact ⟨_, by rw [finalizeSpec, hashed]; rfl⟩

theorem returns_map (outcome : Except CanonicalError SpecIR) (diagnostics : List Diagnostic) :
    Returns (outcome.map (.succeeded diagnostics)) ↔ ∃ ir, outcome = .ok ir := by
  cases outcome with
  | error error => exact iff_of_false nofun nofun
  | ok ir => exact iff_of_true ⟨_, rfl⟩ ⟨ir, rfl⟩

/-- The records of a specification are those of its document. -/
theorem copies_records_iff {source : JsString} {spec : Spec}
    (parsed : specOf (yamlSpecs yaml schema) source = some spec) :
    (∀ record, some record ∈ spec.metadataRecords → record.Copies) ↔
      HashableMetadata yaml source := by
  obtain ⟨read, -⟩ := Option.filter_eq_some_iff.mp parsed
  obtain ⟨doc, here, -, -, checked⟩ := document_yamlSpecs read
  have kept := schema.keeps _ _ checked
  have record : ∀ members : RawMembers, Copies (.object (shadowMembers members)) ↔
      ∀ member ∈ members, member.2.hashable = true :=
    fun members => (copies_shadow_iff (.object members)).trans (membersHashable_iff members)
  constructor
  · intro each other there members member
    rw [here] at there
    cases there
    have found : some (shadowMembers members) ∈
        spec.metadataRecords.map (Option.map UnknownRecord.members) := by
      rw [kept]
      exact List.mem_map.mpr ⟨some members, member, rfl⟩
    obtain ⟨held, inside, same⟩ := List.mem_map.mp found
    obtain ⟨unknown, rfl, equal⟩ := Option.map_eq_some_iff.mp same
    have copies := each unknown inside
    rw [UnknownRecord.Copies, equal] at copies
    exact (record members).mp copies
  · intro hashable unknown member
    have found : some unknown.members ∈
        doc.walked.value.metadataRecords.map (Option.map shadowMembers) := by
      rw [← kept]
      exact List.mem_map.mpr ⟨some unknown, member, rfl⟩
    obtain ⟨held, inside, same⟩ := List.mem_map.mp found
    obtain ⟨members, rfl, equal⟩ := Option.map_eq_some_iff.mp same
    rw [UnknownRecord.Copies, ← equal]
    exact (record members).mpr (hashable doc here members inside)

/-! ## One source -/

/-- A source comes to the hash when nothing is wrong with it. -/
def SourceAccepted (parser : Parser) (source : JsString) : Prop :=
  ∃ spec, specOf parser source = some spec ∧ hasErrors (validateSpecCrossRefs spec) = false

theorem compileSpecSource_returns_iff (source file : JsString) :
    Returns (compileSpecSource (yamlSpecs yaml schema) sha256Hex source file) ↔
      (SourceAccepted (yamlSpecs yaml schema) source → HashableMetadata yaml source) := by
  rw [compileSpecSource]
  cases parsed : (parseSpecSource (yamlSpecs yaml schema) source file).spec with
  | none =>
      refine iff_of_true ⟨_, rfl⟩ ?_
      rintro ⟨spec, found, -⟩
      rw [parseSpecSource_spec, found] at parsed
      cases parsed
  | some spec =>
      have found := parsed
      rw [parseSpecSource_spec] at found
      simp only
      split_ifs with broken
      · refine iff_of_true ⟨_, rfl⟩ ?_
        rintro ⟨other, same, references⟩
        rw [found] at same
        cases same
        obtain ⟨-, silent, diagnostics⟩ := parse_some parsed
        rw [hasErrors_append, diagnostics, silent, references] at broken
        cases broken
      · rw [Bool.not_eq_true, hasErrors_append, Bool.or_eq_false_iff] at broken
        rw [returns_map, finalizeSpec_iff, copies_records_iff found]
        exact ⟨fun hashable _ => hashable, fun hashable => hashable ⟨spec, found, broken.2⟩⟩

/-! ## The files of a composition -/

/-- The files of a composition come to the hash when nothing is wrong with them. -/
structure GraphAccepted (parser : Parser) (files : FileSet) (entryFile : JsString)
    (entry : LoadedFile) (imports : List LoadedFile) : Prop where
  gathered : Gathered parser files entryFile (entry :: imports)
  apart : hasErrors (collisions OrderedMap.empty (definitions (entry :: imports))) = false
  references : hasErrors (validateSpecCrossRefs (compose entry imports)) = false

/-- The documents of all files that the entry reaches are fit for canonical JSON. -/
def HashableGraph (yaml : YamlParser) (parser : Parser) (files : FileSet) (entryFile : JsString) :
    Prop :=
  ∀ key, Reaches (importEdges parser files entryFile) (normalize entryFile) key →
    ∀ source, sourceAt files entryFile key = some source → HashableMetadata yaml source

theorem mem_metadataRecords_compose {entry : LoadedFile} {imports : List LoadedFile}
    {record : Option UnknownRecord} :
    record ∈ (compose entry imports).metadataRecords ↔
      ∃ file ∈ entry :: imports, record ∈ file.spec.metadataRecords := by
  have permuted := perm_compose (fun source => [source.metadata]) entry imports
  have each : ∀ spec : Spec, ((propertySources spec).flatMap fun source => [source.metadata]) =
      spec.metadataRecords := by
    intro spec
    rw [← List.map_eq_flatMap, metadata_propertySources]
  rw [← each, permuted.mem_iff, List.mem_flatMap]
  simp only [each]

theorem Gathered.reaches_iff {parser : Parser} {files : FileSet} {entryFile : JsString}
    {order : List LoadedFile} (gathered : Gathered parser files entryFile order) {key : JsString} :
    Reaches (importEdges parser files entryFile) (normalize entryFile) key ↔
      ∃ file ∈ order, file.file = key := by
  obtain ⟨walk, walked, names⟩ := gathered.walked
  rw [← List.mem_map, names, mem_once]
  simp [walked.mem_iff]

theorem copies_graph_iff {files : FileSet} {entryFile : JsString} {entry : LoadedFile}
    {imports : List LoadedFile}
    (gathered : Gathered (yamlSpecs yaml schema) files entryFile (entry :: imports)) :
    (∀ record, some record ∈ (compose entry imports).metadataRecords → record.Copies) ↔
      HashableGraph yaml (yamlSpecs yaml schema) files entryFile := by
  have file : ∀ file ∈ entry :: imports,
      ((∀ record, some record ∈ file.spec.metadataRecords → record.Copies) ↔
        ∀ source, sourceAt files entryFile file.file = some source → HashableMetadata yaml source) := by
    intro file member
    obtain ⟨source, read, parsed⟩ := Option.bind_eq_some_iff.mp (gathered.content file member)
    rw [copies_records_iff parsed, read]
    simp
  constructor
  · intro each key path source read
    obtain ⟨loaded, member, rfl⟩ := gathered.reaches_iff.mp path
    refine (file loaded member).mp (fun record here => each record ?_) source read
    exact mem_metadataRecords_compose.mpr ⟨loaded, member, here⟩
  · intro hashable record member
    obtain ⟨loaded, here, inside⟩ := mem_metadataRecords_compose.mp member
    exact (file loaded here).mpr
      (hashable loaded.file (gathered.reaches_iff.mpr ⟨loaded, here, rfl⟩)) record inside

theorem composeLoaded_returns_iff {files : FileSet} {entryFile : JsString} {entry : LoadedFile}
    {imports : List LoadedFile} {diagnostics : List Diagnostic}
    (gathered : Gathered (yamlSpecs yaml schema) files entryFile (entry :: imports))
    (silent : hasErrors diagnostics = false) :
    Returns (composeLoaded sha256Hex entry (entry :: imports) diagnostics) ↔
      (GraphAccepted (yamlSpecs yaml schema) files entryFile entry imports →
        HashableGraph yaml (yamlSpecs yaml schema) files entryFile) := by
  rw [composeLoaded]
  simp only [List.drop_succ_cons, List.drop_zero, hasErrors_append, silent, Bool.false_or]
  split_ifs with collided broken
  · refine iff_of_true ⟨_, rfl⟩ fun accepted => ?_
    rw [accepted.apart] at collided
    cases collided
  · refine iff_of_true ⟨_, rfl⟩ fun accepted => ?_
    rw [accepted.references, Bool.or_false] at broken
    exact absurd broken collided
  · rw [Bool.not_eq_true, Bool.or_eq_false_iff] at broken
    rw [returns_map, finalizeSpec_iff, copies_graph_iff gathered]
    exact ⟨fun hashable _ => hashable, fun hashable => hashable ⟨gathered, broken.1, broken.2⟩⟩

theorem compileSpecGraph_returns_iff (files : FileSet) (entryFile : JsString) :
    (∃ outcome, compileSpecGraph (yamlSpecs yaml schema) sha256Hex files entryFile = some outcome ∧
        Returns outcome) ↔
      ((∃ entry imports, GraphAccepted (yamlSpecs yaml schema) files entryFile entry imports) →
        HashableGraph yaml (yamlSpecs yaml schema) files entryFile) := by
  constructor
  · rintro ⟨outcome, compiled, returns⟩ ⟨entry, imports, accepted⟩
    obtain ⟨diagnostics, silent, composed⟩ :=
      compileSpecGraph_of_gathered accepted.gathered sha256Hex
    rw [compiled, Option.some.injEq] at composed
    subst composed
    exact (composeLoaded_returns_iff accepted.gathered silent).mp returns accepted
  · intro hashable
    rcases compileSpecGraph_ends (yamlSpecs yaml schema) sha256Hex files entryFile with
      ⟨diagnostics, failed⟩ | ⟨entry, imports, -, gathered, -⟩
    · exact ⟨_, failed, _, rfl⟩
    · obtain ⟨diagnostics, silent, composed⟩ := compileSpecGraph_of_gathered gathered sha256Hex
      exact ⟨_, composed, (composeLoaded_returns_iff gathered silent).mpr
        fun accepted => hashable ⟨entry, imports, accepted⟩⟩

def textNode (text : String) : YamlNode :=
  .scalar (.string (js text))

/-- A requirement with one criterion, and a number under `metadata` where one is given. -/
def sampleRequirement (weight : Option JsNumber) : YamlNode :=
  .map ([(textNode "id", textNode "REQ-1"), (textNode "statement", textNode "It works."),
    (textNode "priority", textNode "must"),
    (textNode "acceptance", .seq [.map [(textNode "id", textNode "AC-1"),
      (textNode "type", textNode "command"), (textNode "command", textNode "npm test")]])] ++
    match weight with
    | none => []
    | some weight => [(textNode "metadata", .map [(textNode "weight", .scalar (.number weight))])])

def sampleContents (weight : Option JsNumber) : YamlNode :=
  .map [(textNode "apiVersion", textNode "spc.dev/v1alpha1"), (textNode "kind", textNode "Spec"),
    (textNode "metadata", .map [(textNode "id", textNode "login"),
      (textNode "title", textNode "Login")]),
    (textNode "goal", textNode "Log in."),
    (textNode "requirements", .seq [sampleRequirement weight])]

theorem ids_sampleContents (weight : Option JsNumber) : (sampleContents weight).ids = [] := by
  cases weight <;> rfl

theorem sampleContents_listed (weight : Option JsNumber) (id : Nat)
    (member : id ∈ (sampleContents weight).ids) : id ∈ ([] : List Nat) := by
  rwa [ids_sampleContents] at member

def sampleDocument (weight : Option JsNumber) : YamlDocument where
  errors := []
  contents := sampleContents weight
  aliases := []
  resolve _ := .absent
  listed := sampleContents_listed weight
  closed := List.forall_mem_nil _

/-- A document that was not understood. -/
def brokenDocument : YamlDocument where
  errors := [js "Implicit keys need to be on a single line"]
  contents := .absent
  aliases := []
  resolve _ := .absent
  listed := List.forall_mem_nil _
  closed := List.forall_mem_nil _

def sampleSource : JsString :=
  js "apiVersion: spc.dev/v1alpha1\nkind: Spec\nmetadata:\n  id: login\n  title: Login\n" ++
    js "goal: Log in.\nrequirements:\n  - id: REQ-1\n    statement: It works.\n" ++
    js "    priority: must\n    acceptance:\n      - id: AC-1\n        type: command\n" ++
    js "        command: npm test\n"

/-- The source with a number that is not one. -/
def weightedSource : JsString :=
  sampleSource ++ js "    metadata:\n      weight: .nan\n"

/-- What a parser makes of the two sources, and of others that are no specifications. -/
def sampleYaml (source : JsString) : Except JsString (List YamlDocument) :=
  if source = sampleSource then
    .ok [sampleDocument none]
  else if source = weightedSource then
    .ok [sampleDocument (some .nan)]
  else
    .ok [brokenDocument]

theorem sampleRecord_wellFormed (weight : JsNumber) :
    (JsValue.object [(js "weight", .number weight)]).isWellFormed = true := rfl

theorem sampleRecord_plain (weight : JsNumber) :
    withoutProto (.object [(js "weight", .number weight)]) =
      .object [(js "weight", .number weight)] := rfl

def sampleRecord (weight : JsNumber) : UnknownRecord where
  members := [(js "weight", .number weight)]
  wellFormed := sampleRecord_wellFormed weight
  plain := sampleRecord_plain weight

def sampleSpec (metadata : Option UnknownRecord) : Spec where
  metadata := ⟨js "login", js "Login", none⟩
  goal := js "Log in."
  imports := none
  environment := none
  requirements :=
    [{ id := js "REQ-1"
       statement := js "It works."
       category := none
       dependsOn := none
       acceptance := some [.command (js "AC-1") (js "npm test") none none none]
       metadata := metadata
       priority := .must
       scope := none }]
  constraints := none
  outOfScope := none

/-- The metadata of the one property of a document, when it has only one and what it has is a
number. -/
def sampleMetadata (data : RawValue) : Option (Option UnknownRecord) :=
  match data.metadataRecords with
  | [none] => some none
  | [some [(key, .scalar (.number weight))]] =>
      if key = js "weight" then some (some (sampleRecord weight)) else none
  | _ => none

def hasSpecKeys (data : RawValue) : Bool :=
  data.members?.any fun members => members.all fun member => member.1 ∈ specSchemaKeys

def sampleParse (data : RawValue) : Except (List Issue) Spec :=
  match sampleMetadata data with
  | some metadata =>
      if hasSpecKeys data then .ok (sampleSpec metadata) else .error [⟨js "custom", [], [], []⟩]
  | none => .error [⟨js "custom", [], [], []⟩]

theorem sampleParse_ok {data : RawValue} {spec : Spec} (parsed : sampleParse data = .ok spec) :
    ∃ metadata, sampleMetadata data = some metadata ∧ hasSpecKeys data = true ∧
      spec = sampleSpec metadata := by
  rw [sampleParse] at parsed
  cases found : sampleMetadata data with
  | none => rw [found] at parsed; cases parsed
  | some metadata =>
      rw [found] at parsed
      simp only at parsed
      split_ifs at parsed with keys
      cases parsed
      exact ⟨metadata, rfl, keys, rfl⟩

theorem sampleParse_complains (data : RawValue) (issues : List Issue)
    (refused : sampleParse data = .error issues) : issues ≠ [] := by
  rw [sampleParse] at refused
  cases found : sampleMetadata data with
  | none => rw [found] at refused; cases refused; simp
  | some metadata =>
      rw [found] at refused
      simp only at refused
      split_ifs at refused
      cases refused
      simp

theorem sampleParse_strict (data : RawValue) (spec : Spec) (parsed : sampleParse data = .ok spec) :
    ∃ members, data.members? = some members ∧ ∀ member ∈ members, member.1 ∈ specSchemaKeys := by
  obtain ⟨-, -, keys, -⟩ := sampleParse_ok parsed
  rw [hasSpecKeys] at keys
  cases held : data.members? with
  | none => rw [held] at keys; cases keys
  | some members =>
      rw [held] at keys
      exact ⟨members, rfl, fun member here => by simpa using List.all_eq_true.mp keys member here⟩

theorem sampleParse_keeps (data : RawValue) (spec : Spec) (parsed : sampleParse data = .ok spec) :
    spec.metadataRecords.map (Option.map UnknownRecord.members) =
      data.metadataRecords.map (Option.map shadowMembers) := by
  obtain ⟨metadata, found, -, rfl⟩ := sampleParse_ok parsed
  rw [sampleMetadata] at found
  split at found
  next records =>
    cases found
    rw [records]
    rfl
  next key weight records =>
    split_ifs at found with same
    cases found
    rw [records, same]
    rfl
  next => cases found

def sampleSchema : SpecSchema where
  safeParse := sampleParse
  complains := sampleParse_complains
  strict := sampleParse_strict
  keeps := sampleParse_keeps

end SpecAsCode.Compiler
