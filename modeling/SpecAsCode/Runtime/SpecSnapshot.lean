import SpecAsCode.Core.CriteriaApart
import SpecAsCode.Core.SpecCompilation

/-!
# The frozen specification of a run

A run keeps the text of the specification it works for under a header.  The last line of the
header is no comment, so that the text of the snapshot is a document of its own, which is no
specification.
-/

namespace SpecAsCode.Compiler

open SpecAsCode.Js
open SpecAsCode.Core

/-! ## Writing and reading a snapshot -/

/-- What is kept of a run directory: the text of `spec-snapshot.yaml`. -/
structure RunDir where
  specSnapshot : Option JsString

def purposeLine : JsString :=
  js "# spc frozen spec snapshot - reconstructible record of what this run obligated against"

/-- The last line of the header. -/
def verbatimLine : JsString :=
  js "The frozen spec source follows verbatim."

def snapshotHeader (digest frozenAt : JsString) : JsString :=
  joinTexts (js "\n")
    [purposeLine, js "# digest: " ++ digest, js "# frozenAt: " ++ frozenAt, verbatimLine, []]

def writeSpecSnapshot (runDir : RunDir) (specIr : SpecIR) (specSource now : JsString) : RunDir :=
  { runDir with specSnapshot := some (snapshotHeader specIr.digest now ++ specSource) }

/-- What `renderSpecSection` compiles, where there is a snapshot. -/
def compileSnapshot (parser : Parser) (sha256Hex : JsString → JsString) (runDir : RunDir) :
    Option (Except CanonicalError SpecCompileResult) :=
  runDir.specSnapshot.map fun snapshotText =>
    compileSpecSource parser sha256Hex snapshotText (js "spec-snapshot.yaml")

/-- `compiled.ok && compiled.ir ? compiled.ir.digest : "unknown"`. -/
def snapshotDigest (compiled : SpecCompileResult) : JsString :=
  if compiled.ok then (compiled.ir.map SpecIR.digest).getD (js "unknown") else js "unknown"

/-- The specification of a run comes from the text, with or without the files it imports. -/
def CompiledFrom (parser : Parser) (sha256Hex : JsString → JsString) (specSource : JsString)
    (specIr : SpecIR) : Prop :=
  (∃ file diagnostics, compileSpecSource parser sha256Hex specSource file =
    .ok (.succeeded diagnostics specIr)) ∨
  ∃ files entryFile, files.read entryFile = some specSource ∧
    Compiles parser sha256Hex files entryFile specIr

/-- The snapshot compiles, to a specification with the digest of the run. -/
def Restored (parser : Parser) (sha256Hex : JsString → JsString) (runDir : RunDir)
    (specIr : SpecIR) : Prop :=
  ∃ diagnostics restored, compileSnapshot parser sha256Hex runDir =
    some (.ok (.succeeded diagnostics restored)) ∧ restored.digest = specIr.digest

/-! ## Lines of a document -/

/-- A text without line breaks. -/
def OneLine (text : JsString) : Prop :=
  unit '\n' ∉ text ∧ unit '\r' ∉ text

def IsComment (line : JsString) : Prop :=
  OneLine line ∧ [unit '#'] <+: line

def isPlainUnit (code : CodeUnit) : Bool :=
  (97 ≤ code.val && code.val ≤ 122) || (65 ≤ code.val && code.val ≤ 90) || code = unit ' ' ||
    code = unit '.'

/-- A line of words, from a letter to a full stop. -/
structure IsPlain (line : JsString) : Prop where
  letters : ∀ code ∈ line, isPlainUnit code = true
  starts : ∃ first rest, line = first :: rest ∧ first ≠ unit ' ' ∧ first ≠ unit '.'
  ends : line.getLast? = some (unit '.')

/-- A plain line that is no comment is part of the document.  Behind nothing but comments it is
what the document begins with. -/
def ReadsPlainLines (yaml : YamlParser) : Prop :=
  ∀ (comments : List JsString) (line rest : JsString) (doc : YamlDocument),
    (∀ comment ∈ comments, IsComment comment) → IsPlain line →
    yaml ((comments.flatMap fun comment => comment ++ js "\n") ++ (line ++ js "\n" ++ rest)) =
      .ok [doc] → doc.errors = [] →
    ∃ text, doc.contents.firstScalar = some (.string text) ∧ line <+: text

/-! ## No snapshot compiles -/

theorem verbatimLine_letters : verbatimLine.all isPlainUnit = true := by
  decide +kernel

theorem verbatimLine_plain : IsPlain verbatimLine where
  letters := List.all_eq_true.mp verbatimLine_letters
  starts := ⟨unit 'T', _, rfl, by decide, by decide⟩
  ends := rfl

/-- No key of the schema begins with the line. -/
theorem verbatimLine_foreign :
    ∀ key ∈ protoKey :: specSchemaKeys, ¬ verbatimLine <+: key := by
  decide

theorem snapshotHeader_eq (digest frozenAt specSource : JsString) :
    snapshotHeader digest frozenAt ++ specSource =
      ([purposeLine, js "# digest: " ++ digest, js "# frozenAt: " ++ frozenAt].flatMap
        fun comment => comment ++ js "\n") ++ (verbatimLine ++ js "\n" ++ specSource) := by
  simp only [snapshotHeader, joinTexts, List.intercalate, List.intersperse, List.flatten_cons,
    List.flatten_nil, List.flatMap_cons, List.flatMap_nil, List.append_assoc, List.append_nil]

theorem OneLine.append {first second : JsString} (before : OneLine first) (after : OneLine second) :
    OneLine (first ++ second) := by
  constructor
  · rw [List.mem_append, not_or]
    exact ⟨before.1, after.1⟩
  · rw [List.mem_append, not_or]
    exact ⟨before.2, after.2⟩

instance (text : JsString) : Decidable (OneLine text) :=
  inferInstanceAs (Decidable (_ ∧ _))

theorem snapshotComments {digest frozenAt : JsString} (oneDigest : OneLine digest)
    (oneStamp : OneLine frozenAt) :
    ∀ comment ∈ [purposeLine, js "# digest: " ++ digest, js "# frozenAt: " ++ frozenAt],
      IsComment comment := by
  have titled : ∀ {title text : JsString}, OneLine title → [unit '#'] <+: title → OneLine text →
      IsComment (title ++ text) :=
    fun single hash one => ⟨single.append one, hash.trans (List.prefix_append _ _)⟩
  simp only [List.forall_mem_cons]
  exact ⟨⟨by decide, by decide⟩, titled (by decide) (by decide) oneDigest,
    titled (by decide) (by decide) oneStamp, List.forall_mem_nil _⟩

variable {yaml : YamlParser} {schema : SpecSchema} {sha256Hex : JsString → JsString}

/-- A document that begins with the line is no specification. -/
theorem document_of_verbatimLine (plain : ReadsPlainLines yaml) {comments : List JsString}
    (all : ∀ comment ∈ comments, IsComment comment) (rest : JsString) :
    (yamlSpecs yaml schema).document ((comments.flatMap fun comment => comment ++ js "\n") ++
      (verbatimLine ++ js "\n" ++ rest)) = none := by
  cases read : (yamlSpecs yaml schema).document ((comments.flatMap fun comment =>
      comment ++ js "\n") ++ (verbatimLine ++ js "\n" ++ rest)) with
  | none => rfl
  | some spec =>
      obtain ⟨doc, parsed, sound, silent, checked⟩ := document_yamlSpecs read
      obtain ⟨text, first, begins⟩ := plain comments verbatimLine rest doc all verbatimLine_plain
        parsed sound
      obtain ⟨members, object, known⟩ := schema.strict _ _ checked
      have foreign : ∀ key ∈ protoKey :: specSchemaKeys, text ≠ key :=
        fun key member same => verbatimLine_foreign key member (same ▸ begins)
      rcases walked_of_firstScalar first with none | complaint | held
      · rw [none] at object
        cases object
      · have reported := List.any_eq_false.mp silent _ complaint
        exact absurd (decide_eq_true rfl) reported
      · have inside := held (foreign protoKey List.mem_cons_self)
        rw [RawValue.keys, object, Option.getD_some] at inside
        obtain ⟨member, here, same⟩ := List.mem_map.mp inside
        exact absurd same.symm (foreign _ (List.mem_cons_of_mem _ (known member here)))

/-- The digest of a specification that was compiled is the hash of a text. -/
theorem digest_of_compiledFrom {parser : Parser} {specSource : JsString} {specIr : SpecIR}
    (compiled : CompiledFrom parser sha256Hex specSource specIr) :
    ∃ text, specIr.digest = js "sha256:" ++ sha256Hex text := by
  have hashed : ∀ {spec : Spec} {importedFiles : Option (List JsString)},
      finalizeSpec sha256Hex spec importedFiles = .ok specIr →
      ∃ text, specIr.digest = js "sha256:" ++ sha256Hex text := by
    intro spec importedFiles finalized
    have digest := (finalizeSpec_ok finalized).1
    rw [digestOf] at digest
    cases canonical : canonicalJson (specDocument.value (normalizeSpec spec.source)) with
    | error error => rw [canonical] at digest; cases digest
    | ok text =>
        rw [canonical] at digest
        exact ⟨text, (Except.ok.inj digest).symm⟩
  rcases compiled with ⟨file, diagnostics, compiled⟩ | ⟨files, entryFile, -, compiled⟩
  · rw [compileSpecSource] at compiled
    cases parsed : (parseSpecSource parser specSource file).spec with
    | none => rw [parsed] at compiled; cases compiled
    | some spec =>
        rw [parsed] at compiled
        simp only at compiled
        split_ifs at compiled
        · cases compiled
        · cases finalized : finalizeSpec sha256Hex spec none with
          | error error => rw [finalized] at compiled; cases compiled
          | ok ir =>
              rw [finalized] at compiled
              cases compiled
              exact hashed finalized
  · obtain ⟨entry, imports, checked⟩ := checked_of_compiles compiled
    exact hashed checked.finalized

/-- Whatever was compiled, the snapshot of it does not compile. -/
theorem snapshot_never_restored (plain : ReadsPlainLines yaml) (schema : SpecSchema)
    (hexadecimal : ∀ text, OneLine (sha256Hex text)) (runDir : RunDir) {specSource now : JsString}
    {specIr : SpecIR} (compiled : CompiledFrom (yamlSpecs yaml schema) sha256Hex specSource specIr)
    (stamp : OneLine now) :
    ¬ Restored (yamlSpecs yaml schema) sha256Hex (writeSpecSnapshot runDir specIr specSource now)
      specIr := by
  rintro ⟨diagnostics, restored, read, -⟩
  obtain ⟨text, digest⟩ := digest_of_compiledFrom compiled
  have single : OneLine specIr.digest := by
    rw [digest]
    exact OneLine.append (by decide) (hexadecimal text)
  have refused := @document_of_verbatimLine yaml schema plain _ (snapshotComments single stamp)
    specSource
  rw [compileSnapshot, writeSpecSnapshot, Option.map_some, Option.some.injEq, snapshotHeader_eq,
    compileSpecSource, parseSpecSource, refused] at read
  cases read

/-! ## A specification and its snapshot -/

/-- Every code unit in hexadecimal, in the place of a hash. -/
def sampleHash (text : JsString) : JsString :=
  text.flatMap fun code =>
    [hexUnit (code.val / 4096 % 16), hexUnit (code.val / 256 % 16), hexUnit (code.val / 16 % 16),
      hexUnit (code.val % 16)]

def sampleStamp : JsString :=
  js "2026-01-01T00:00:00.000Z"

theorem hexUnit_oneLine : ∀ digit < 16, hexUnit digit ≠ unit '\n' ∧ hexUnit digit ≠ unit '\r' := by
  decide

theorem sampleHash_oneLine (text : JsString) : OneLine (sampleHash text) := by
  have digits : ∀ letter ∈ sampleHash text, letter ≠ unit '\n' ∧ letter ≠ unit '\r' := by
    intro letter member
    obtain ⟨code, -, inside⟩ := List.mem_flatMap.mp member
    simp only [List.mem_cons, List.not_mem_nil, or_false] at inside
    rcases inside with rfl | rfl | rfl | rfl
    · exact hexUnit_oneLine _ (Nat.mod_lt _ (by decide))
    · exact hexUnit_oneLine _ (Nat.mod_lt _ (by decide))
    · exact hexUnit_oneLine _ (Nat.mod_lt _ (by decide))
    · exact hexUnit_oneLine _ (Nat.mod_lt _ (by decide))
  exact ⟨fun member => (digits _ member).1 rfl, fun member => (digits _ member).2 rfl⟩

theorem sampleSources_begin :
    js "apiVersion:" <+: sampleSource ∧ js "apiVersion:" <+: weightedSource := by
  decide +kernel

/-- What the parser reads without errors begins with the version. -/
theorem sampleYaml_begins {source : JsString} {doc : YamlDocument}
    (read : sampleYaml source = .ok [doc]) (sound : doc.errors = []) :
    js "apiVersion:" <+: source := by
  rw [sampleYaml] at read
  split_ifs at read with plain weighted
  · rw [plain]
    exact sampleSources_begin.1
  · rw [weighted]
    exact sampleSources_begin.2
  · cases read
    cases sound

theorem sampleYaml_plain : ReadsPlainLines sampleYaml := by
  intro comments line rest doc all plain read sound
  obtain ⟨tail, begins⟩ := sampleYaml_begins read sound
  cases comments with
  | cons comment comments =>
      obtain ⟨text, marked⟩ := (all comment List.mem_cons_self).2
      rw [← marked, List.flatMap_cons] at begins
      have heads := congrArg List.head? begins
      exact absurd heads (by simp [js, unit])
  | nil =>
      rw [List.flatMap_nil, List.nil_append, List.append_assoc] at begins
      have words := congrArg (List.takeWhile isPlainUnit) begins
      rw [List.takeWhile_append_of_pos plain.letters] at words
      have same : line = js "apiVersion" := by
        have stop : (js "\n" ++ rest).takeWhile isPlainUnit = [] := rfl
        rw [stop, List.append_nil] at words
        exact words.symm
      have ends := plain.ends
      rw [same] at ends
      exact absurd ends (by decide)

/-- The source compiles. -/
theorem sampleSource_compiles : ∃ specIr,
    CompiledFrom (yamlSpecs sampleYaml sampleSchema) sampleHash sampleSource specIr := by
  have succeeds : (compileSpecSource (yamlSpecs sampleYaml sampleSchema) sampleHash sampleSource
      (js "login.yaml")).toOption.map (fun result => (result.ok, result.ir.isSome)) =
      some (true, true) := by
    decide +kernel
  cases compiled : compileSpecSource (yamlSpecs sampleYaml sampleSchema) sampleHash sampleSource
      (js "login.yaml") with
  | error error => rw [compiled] at succeeds; cases succeeds
  | ok result =>
      obtain ⟨ok, ir, diagnostics⟩ := result
      rw [compiled] at succeeds
      simp only [Except.toOption, Option.map_some, Option.some.injEq, Prod.mk.injEq] at succeeds
      obtain ⟨rfl, some⟩ := succeeds
      obtain ⟨specIr, rfl⟩ := Option.isSome_iff_exists.mp some
      exact ⟨specIr, Or.inl ⟨js "login.yaml", diagnostics, compiled⟩⟩

theorem snapshot_never_restored_sample : ∃ specIr,
    CompiledFrom (yamlSpecs sampleYaml sampleSchema) sampleHash sampleSource specIr ∧
    ¬ Restored (yamlSpecs sampleYaml sampleSchema) sampleHash
      (writeSpecSnapshot ⟨none⟩ specIr sampleSource sampleStamp) specIr := by
  obtain ⟨specIr, compiled⟩ := sampleSource_compiles
  exact ⟨specIr, compiled, snapshot_never_restored sampleYaml_plain sampleSchema sampleHash_oneLine
    ⟨none⟩ compiled (by decide)⟩

/-- A source compiles, and its snapshot is a text that is not understood. -/
theorem not_snapshot_restored : ¬ ∀ specIr,
    CompiledFrom (yamlSpecs sampleYaml sampleSchema) sampleHash sampleSource specIr →
    Restored (yamlSpecs sampleYaml sampleSchema) sampleHash
      (writeSpecSnapshot ⟨none⟩ specIr sampleSource sampleStamp) specIr := by
  intro restores
  obtain ⟨specIr, compiled⟩ := sampleSource_compiles
  obtain ⟨diagnostics, restored, read, -⟩ := restores specIr compiled
  have commented : ¬ js "apiVersion:" <+:
      snapshotHeader specIr.digest sampleStamp ++ sampleSource := by
    rintro ⟨rest, same⟩
    have heads : some (unit 'a') = some (unit '#') := congrArg List.head? same
    exact absurd heads (by decide)
  have refused : (yamlSpecs sampleYaml sampleSchema).document
      (snapshotHeader specIr.digest sampleStamp ++ sampleSource) = none := by
    cases found : (yamlSpecs sampleYaml sampleSchema).document
        (snapshotHeader specIr.digest sampleStamp ++ sampleSource) with
    | none => rfl
    | some spec =>
        obtain ⟨doc, parsed, sound, -⟩ := document_yamlSpecs found
        exact absurd (sampleYaml_begins parsed sound) commented
  rw [compileSnapshot, writeSpecSnapshot, Option.map_some, Option.some.injEq, compileSpecSource,
    parseSpecSource, refused] at read
  cases read

end SpecAsCode.Compiler
