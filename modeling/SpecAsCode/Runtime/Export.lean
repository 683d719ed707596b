import SpecAsCode.Core.RelPath
import SpecAsCode.Runtime.Bundle

/-!
# Exporting a run

`exportRun` copies a run directory and what the run refers to into a directory, and writes a
manifest of the files that the directory then has.
-/

namespace SpecAsCode.Runtime

open SpecAsCode.Js
open SpecAsCode.Core
open SpecAsCode.Schema
open SpecAsCode.Text

/-- The specification of a run as it is found now: its file, the digest it compiles to, and
the imported files that exist, by their paths from its folder. -/
structure SpecSource where
  name : JsString
  content : List Octet
  digest : JsString
  imports : List (JsString × List Octet)

/-- What an export reads: the directory of the run, the specifications by their identifiers,
the plans by theirs, the repository and its configuration. -/
structure ExportContext where
  run : Directory
  specs : JsValue → Option SpecSource
  plans : JsString → Option (List Octet)
  patch : JsString → JsString → JsString
  config : Option (List Octet)
  specsDir : JsString
  exportedAt : JsString

/-! ## Paths -/

/-- The segments of a path that is followed from a folder, whose segments are given the
innermost one first; `none` outside the directory. -/
def followPath : List JsString → List JsString → Option (List JsString)
  | inside, [] => some inside.reverse
  | inside, segment :: rest =>
      if segment = [] ∨ segment = js "." then
        followPath inside rest
      else if segment = js ".." then
        match inside with
        | [] => none
        | _ :: outer => followPath outer rest
      else
        followPath (segment :: inside) rest

/-- Where an imported file is copied to, if it is a place in the bundle. -/
def importPath (path : JsString) : Option JsString :=
  (followPath [js "spec"] (segments path)).map fun found => [unit '/'].intercalate found

/-- `path.basename`. -/
def baseName (path : JsString) : JsString :=
  (path.reverse.takeWhile fun code => code ≠ unit '/').reverse

/-! ## What is copied -/

/-- What an export reads of the state of the run. -/
structure ViewedState where
  baseRevision : JsValue
  resultRevision : JsValue
  status : JsValue

/-- `loadRunView`, for the state.  Evidence that does not load is an error. -/
def loadRunView (sha256Hex : JsString → JsString) (files : Files) (runMeta : JsValue) :
    Except ReplayFault ViewedState :=
  (readIfAny (js "state.json") (files (js "state.json"))).bind fun state =>
    match EvidenceStore.load sha256Hex (files (js "evidence.jsonl")) with
    | .error error => .error (.replay (.evidence error))
    | .ok _ =>
        match state with
        | none => .ok ⟨(truthyValue (runMeta.property (js "baseRevision"))).getD .undefined,
            .undefined, .string (js "running")⟩
        | some state =>
            if state.isNullish then .error (.type .nullish)
            else .ok ⟨state.property (js "baseRevision"), state.property (js "resultRevision"),
              state.property (js "status")⟩

/-- `view.state.baseRevision ?? meta.baseRevision`. -/
def exportBase (runMeta : JsValue) (view : ViewedState) : JsValue :=
  view.baseRevision.orElse (runMeta.property (js "baseRevision"))

/-- The plan file of a run and its name, if the run has a plan and the file exists. -/
def ExportContext.planFile (context : ExportContext) (runMeta : JsValue) :
    Option (JsString × List Octet) :=
  (truthyValue (runMeta.property (js "planId"))).bind fun planId =>
    (context.plans planId.display).map fun content =>
      (baseName (planId.display ++ js ".json"), content)

/-- The run directory. -/
def ExportContext.runCopies (context : ExportContext) : List (JsString × List Octet) :=
  context.run.files.entries.map fun file => (js "run/" ++ file.1, file.2)

/-- The files of a specification. -/
def SpecSource.copies (spec : SpecSource) : List (JsString × List Octet) :=
  (js "spec/" ++ spec.name, spec.content) ::
    spec.imports.filterMap fun imported =>
      (importPath imported.1).map fun path => (path, imported.2)

/-- The specification, the plan, the patch and the configuration. -/
def ExportContext.otherCopies (context : ExportContext) (runMeta : JsValue) (view : ViewedState) :
    List (JsString × List Octet) :=
  let base := exportBase runMeta view
  let result := view.resultRevision
  ((context.specs (runMeta.property (js "specId"))).map SpecSource.copies).getD [] ++
  ((context.planFile runMeta).map fun plan => (js "plan/" ++ plan.1, plan.2)).toList ++
  (if isTruthy base && isTruthy result then
    [(js "diff.patch", encodeUtf8 (context.patch base.display result.display))] else []) ++
  (context.config.map fun content => (js "config.yaml", content)).toList

/-- Files written one after another. -/
def Directory.writeAll (dir : Directory) (files : List (JsString × List Octet)) : Directory :=
  files.foldl (fun dir file => dir.write file.1 file.2) dir

/-- The directory before the manifest is written. -/
def ExportContext.collect (context : ExportContext) (runMeta : JsValue) (view : ViewedState)
    (dir : Directory) : Directory :=
  { (dir.writeAll context.runCopies).writeAll (context.otherCopies runMeta view) with
    folders := js "run" :: context.run.folders.map (js "run/" ++ ·) ++ dir.folders }

/-- What the user is warned of. -/
def ExportContext.warnings (context : ExportContext) (runMeta : JsValue) (view : ViewedState) :
    List JsString :=
  (match context.specs (runMeta.property (js "specId")) with
    | some spec =>
        if strictEquals (.string spec.digest) (runMeta.property (js "specDigest")) then []
        else [js "spec has changed since the run: the run executed digest " ++
          (runMeta.property (js "specDigest")).display ++ js ", the current file compiles to " ++
          spec.digest ++
          js "; the exported spec is the CURRENT version, not the one the run executed"]
    | none => [js "spec " ++ (runMeta.property (js "specId")).display ++ js " not found under " ++
        context.specsDir ++ js "; bundle exported without its spec"]) ++
  (if isTruthy (runMeta.property (js "planId")) && (context.planFile runMeta).isNone then
    [js "plan file for " ++ (runMeta.property (js "planId")).display ++
      js " is missing; bundle exported without the plan"] else []) ++
  (if isTruthy (exportBase runMeta view) && isTruthy view.resultRevision then []
    else [js ("run has no base..result revision range (verify run or incomplete execution); " ++
      "no diff exported")])

/-! ## The manifest -/

/-- A property of an object literal, as it is printed. -/
def jsonField : JsValue → Option Json
  | .undefined => none
  | value => some (if json : value.isJson = true then ⟨value, json⟩ else .null)

/-- A component of the manifest: a path and the hash of the file. -/
abbrev Component := JsString × JsString

theorem component_ordered (component : Component) :
    Ordered [(js "path", some (.text component.1)), (js "sha256", some (.text component.2))] := by
  simp only [Ordered, List.map]
  decide

def componentJson (component : Component) : Json :=
  .object [(js "path", some (.text component.1)), (js "sha256", some (.text component.2))]
    (component_ordered component)

/-- The hashes of the files of a directory. -/
def componentsOf (sha256 : List Octet → JsString) (dir : Directory) : List Component :=
  (dir.walkFiles.insertionSort fun first second => first ≤ second).map fun path =>
    (path, sha256 ((dir.read path).getD []))

/-- The fields of the manifest. -/
def manifestFields (context : ExportContext) (runId : JsString) (runMeta : JsValue)
    (view : ViewedState) (components : List Component) : List Field :=
  let warnings := context.warnings runMeta view
  [(js "schema", some (.text (js "spc-run-export/1"))),
    (js "exportedAt", some (.text context.exportedAt)), (js "runId", some (.text runId)),
    (js "kind", jsonField (runMeta.property (js "kind"))),
    (js "specId", jsonField (runMeta.property (js "specId"))),
    (js "specDigest", jsonField (runMeta.property (js "specDigest"))),
    (js "planId", (truthyValue (runMeta.property (js "planId"))).bind jsonField),
    (js "planDigest", (truthyValue (runMeta.property (js "planDigest"))).bind jsonField),
    (js "baseRevision", (truthyValue (exportBase runMeta view)).bind jsonField),
    (js "resultRevision", (truthyValue view.resultRevision).bind jsonField),
    (js "runStatus", jsonField view.status),
    (js "configNote",
      some (.text (js "config.yaml is the repository config as of export, not as of run"))),
    (js "warnings", if warnings = [] then none else some (.texts warnings)),
    (js "components", some (.array (components.map componentJson)))]

theorem manifestFields_ordered (context : ExportContext) (runId : JsString) (runMeta : JsValue)
    (view : ViewedState) (components : List Component) :
    Ordered (manifestFields context runId runMeta view components) := by
  simp only [Ordered, manifestFields, List.map]
  decide +kernel

def manifestOf (context : ExportContext) (runId : JsString) (runMeta : JsValue)
    (view : ViewedState) (components : List Component) : Json :=
  .object (manifestFields context runId runMeta view components)
    (manifestFields_ordered context runId runMeta view components)

/-- What an export returns, with the directory after it. -/
structure RunExportResult where
  dir : Directory
  warnings : List JsString

/-- `exportRun` into a directory.  The manifest is written last. -/
def exportRun (sha256 : List Octet → JsString) (runId : JsString) (context : ExportContext)
    (dir : Directory) : Except ReplayFault RunExportResult :=
  match (loadRunMeta context.run.read).filter isTruthy with
  | none => .error .runNotFound
  | some runMeta =>
      (loadRunView (textHash sha256) context.run.read runMeta).map fun view =>
        let collected := context.collect runMeta view dir
        let manifest := manifestOf context runId runMeta view (componentsOf sha256 collected)
        ⟨collected.write manifestName manifest.1.file, context.warnings runMeta view⟩

/-- Exports into one directory, one after another. -/
def exportAll (sha256 : List Octet → JsString) (runId : JsString) :
    List ExportContext → Directory → Except ReplayFault Directory
  | [], dir => .ok dir
  | context :: rest, dir =>
      (exportRun sha256 runId context dir).bind fun result => exportAll sha256 runId rest result.dir

/-- The plan a run is replayed with: the one that its metadata name. -/
def replayPlan (context : ExportContext) : Except ReplayFault JsValue :=
  match ((loadRunMeta context.run.read).filter isTruthy).bind context.planFile with
  | none => .ok .null
  | some file => readJson file.1 (some file.2)

/-- `runReplay`. -/
def runReplay (sha256 : List Octet → JsString) (runId : JsString) (context : ExportContext) :
    Except ReplayFault ReplayReport :=
  (replayPlan context).bind fun plan =>
    replayRun (textHash sha256) context.run.read runId plan

end SpecAsCode.Runtime
