import SpecAsCode.Runtime.Replay

/-!
# Verifying a bundle

A bundle is a directory with a copy of a run, what the run refers to, and a manifest of the
hashes of these files.  `verifyBundle` needs nothing but the directory.
-/

namespace SpecAsCode.Runtime

open SpecAsCode.Js
open SpecAsCode.Core
open SpecAsCode.Schema
open SpecAsCode.Text

/-! ## Directories -/

/-- A directory: its files at any depth by their paths from it, and the folders that were made
in it. -/
structure Directory where
  files : OrderedMap JsString (List Octet)
  folders : List JsString

namespace Directory

def read (dir : Directory) (path : JsString) : Option (List Octet) :=
  dir.files.get? path

/-- A file is written over the one that was there. -/
def write (dir : Directory) (path : JsString) (content : List Octet) : Directory :=
  { dir with files := dir.files.set path content }

/-- `mkdirSync`. -/
def makeFolder (dir : Directory) (path : JsString) : Directory :=
  { dir with folders := path :: dir.folders }

/-- `walkFiles`, with paths from the directory. -/
def walkFiles (dir : Directory) : List JsString :=
  dir.files.entries.map Prod.fst

/-- The files of a folder by their names. -/
def within (dir : Directory) (folder : JsString) : Files :=
  fun name => dir.read (folder ++ unit '/' :: name)

def hasFolder (dir : Directory) (folder : JsString) : Bool :=
  dir.folders.contains folder ||
    dir.walkFiles.any fun path => startsWith path (folder ++ [unit '/'])

/-- `readdirSync`: the names in a folder. -/
def names (dir : Directory) (folder : JsString) : List JsString :=
  ((dir.walkFiles.filter fun path => startsWith path (folder ++ [unit '/'])).map fun path =>
    (path.drop (folder.length + 1)).takeWhile fun code => code ≠ unit '/').insertionSort
      fun first second => first ≤ second

@[simp]
theorem read_write_self (dir : Directory) (path : JsString) (content : List Octet) :
    (dir.write path content).read path = some content :=
  OrderedMap.get?_set_self _ _ _

theorem read_write_ne (dir : Directory) {path other : JsString} (different : other ≠ path)
    (content : List Octet) : (dir.write path content).read other = dir.read other :=
  OrderedMap.get?_set_ne _ different _

/-- The files that are found are the ones that can be read. -/
theorem mem_walkFiles {dir : Directory} {path : JsString} :
    path ∈ dir.walkFiles ↔ (dir.read path).isSome = true := by
  rw [Option.isSome_iff_ne_none, ne_eq, read, OrderedMap.get?_eq_none, not_not, walkFiles]

end Directory

/-! ## The manifest -/

def manifestName : JsString :=
  js "manifest.json"

inductive ManifestStatus where
  | verified
  | mismatch
  deriving DecidableEq, Repr

section Verify

variable (sha256 : List Octet → JsString)

/-- The hash of a text. -/
def textHash (text : JsString) : JsString :=
  sha256 (encodeUtf8 text)

/-- What is wrong with the file of a component. -/
def componentProblem (dir : Directory) (component : JsValue) : Except TypeError (List JsString) :=
  if component.isNullish then
    .error .nullish
  else
    match component.property (js "path") with
    | .string path =>
        match dir.read path with
        | none => .ok [js "missing component: " ++ path]
        | some content =>
            if strictEquals (.string (sha256 content)) (component.property (js "sha256")) then .ok []
            else .ok [js "hash mismatch: " ++ path]
    | _ => .error .notText

/-- What is wrong with the files of the components. -/
def componentProblems (dir : Directory) : List JsValue → Except TypeError (List JsString)
  | [] => .ok []
  | component :: rest =>
      (componentProblem sha256 dir component).bind fun problems =>
        (componentProblems dir rest).map fun others => problems ++ others

/-- The files that the manifest does not list. -/
def unlistedFiles (dir : Directory) (components : List JsValue) : List JsString :=
  (dir.walkFiles.filter fun path => path ≠ manifestName ∧
    path ∉ components.filterMap fun component => (component.property (js "path")).asString).map
      fun path => js "unlisted file present: " ++ path

/-- `manifest.components`. -/
def manifestComponents (manifest : JsValue) : Except TypeError (List JsValue) :=
  if manifest.isNullish then
    .error .nullish
  else
    match manifest.property (js "components") with
    | .array components => .ok components
    | _ => .error .notIterable

/-- `manifestProblems`. -/
def manifestProblems (dir : Directory) (manifest : JsValue) : Except TypeError (List JsString) :=
  (manifestComponents manifest).bind fun components =>
    (componentProblems sha256 dir components).map fun problems =>
      problems ++ unlistedFiles dir components

/-- Files that are not listed are reported and do not fail. -/
def manifestStatus (problems : List JsString) : ManifestStatus :=
  if problems.any fun problem => !startsWith problem (js "unlisted") then .mismatch else .verified

/-- `BundleVerifyReport`. -/
structure BundleVerifyReport where
  bundle : JsString
  runId : JsValue
  ok : Bool
  manifest : ManifestStatus
  manifestProblems : List JsString
  chainStatus : HashChain.Status
  eventCount : Nat
  evidenceCount : Nat
  evidenceDigests : ManifestStatus
  projection : ProjectionReport
  attestation : AttestationReport

def bundleDiffWords : DiffWords :=
  ⟨[], js " vs "⟩

def bundleWords : AttestationWords where
  log := js "bundle log"
  mismatch := js "recomputed heads do not match the recorded commitment"
  extension := js " post-attestation event(s); prefix intact"

/-- The plan of a bundle: the first file of its folder. -/
def bundlePlan (dir : Directory) : Except ReplayFault JsValue :=
  if dir.hasFolder (js "plan") then
    match dir.names (js "plan") with
    | [] => .error (.type .notText)
    | name :: _ => readJson name (dir.within (js "plan") name)
  else
    .ok .null

/-- What `verifyBundle` does after it has read the manifest. -/
def verifyContent (bundle : JsString) (dir : Directory) (manifest : JsValue) :
    Except ReplayFault BundleVerifyReport := do
  let run := dir.within (js "run")
  let problems ← (manifestProblems sha256 dir manifest).mapError .type
  let runMeta ← readJson (js "metadata.json") (run (js "metadata.json"))
  let stores ← loadStores (textHash sha256) ((manifest.property (js "runId")).asString.getD []) run
  let persisted ← readIfAny (js "state.json") (run (js "state.json"))
  let plan ← bundlePlan dir
  let replayed ← (projectState runMeta plan stores.1.log.records).mapError .type
  let projection ← checkProjection bundleDiffWords (js "state.json missing from bundle")
    (persisted.filter isTruthy) replayed
  let recorded ← readAttestation (run (js "attestation.json"))
  let attestation ← checkRecorded (textHash sha256) bundleWords stores.1.log.records
    stores.2.records recorded
  return { bundle, runId := manifest.property (js "runId")
           ok := manifestStatus problems == .verified && projection.projectionMatches &&
             attestation.attestation != .broken && 0 < stores.1.log.records.length
           manifest := manifestStatus problems, manifestProblems := problems
           chainStatus := stores.1.log.status.getD .legacy
           eventCount := stores.1.log.records.length
           evidenceCount := stores.2.records.length, evidenceDigests := .verified
           projection, attestation }

/-- `verifyBundle`. -/
def verifyBundle (bundle : JsString) (dir : Option Directory) :
    Except ReplayFault BundleVerifyReport :=
  match dir with
  | none => .error .bundleNotFound
  | some dir =>
      match dir.read manifestName with
      | none => .error .bundleInvalid
      | some octets =>
          (readJson manifestName (some octets)).bind fun manifest =>
            verifyContent sha256 bundle dir manifest

end Verify

end SpecAsCode.Runtime
