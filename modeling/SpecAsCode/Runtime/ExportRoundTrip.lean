import SpecAsCode.Runtime.ExportedFiles

/-!
# Exporting and verifying

A bundle that was written in one export is verified, and its run is judged as the replay of the
run judges it.  A later export into the same directory hashes the manifest it is about to
write over.
-/

namespace SpecAsCode.Runtime

open SpecAsCode.Js
open SpecAsCode.Core
open SpecAsCode.Schema
open SpecAsCode.Text

/-! ## The round trip -/

/-- A verification that throws, or reports a mismatch. -/
def Fails (result : Except ReplayFault BundleVerifyReport) : Prop :=
  ∀ report, result = .ok report → report.manifest = .mismatch

/-- A bundle whose manifest is gone, or in which a listed file is gone or has another hash. -/
def Altered (sha256 : List Octet → JsString) (exported changed : Directory) : Prop :=
  changed.read manifestName = none ∨
    (changed.read manifestName = exported.read manifestName ∧
      ∃ path content, path ≠ manifestName ∧ exported.read path = some content ∧
        (changed.read path).map sha256 ≠ some (sha256 content))

/-- A bundle verifies with the verdicts of the replay, and does not after it was altered. -/
structure RoundTrip (sha256 : List Octet → JsString) (bundle : JsString) (exported : Directory)
    (replay : ReplayReport) : Prop where
  verified : ∃ report, verifyBundle sha256 bundle (some exported) = .ok report ∧
    report.manifest = .verified ∧
    report.projection.projectionMatches = replay.projection.projectionMatches ∧
    report.attestation.attestation = replay.attestation.attestation
  detects : ∀ changed, Altered sha256 exported changed →
    Fails (verifyBundle sha256 bundle (some changed))

/-- Whether the manifest of a bundle lists the hash it has itself. -/
def listsOwnHash (sha256 : List Octet → JsString) (bundle : Directory) : Bool :=
  match bundle.read manifestName with
  | none => false
  | some octets =>
      match (parseFile octets).map manifestComponents with
      | some (.ok components) =>
          components.any fun component =>
            strictEquals (component.property (js "path")) (.string manifestName) &&
              strictEquals (component.property (js "sha256")) (.string (sha256 octets))
      | _ => false

section Exported

variable {sha256 : List Octet → JsString} {runId : JsString} {context : ExportContext}
  {dir : Directory} {result : RunExportResult}

/-- The directory that an export hashes, and the manifest it writes. -/
theorem exportRun_ok (ran : exportRun sha256 runId context dir = .ok result) :
    ∃ runMeta view, (loadRunMeta context.run.read).filter isTruthy = some runMeta ∧
      result.dir = (context.collect runMeta view dir).write manifestName
        (manifestOf context runId runMeta view
          (componentsOf sha256 (context.collect runMeta view dir))).1.file := by
  rw [exportRun] at ran
  cases known : (loadRunMeta context.run.read).filter isTruthy with
  | none =>
      rw [known] at ran
      cases ran
  | some runMeta =>
      simp only [known] at ran
      cases viewed : loadRunView (textHash sha256) context.run.read runMeta with
      | error error =>
          rw [viewed] at ran
          cases ran
      | ok view =>
          rw [viewed] at ran
          cases ran
          exact ⟨runMeta, view, rfl, rfl⟩

/-- An export leaves a manifest behind. -/
theorem exportAll_manifest {exports : List ExportContext} {before there : Directory}
    (ran : exportAll sha256 runId exports before = .ok there) (some : exports ≠ []) :
    there.read manifestName ≠ none := by
  induction exports generalizing before with
  | nil => exact absurd rfl some
  | cons context rest inductionHypothesis =>
      obtain ⟨result, exported, ran⟩ := except_bind_ok ran
      by_cases last : rest = []
      · subst last
        cases ran
        obtain ⟨runMeta, view, -, shape⟩ := exportRun_ok exported
        rw [shape, Directory.read_write_self]
        simp
      · exact inductionHypothesis ran last

variable {runMeta : JsValue} {view : ViewedState} {bundle : JsString}

theorem verifyContent_status {manifest : JsValue} {report : BundleVerifyReport}
    {problems : List JsString} (ran : verifyContent sha256 bundle dir manifest = .ok report)
    (found : manifestProblems sha256 dir manifest = .ok problems) :
    report.manifest = manifestStatus problems := by
  rw [verifyContent, found] at ran
  obtain ⟨known, same, ran⟩ := except_bind_ok ran
  obtain ⟨runMeta, -, ran⟩ := except_bind_ok ran
  obtain ⟨stores, -, ran⟩ := except_bind_ok ran
  obtain ⟨persisted, -, ran⟩ := except_bind_ok ran
  obtain ⟨plan, -, ran⟩ := except_bind_ok ran
  obtain ⟨replayed, -, ran⟩ := except_bind_ok ran
  obtain ⟨projection, -, ran⟩ := except_bind_ok ran
  obtain ⟨recorded, -, ran⟩ := except_bind_ok ran
  obtain ⟨attestation, -, ran⟩ := except_bind_ok ran
  cases same
  cases ran
  rfl

/-- A bundle is verified like the components of its manifest. -/
theorem verifyBundle_components {components : List Component} {changed : Directory}
    (written : changed.read manifestName =
      some (manifestOf context runId runMeta view components).1.file)
    {report : BundleVerifyReport} (ran : verifyBundle sha256 bundle (some changed) = .ok report) :
    report.manifest = .verified ↔ ∀ component ∈ components, Intact sha256 changed component := by
  rw [verifyBundle] at ran
  simp only [written, readJson_manifest] at ran
  obtain ⟨problems, found, verified⟩ := @manifestProblems_json sha256 _ _
    (manifestOf_components context runId runMeta view components) changed
  rw [verifyContent_status ran found]
  exact verified

/-- A bundle whose manifest lists the manifest before it is verified only if both have one
hash. -/
theorem hash_eq_of_verified (ran : exportRun sha256 runId context dir = .ok result)
    {old : List Octet} (there : ∀ runMeta view,
      (loadRunMeta context.run.read).filter isTruthy = some runMeta →
      (context.collect runMeta view dir).read manifestName = some old)
    {report : BundleVerifyReport}
    (reported : verifyBundle sha256 bundle (some result.dir) = .ok report)
    (verified : report.manifest = .verified) :
    (result.dir.read manifestName).map sha256 = some (sha256 old) := by
  obtain ⟨runMeta, view, known, shape⟩ := exportRun_ok ran
  have written : result.dir.read manifestName = some (manifestOf context runId runMeta view
      (componentsOf sha256 (context.collect runMeta view dir))).1.file := by
    rw [shape, Directory.read_write_self]
  refine (verifyBundle_components written reported).mp verified (manifestName, sha256 old) ?_
  rw [mem_componentsOf, Intact, there runMeta view known]
  rfl

/-- Whether a manifest lists its own hash is whether it lists itself with this hash. -/
theorem listsOwnHash_iff {components : List Component}
    (written : dir.read manifestName =
      some (manifestOf context runId runMeta view components).1.file) :
    listsOwnHash sha256 dir = true ↔ (manifestName,
      sha256 (manifestOf context runId runMeta view components).1.file) ∈ components := by
  rw [listsOwnHash, written]
  simp only [parseFile_file (manifestOf context runId runMeta view components).2, Option.map_some,
    manifestOf_components, List.any_map, List.any_eq_true, Function.comp_apply, Bool.and_eq_true]
  constructor
  · rintro ⟨component, member, path, hash⟩
    have path : (component.1 == manifestName) = true := path
    have hash : (component.2 ==
      sha256 (manifestOf context runId runMeta view components).1.file) = true := hash
    rw [← eq_of_beq path, ← eq_of_beq hash]
    exact member
  · intro member
    exact ⟨_, member, beq_self_eq_true manifestName, beq_self_eq_true _⟩

/-- A bundle whose manifest lists the manifest before it is verified only if it lists its own
hash. -/
theorem not_verified_of_manifest
    (ran : exportRun sha256 runId context dir = .ok result)
    (noOwnHash : listsOwnHash sha256 result.dir = false)
    (there : ∀ runMeta view, (loadRunMeta context.run.read).filter isTruthy = some runMeta →
      (context.collect runMeta view dir).read manifestName ≠ none)
    {report : BundleVerifyReport}
    (reported : verifyBundle sha256 bundle (some result.dir) = .ok report) :
    report.manifest ≠ .verified := by
  obtain ⟨runMeta, view, known, shape⟩ := exportRun_ok ran
  obtain ⟨old, here⟩ := Option.ne_none_iff_exists'.mp (there runMeta view known)
  have written : result.dir.read manifestName = some (manifestOf context runId runMeta view
      (componentsOf sha256 (context.collect runMeta view dir))).1.file := by
    rw [shape, Directory.read_write_self]
  have listed : (manifestName, sha256 old) ∈
      componentsOf sha256 (context.collect runMeta view dir) := by
    rw [mem_componentsOf, Intact, here]
    rfl
  intro verified
  have intact := (verifyBundle_components written reported).mp verified _ listed
  rw [Intact, written] at intact
  have same : sha256 (manifestOf context runId runMeta view
      (componentsOf sha256 (context.collect runMeta view dir))).1.file = sha256 old :=
    Option.some.inj intact
  have ownHash : listsOwnHash sha256 result.dir = true := (listsOwnHash_iff written).mpr (by
    rw [same]
    exact listed)
  rw [noOwnHash] at ownHash
  cases ownHash

/-- The copies of the run and its plan are complete. -/
theorem Apart.copiesRun (apart : Apart context runMeta dir) (manifest : List Octet)
    {plan : JsValue} (known : (loadRunMeta context.run.read).filter isTruthy = some runMeta)
    (planned : replayPlan context = .ok plan) :
    CopiesRun ((context.collect runMeta view dir).write manifestName manifest) context.run.read
      plan := by
  refine ⟨fun name _ => ?_, ?_⟩
  · have different : js "run/" ++ name ≠ manifestName := fun same => by cases same
    have copy := Directory.read_write_ne (context.collect runMeta view dir) different manifest
    exact copy.trans (apart.read_run name)
  · rewrite [apart.bundlePlan, ← planned, replayPlan, known, Option.bind_some]
    cases context.planFile runMeta <;> rfl

/-- What a bundle says of the run it holds is what the replay of the run says, whatever was in
the directory before. -/
theorem verifyBundle_verdicts {replay : ReplayReport}
    (ran : exportRun sha256 runId context dir = .ok result)
    (replayed : runReplay sha256 runId context = .ok replay)
    (apart : ∀ runMeta, (loadRunMeta context.run.read).filter isTruthy = some runMeta →
      Apart context runMeta dir) (bundle : JsString) :
    ∃ report, verifyBundle sha256 bundle (some result.dir) = .ok report ∧
      report.projection.projectionMatches = replay.projection.projectionMatches ∧
      report.attestation.attestation = replay.attestation.attestation := by
  obtain ⟨runMeta, view, known, shape⟩ := exportRun_ok ran
  obtain ⟨plan, planned, replayRan⟩ := except_bind_ok replayed
  have copies : CopiesRun result.dir context.run.read plan := by
    rw [shape]
    exact (apart runMeta known).copiesRun _ known planned
  obtain ⟨problems, found, -⟩ := @manifestProblems_json sha256 _ _
    (manifestOf_components context runId runMeta view
      (componentsOf sha256 (context.collect runMeta view dir))) result.dir
  obtain ⟨report, verified, -, verdicts⟩ := verifyContent_of_replayRun replayRan copies
    (manifestOf_runId context runId runMeta view _) found bundle
  refine ⟨report, ?_, verdicts⟩
  have written : result.dir.read manifestName = some (manifestOf context runId runMeta view
      (componentsOf sha256 (context.collect runMeta view dir))).1.file := by
    rw [shape, Directory.read_write_self]
  rw [verifyBundle]
  simp only [written, readJson_manifest]
  exact verified

/-- A directory without a manifest, to which the export copies none either. -/
structure WithoutManifest (context : ExportContext) (dir : Directory) : Prop where
  before : dir.read manifestName = none
  imports : ∀ runMeta, (loadRunMeta context.run.read).filter isTruthy = some runMeta →
    ∀ spec, context.spec runMeta = some spec → ∀ imported ∈ spec.imports,
      importPath imported.1 ≠ some manifestName

/-- Only an imported file can be copied over the manifest. -/
theorem manifest_mem_otherCopies :
    manifestName ∈ (context.otherCopies runMeta view).map Prod.fst ↔
      ∃ spec, context.spec runMeta = some spec ∧
        ∃ imported ∈ spec.imports, importPath imported.1 = some manifestName := by
  constructor
  · intro member
    obtain ⟨file, found, path⟩ := List.mem_map.mp member
    rcases mem_otherCopies found with ⟨rest, same⟩ | ⟨spec, known, imported, there, here⟩ |
      ⟨plan, -, rfl⟩ | same | same
    · cases path.symm.trans same
    · exact ⟨spec, known, imported, there, by rw [here, path]⟩
    · cases path
    · cases path.symm.trans same
    · cases path.symm.trans same
  · rintro ⟨spec, known, imported, there, here⟩
    have known : context.specs (runMeta.property (js "specId")) = some spec := known
    have copied : (manifestName, imported.2) ∈ spec.copies :=
      List.mem_cons_of_mem _ (List.mem_filterMap.mpr ⟨imported, there, by rw [here]; rfl⟩)
    refine List.mem_map.mpr ⟨(manifestName, imported.2), ?_, rfl⟩
    rw [ExportContext.otherCopies, known, Option.map_some, Option.getD_some, List.append_assoc,
      List.append_assoc]
    exact List.mem_append_left _ copied

theorem manifestName_ne_run (name : JsString) : manifestName ≠ js "run/" ++ name :=
  fun same => by cases same

/-- A manifest that is not copied over stays where it is. -/
theorem read_collect_kept (imports : ∀ spec, context.spec runMeta = some spec →
    ∀ imported ∈ spec.imports, importPath imported.1 ≠ some manifestName) :
    (context.collect runMeta view dir).read manifestName = dir.read manifestName := by
  have others : manifestName ∉ (context.otherCopies runMeta view).map Prod.fst := by
    rw [manifest_mem_otherCopies]
    rintro ⟨spec, known, imported, there, here⟩
    exact imports spec known imported there here
  have run : manifestName ∉ context.runCopies.map Prod.fst := by
    rw [ExportContext.runCopies, List.map_map, List.mem_map]
    rintro ⟨file, -, same⟩
    exact manifestName_ne_run file.1 same.symm
  show ((dir.writeAll context.runCopies).writeAll (context.otherCopies runMeta view)).read _ = _
  rw [Directory.read_writeAll_of_not_mem _ others, Directory.read_writeAll_of_not_mem _ run]

/-- What is hashed has no manifest if there is none before and none is copied. -/
theorem read_collect_manifest :
    (context.collect runMeta view dir).read manifestName = none ↔
      dir.read manifestName = none ∧ ∀ spec, context.spec runMeta = some spec →
        ∀ imported ∈ spec.imports, importPath imported.1 ≠ some manifestName := by
  have noRun : ¬ ∃ name, manifestName = js "run/" ++ name ∧
      (context.run.read name).isSome = true := by
    rintro ⟨name, same, -⟩
    exact manifestName_ne_run name same
  rw [← Option.not_isSome_iff_eq_none, isSome_read_collect, or_iff_right noRun, not_or,
    Option.not_isSome_iff_eq_none, manifest_mem_otherCopies]
  simp only [not_exists, not_and, ne_eq]

/-- An altered bundle is not verified. -/
theorem fails_of_altered (ran : exportRun sha256 runId context dir = .ok result)
    {changed : Directory}
    (altered : Altered sha256 result.dir changed) :
    Fails (verifyBundle sha256 bundle (some changed)) := by
  obtain ⟨runMeta, view, known, shape⟩ := exportRun_ok ran
  intro report reported
  rcases altered with gone | ⟨kept, path, content, other, here, different⟩
  · rw [verifyBundle] at reported
    simp only [gone] at reported
    cases reported
  · have written : changed.read manifestName = some (manifestOf context runId runMeta view
        (componentsOf sha256 (context.collect runMeta view dir))).1.file := by
      rw [kept, shape, Directory.read_write_self]
    have listed : (path, sha256 content) ∈
        componentsOf sha256 (context.collect runMeta view dir) := by
      rw [shape, Directory.read_write_ne _ other] at here
      rw [mem_componentsOf, Intact, here]
      rfl
    cases status : report.manifest with
    | mismatch => rfl
    | verified =>
        exact absurd ((verifyBundle_components written reported).mp status _ listed) different

/-- An export into a directory without a manifest is verified. -/
theorem roundTrip_of_withoutManifest {replay : ReplayReport}
    (ran : exportRun sha256 runId context dir = .ok result)
    (replayed : runReplay sha256 runId context = .ok replay)
    (apart : ∀ runMeta, (loadRunMeta context.run.read).filter isTruthy = some runMeta →
      Apart context runMeta dir) (clean : WithoutManifest context dir) :
    RoundTrip sha256 bundle result.dir replay := by
  refine ⟨?_, fun changed altered => fails_of_altered ran altered⟩
  obtain ⟨report, reported, projection, attestation⟩ :=
    verifyBundle_verdicts ran replayed apart bundle
  refine ⟨report, reported, ?_, projection, attestation⟩
  obtain ⟨runMeta, view, known, shape⟩ := exportRun_ok ran
  have written : result.dir.read manifestName = some (manifestOf context runId runMeta view
      (componentsOf sha256 (context.collect runMeta view dir))).1.file := by
    rw [shape, Directory.read_write_self]
  have absent := (@read_collect_manifest context dir runMeta view).mpr ⟨clean.before, clean.imports runMeta known⟩
  refine (verifyBundle_components written reported).mpr fun component member => ?_
  rw [mem_componentsOf] at member
  by_cases same : component.1 = manifestName
  · rw [Intact, same, absent] at member
    cases member
  · rw [Intact, shape, Directory.read_write_ne _ same]
    exact member

end Exported

/-! ## Several exports into one directory -/

/-- The state of a run at a later export: it has the files it had, and its plan is the same
file. -/
structure Extends (earlier later : ExportContext) : Prop where
  run : ∀ name, (earlier.run.read name).isSome = true → (later.run.read name).isSome = true
  plan : ∀ earlierMeta laterMeta,
    (loadRunMeta earlier.run.read).filter isTruthy = some earlierMeta →
    (loadRunMeta later.run.read).filter isTruthy = some laterMeta →
    ∀ file, earlier.planFile earlierMeta = some file →
      ∃ content, later.planFile laterMeta = some (file.1, content)
  imports : ∀ runMeta, (loadRunMeta later.run.read).filter isTruthy = some runMeta →
    ∀ spec, later.spec runMeta = some spec → ∀ imported ∈ spec.imports,
      ∀ path, importPath imported.1 = some path →
        startsWith path (js "run/") = false ∧ startsWith path (js "plan/") = false

section Sequence

variable {sha256 : List Octet → JsString} {runId : JsString}

/-- What an export writes under `run/` and `plan/` a later one writes too. -/
theorem Apart.next {earlier later : ExportContext} {dir : Directory} {result : RunExportResult}
    (ran : exportRun sha256 runId earlier dir = .ok result) (extended : Extends earlier later)
    (apart : ∀ runMeta, (loadRunMeta earlier.run.read).filter isTruthy = some runMeta →
      Apart earlier runMeta dir) :
    ∀ runMeta, (loadRunMeta later.run.read).filter isTruthy = some runMeta →
      Apart later runMeta result.dir := by
  intro laterMeta laterKnown
  obtain ⟨runMeta, view, known, shape⟩ := exportRun_ok ran
  have before := apart runMeta known
  have plans : ∀ file, earlier.planFile runMeta = some file →
      ∃ later', later.planFile laterMeta = some later' ∧ later'.1 = file.1 := by
    intro file found
    obtain ⟨content, laterFound⟩ := extended.plan runMeta laterMeta known laterKnown file found
    exact ⟨_, laterFound, rfl⟩
  refine ⟨fun name here => ?_, fun path here inside => ?_, fun member => ?_,
    extended.imports laterMeta laterKnown⟩
  · have different : js "run/" ++ name ≠ manifestName := fun same => by cases same
    rw [shape, Directory.read_write_ne _ different, before.read_run] at here
    exact extended.run name here
  · rw [shape] at here
    obtain ⟨file, found, rfl⟩ :=
      before.plan_walk _ (Directory.mem_walkFiles.mpr here) inside
    obtain ⟨later', laterFound, same⟩ := plans file found
    exact ⟨later', laterFound, by rw [same]⟩
  · have old : earlier.planFile runMeta ≠ none := by
      rw [shape] at member
      have listed : js "plan" ∈ js "run" ::
          earlier.run.folders.map (js "run/" ++ ·) ++ dir.folders := member
      rw [List.cons_append, List.mem_cons, List.mem_append] at listed
      rcases listed with same | copied | there
      · cases same
      · obtain ⟨folder, -, same⟩ := List.mem_map.mp copied
        cases same
      · exact before.folder there
    obtain ⟨file, found⟩ := Option.ne_none_iff_exists'.mp old
    obtain ⟨later', laterFound, -⟩ := plans file found
    rw [laterFound]
    simp

/-- However often a run is exported into a directory while it is extended, what the last bundle
says of the run is what the replay of the run says. -/
theorem verdicts_of_exportAll {exports : List ExportContext} {last : ExportContext}
    {before there : Directory} {result : RunExportResult} {replay : ReplayReport}
    (earlier : exportAll sha256 runId exports before = .ok there)
    (ran : exportRun sha256 runId last there = .ok result)
    (extended : (exports ++ [last]).Pairwise Extends)
    (apart : ∀ context ∈ (exports ++ [last]).head?, ∀ runMeta,
      (loadRunMeta context.run.read).filter isTruthy = some runMeta → Apart context runMeta before)
    (replayed : runReplay sha256 runId last = .ok replay) (bundle : JsString) :
    ∃ report, verifyBundle sha256 bundle (some result.dir) = .ok report ∧
      report.projection.projectionMatches = replay.projection.projectionMatches ∧
      report.attestation.attestation = replay.attestation.attestation := by
  induction exports generalizing before with
  | nil =>
      cases earlier
      exact verifyBundle_verdicts ran replayed (apart last rfl) bundle
  | cons context rest inductionHypothesis =>
      obtain ⟨first, firstRan, others⟩ := except_bind_ok earlier
      rw [List.cons_append, List.pairwise_cons] at extended
      refine inductionHypothesis others extended.2 fun next found => ?_
      exact Apart.next firstRan (extended.1 next (List.mem_of_mem_head? found)) (apart context rfl)

/-- Exports into one directory verify exactly if there is one export and the directory had no
manifest.  The manifest of a later export lists the one that it is written over. -/
theorem export_round_trip (bundle : JsString) {exports : List ExportContext} {last : ExportContext}
    {before there : Directory} {result : RunExportResult} {replay : ReplayReport}
    (earlier : exportAll sha256 runId exports before = .ok there)
    (exported : exportRun sha256 runId last there = .ok result)
    (replayed : runReplay sha256 runId last = .ok replay)
    (noOwnHash : listsOwnHash sha256 result.dir = false) :
    (RoundTrip sha256 bundle result.dir replay → exports = [] ∧ WithoutManifest last before) ∧
      ((∀ runMeta, (loadRunMeta last.run.read).filter isTruthy = some runMeta →
          Apart last runMeta before) →
        exports = [] ∧ WithoutManifest last before → RoundTrip sha256 bundle result.dir replay) := by
  refine ⟨fun roundTrip => ?_, ?_⟩
  · obtain ⟨report, reported, verified, -⟩ := roundTrip.verified
    by_contra disturbed
    refine not_verified_of_manifest exported noOwnHash (fun runMeta view known absent => ?_)
      reported verified
    obtain ⟨clean, imports⟩ := read_collect_manifest.mp absent
    have alone : exports = [] := by
      by_contra some
      exact exportAll_manifest earlier some clean
    subst alone
    cases earlier
    refine disturbed ⟨rfl, clean, fun otherMeta otherKnown => ?_⟩
    rw [known, Option.some.injEq] at otherKnown
    exact otherKnown ▸ imports
  · rintro apart ⟨rfl, clean⟩
    cases earlier
    exact roundTrip_of_withoutManifest exported replayed apart clean

/-- A manifest that lists no manifest does not list its own hash. -/
theorem listsOwnHash_of_withoutManifest {context : ExportContext} {dir : Directory}
    {result : RunExportResult} (ran : exportRun sha256 runId context dir = .ok result)
    (clean : WithoutManifest context dir) : listsOwnHash sha256 result.dir = false := by
  obtain ⟨runMeta, view, known, shape⟩ := exportRun_ok ran
  have written : result.dir.read manifestName = some (manifestOf context runId runMeta view
      (componentsOf sha256 (context.collect runMeta view dir))).1.file := by
    rw [shape, Directory.read_write_self]
  rw [Bool.eq_false_iff, ne_eq, listsOwnHash_iff written, mem_componentsOf, Intact,
    read_collect_manifest.mpr ⟨clean.before, clean.imports runMeta known⟩]
  simp

end Sequence

/-! ## A run that is exported twice -/

/-- The directory of a run that has begun. -/
def begunRun : Directory where
  files := (OrderedMap.empty.set (js "metadata.json")
      (encodeUtf8 (js "\x7b\"runId\":\"run-1\"\x7d"))).set (js "events.jsonl")
    (encodeUtf8 (js ("\x7b\"seq\":1,\"id\":\"e\",\"type\":\"RUN_CREATED\",\"runId\":\"run-1\"," ++
      "\"timestamp\":\"t\",\"payload\":\x7b\x7d\x7d\n")))
  folders := []

/-- An export of it, without a specification or a plan. -/
def begunExport : ExportContext where
  run := begunRun
  specs _ := none
  plans _ := none
  patch _ _ := []
  config := none
  specsDir := js "specs"
  exportedAt := js "t"

def emptyDirectory : Directory :=
  ⟨OrderedMap.empty, []⟩

/-- The length of a file in place of its hash. -/
def byLength (octets : List Octet) : JsString :=
  natText octets.length

theorem begunExport_planFile (runMeta : JsValue) : begunExport.planFile runMeta = none := by
  rw [ExportContext.planFile]
  cases truthyValue (runMeta.property (js "planId")) <;> rfl

theorem begunExport_apart (runMeta : JsValue) : Apart begunExport runMeta emptyDirectory where
  run _ here := by cases here
  plan _ here := by cases here
  folder member := by cases member
  imports _ known := by cases known

theorem begunExport_extends : Extends begunExport begunExport where
  run _ here := here
  plan earlierMeta _ _ _ file found := by
    rw [begunExport_planFile] at found
    cases found
  imports _ _ _ known := by cases known

theorem begunExport_withoutManifest : WithoutManifest begunExport emptyDirectory where
  before := rfl
  imports _ _ _ known := by cases known

/-- An export that is followed by another one. -/
def exportedTwice : Option (RunExportResult × RunExportResult) :=
  (exportRun byLength (js "run-1") begunExport emptyDirectory).toOption.bind fun first =>
    (exportRun byLength (js "run-1") begunExport first.dir).toOption.map fun second =>
      (first, second)

theorem exists_of_toOption {Error Result : Type} {attempt : Except Error Result} {result : Result}
    (found : attempt.toOption = some result) : attempt = .ok result := by
  cases attempt with
  | error error => cases found
  | ok value => exact congrArg Except.ok (Option.some.inj found)

theorem begunExport_replayed :
    ∃ replay, runReplay byLength (js "run-1") begunExport = .ok replay := by
  have runs : (runReplay byLength (js "run-1") begunExport).toOption.isSome = true := by
    decide +kernel
  obtain ⟨replay, found⟩ := Option.isSome_iff_exists.mp runs
  exact ⟨replay, exists_of_toOption found⟩

/-- The manifest of the second export is longer. -/
theorem exists_exportedTwice :
    ∃ first second, exportRun byLength (js "run-1") begunExport emptyDirectory = .ok first ∧
      exportRun byLength (js "run-1") begunExport first.dir = .ok second ∧
      (second.dir.read manifestName).map byLength ≠ (first.dir.read manifestName).map byLength := by
  have runs : (exportedTwice.any fun exports => decide ((exports.2.dir.read manifestName).map
      byLength ≠ (exports.1.dir.read manifestName).map byLength)) = true := by
    decide +kernel
  cases found : exportedTwice with
  | none =>
      rw [found] at runs
      cases runs
  | some exports =>
      rw [found] at runs
      obtain ⟨first, made, rest⟩ := Option.bind_eq_some_iff.mp found
      obtain ⟨second, again, rfl⟩ := Option.map_eq_some_iff.mp rest
      exact ⟨first, second, exists_of_toOption made, exists_of_toOption again,
        of_decide_eq_true runs⟩

theorem export_round_trip_begunRun :
    ∃ result replay,
      exportRun byLength (js "run-1") begunExport emptyDirectory = .ok result ∧
      runReplay byLength (js "run-1") begunExport = .ok replay ∧
      RoundTrip byLength (js "bundle") result.dir replay := by
  obtain ⟨result, -, made, -⟩ := exists_exportedTwice
  obtain ⟨replay, replayed⟩ := begunExport_replayed
  have earlier : exportAll byLength (js "run-1") [] emptyDirectory = .ok emptyDirectory := rfl
  exact ⟨result, replay, made, replayed,
    (export_round_trip (js "bundle") earlier made replayed
      (listsOwnHash_of_withoutManifest made begunExport_withoutManifest)).2
      (fun runMeta _ => begunExport_apart runMeta) ⟨rfl, begunExport_withoutManifest⟩⟩

/-- The bundle of a second export of the run is reported as changed. -/
theorem not_export_round_trip :
    ∃ first second replay,
      exportRun byLength (js "run-1") begunExport emptyDirectory = .ok first ∧
      exportRun byLength (js "run-1") begunExport first.dir = .ok second ∧
      runReplay byLength (js "run-1") begunExport = .ok replay ∧
      (∃ report, verifyBundle byLength (js "bundle") (some second.dir) = .ok report ∧
        report.manifest = .mismatch) ∧
      ¬ RoundTrip byLength (js "bundle") second.dir replay := by
  obtain ⟨first, second, made, again, different⟩ := exists_exportedTwice
  obtain ⟨replay, replayed⟩ := begunExport_replayed
  obtain ⟨report, reported, -⟩ := verifyBundle_verdicts again replayed
    (Apart.next made begunExport_extends fun runMeta _ => begunExport_apart runMeta) (js "bundle")
  have changed : report.manifest ≠ .verified := by
    intro verified
    obtain ⟨runMeta, view, -, shape⟩ := exportRun_ok made
    have old := @Directory.read_write_self (begunExport.collect runMeta view emptyDirectory)
      manifestName (manifestOf begunExport (js "run-1") runMeta view (componentsOf byLength
        (begunExport.collect runMeta view emptyDirectory))).1.file
    rw [← shape] at old
    refine different ?_
    rw [old, hash_eq_of_verified again (fun otherMeta otherView _ => ?_) reported verified]
    · rfl
    · rw [read_collect_kept (fun spec known => by cases known), old]
  refine ⟨first, second, replay, made, again, replayed, ⟨report, reported, ?_⟩, ?_⟩
  · cases status : report.manifest with
    | mismatch => rfl
    | verified => exact absurd status changed
  · rintro ⟨⟨other, otherReported, verified, -⟩, -⟩
    rw [reported] at otherReported
    cases otherReported
    exact changed verified

end SpecAsCode.Runtime
