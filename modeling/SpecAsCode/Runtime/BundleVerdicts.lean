import SpecAsCode.Runtime.Export

/-!
# The verdicts of a bundle

A bundle is verified like the components of its manifest, and its copy of a run is judged as
the replay judges the run.
-/

namespace SpecAsCode.Runtime

open SpecAsCode.Js
open SpecAsCode.Core
open SpecAsCode.Schema
open SpecAsCode.Text

/-- A sequence that succeeds succeeds at its first step. -/
theorem except_bind_ok {Error First Second : Type} {first : Except Error First}
    {next : First → Except Error Second} {result : Second}
    (ran : first.bind next = .ok result) :
    ∃ value, first = .ok value ∧ next value = .ok result := by
  cases first with
  | error error => cases ran
  | ok value => exact ⟨value, rfl, ran⟩

/-! ## What the manifest says -/

section Manifest

variable {sha256 : List Octet → JsString} (context : ExportContext) (runId : JsString)
  (runMeta : JsValue) (view : ViewedState) (components : List Component)

theorem manifestOf_runId :
    (manifestOf context runId runMeta view components).1.property (js "runId") =
      .string runId := by
  show lookup (js "runId") (fieldMembers (manifestFields context runId runMeta view components)) = _
  rw [manifestFields, lookup_fieldMembers_ne (by decide), lookup_fieldMembers_ne (by decide),
    lookup_fieldMembers_self]
  rfl

theorem manifestOf_components :
    manifestComponents (manifestOf context runId runMeta view components).1 =
      .ok (components.map fun component => (componentJson component).1) := by
  have listed : (manifestOf context runId runMeta view components).1.property (js "components") =
      .array (components.map fun component => (componentJson component).1) := by
    show lookup (js "components")
      (fieldMembers (manifestFields context runId runMeta view components)) = _
    rw [manifestFields]
    iterate 13 rw [lookup_fieldMembers_ne (by decide)]
    rw [lookup_fieldMembers_self]
    exact congrArg JsValue.array (List.map_map)
  rw [manifestComponents, listed]
  rfl

/-- The manifest is read as it was written. -/
theorem readJson_manifest :
    readJson manifestName (some (manifestOf context runId runMeta view components).1.file) =
      .ok (manifestOf context runId runMeta view components).1 := by
  rw [readJson, parseFile_file (manifestOf context runId runMeta view components).2]

end Manifest

/-! ## What is wrong with a bundle -/

section Problems

variable {sha256 : List Octet → JsString}

/-- A component whose file is there with its hash. -/
def Intact (sha256 : List Octet → JsString) (dir : Directory) (component : Component) : Prop :=
  (dir.read component.1).map sha256 = some component.2

theorem componentProblem_json (dir : Directory) (component : Component) :
    ∃ problems, componentProblem sha256 dir (componentJson component).1 = .ok problems ∧
      (Intact sha256 dir component → problems = []) ∧
      (¬ Intact sha256 dir component →
        problems.any (fun problem => !startsWith problem (js "unlisted")) = true) := by
  have path : (componentJson component).1.property (js "path") = .string component.1 := rfl
  have hash : (componentJson component).1.property (js "sha256") = .string component.2 := rfl
  have notNullish : (componentJson component).1.isNullish = false := rfl
  rw [componentProblem, notNullish, if_neg Bool.false_ne_true, path, hash, Intact]
  simp only
  cases dir.read component.1 with
  | none => exact ⟨_, rfl, by simp, fun _ => rfl⟩
  | some content =>
      have compared : strictEquals (.string (sha256 content)) (.string component.2) =
          (sha256 content == component.2) := rfl
      simp only [compared, beq_iff_eq, Option.map_some, Option.some.injEq]
      by_cases same : sha256 content = component.2
      · rw [if_pos same]
        exact ⟨[], rfl, fun _ => rfl, fun different => absurd same different⟩
      · rw [if_neg same]
        exact ⟨_, rfl, fun intact => absurd intact same, fun _ => rfl⟩

theorem componentProblems_json (dir : Directory) (components : List Component) :
    ∃ problems, componentProblems sha256 dir
        (components.map fun component => (componentJson component).1) = .ok problems ∧
      ((∀ component ∈ components, Intact sha256 dir component) → problems = []) ∧
      (¬ (∀ component ∈ components, Intact sha256 dir component) →
        problems.any (fun problem => !startsWith problem (js "unlisted")) = true) := by
  induction components with
  | nil => exact ⟨[], rfl, by simp, by simp⟩
  | cons component rest inductionHypothesis =>
      obtain ⟨problems, found, intact, broken⟩ := @componentProblem_json sha256 dir component
      obtain ⟨others, othersFound, othersIntact, othersBroken⟩ := inductionHypothesis
      refine ⟨problems ++ others, ?_, ?_, ?_⟩
      · rw [List.map_cons, componentProblems, found, othersFound]
        rfl
      · intro all
        rw [List.forall_mem_cons] at all
        rw [intact all.1, othersIntact all.2]
        rfl
      · intro some
        rw [List.forall_mem_cons, not_and_or] at some
        rw [List.any_append, Bool.or_eq_true]
        exact some.imp broken othersBroken

theorem unlisted_startsWith (dir : Directory) (components : List JsValue) :
    (unlistedFiles dir components).any (fun problem => !startsWith problem (js "unlisted")) =
      false := by
  rw [unlistedFiles, List.any_map, List.any_eq_false]
  intro path _ problem
  cases problem

/-- The manifest is verified if and only if all its components are intact. -/
theorem manifestProblems_json {manifest : JsValue} {components : List Component}
    (listed : manifestComponents manifest =
      .ok (components.map fun component => (componentJson component).1)) (dir : Directory) :
    ∃ problems, manifestProblems sha256 dir manifest = .ok problems ∧
      (manifestStatus problems = .verified ↔
        ∀ component ∈ components, Intact sha256 dir component) := by
  obtain ⟨problems, found, intact, broken⟩ := @componentProblems_json sha256 dir components
  refine ⟨problems ++ unlistedFiles dir (components.map fun component => (componentJson component).1),
    by rw [manifestProblems, listed, Except.bind, found]; rfl, ?_⟩
  rw [manifestStatus, List.any_append, unlisted_startsWith, Bool.or_false]
  by_cases all : ∀ component ∈ components, Intact sha256 dir component
  · rw [intact all]
    exact iff_of_true rfl all
  · rw [broken all]
    exact iff_of_false (by simp) all

/-- The components are the files of the directory with their hashes. -/
theorem mem_componentsOf {dir : Directory} {component : Component} :
    component ∈ componentsOf sha256 dir ↔ Intact sha256 dir component := by
  obtain ⟨path, hash⟩ := component
  rw [componentsOf, List.mem_map, Intact]
  constructor
  · rintro ⟨other, found, same⟩
    cases same
    rw [List.mem_insertionSort, Directory.mem_walkFiles] at found
    obtain ⟨content, known⟩ := Option.isSome_iff_exists.mp found
    simp only [known, Option.map_some, Option.getD_some]
  · intro intact
    obtain ⟨content, known, rfl⟩ := Option.map_eq_some_iff.mp intact
    refine ⟨path, ?_, ?_⟩
    · rw [List.mem_insertionSort, Directory.mem_walkFiles]
      exact Option.isSome_iff_exists.mpr ⟨content, known⟩
    · show (path, sha256 ((dir.read path).getD [])) = (path, sha256 content)
      have known : dir.read path = some content := known
      rw [known, Option.getD_some]

end Problems

/-! ## The verdicts on the run -/

/-- The words of a comparison do not change its outcome. -/
theorem checkProjection_words {words : DiffWords} {missing : JsString}
    {persisted : Option JsValue} {replayed : ProjectedState} {report : ProjectionReport}
    (checked : checkProjection words missing persisted replayed = .ok report)
    (other : DiffWords) (otherMissing : JsString) :
    ∃ otherReport, checkProjection other otherMissing persisted replayed = .ok otherReport ∧
      otherReport.projectionMatches = report.projectionMatches := by
  cases persisted with
  | none =>
      cases checked
      exact ⟨_, rfl, rfl⟩
  | some persisted =>
      have lengths := stateDiffs_length words other persisted replayed
      rw [checkProjection] at checked ⊢
      cases diffs : stateDiffs words persisted replayed with
      | error error =>
          rw [diffs] at checked
          cases checked
      | ok found =>
          rw [diffs] at checked lengths
          cases checked
          cases otherDiffs : stateDiffs other persisted replayed with
          | error error =>
              rw [otherDiffs] at lengths
              cases lengths
          | ok others =>
              rw [otherDiffs] at lengths
              have same : found.length = others.length := Except.ok.inj lengths
              refine ⟨_, rfl, ?_⟩
              show others.isEmpty = found.isEmpty
              rw [Bool.eq_iff_iff, List.isEmpty_iff_length_eq_zero, List.isEmpty_iff_length_eq_zero,
                same]

/-- A state that is compared is truthy. -/
theorem isTruthy_of_stateDiffs {words : DiffWords} {persisted : JsValue}
    {replayed : ProjectedState} {diffs : List JsString}
    (compared : stateDiffs words persisted replayed = .ok diffs) :
    isTruthy persisted = true := by
  rw [stateDiffs] at compared
  cases persisted with
  | array items => rfl
  | object members => rfl
  | undefined => cases compared
  | null => cases compared
  | bool value => cases compared
  | number value => cases compared
  | string value => cases compared

/-- The words of a check do not change the verdict on the attestation. -/
theorem checkRecorded_words {sha256Hex : JsString → JsString} {words : AttestationWords}
    {events : List Event} {evidence : List Evidence} {recorded : Option RunAttestation}
    {report : AttestationReport}
    (checked : checkRecorded sha256Hex words events evidence recorded = .ok report)
    (other : AttestationWords) :
    ∃ otherReport, checkRecorded sha256Hex other events evidence recorded = .ok otherReport ∧
      otherReport.attestation = report.attestation := by
  cases recorded with
  | none =>
      cases checked
      exact ⟨_, rfl, rfl⟩
  | some recorded =>
      rw [checkRecorded, checkAttestation] at checked
      rw [checkRecorded, checkAttestation]
      by_cases short : (events.take recorded.eventCount).length < recorded.eventCount
      · rw [if_pos short] at checked ⊢
        cases checked
        exact ⟨_, rfl, rfl⟩
      · rw [if_neg short] at checked ⊢
        cases head : eventHeadOf sha256Hex (events.take recorded.eventCount) with
        | error error =>
            rw [head] at checked
            cases checked
        | ok headAtN =>
            cases evHead : evidenceHeadOf sha256Hex evidence with
            | error error =>
                rw [head, evHead] at checked
                cases checked
            | ok evHead' =>
                rw [head, evHead] at checked
                have report := Except.ok.inj checked
                refine ⟨_, rfl, ?_⟩
                rw [← report]
                dsimp only
                split_ifs <;> rfl

section Verdicts

variable {sha256 : List Octet → JsString}

/-- What `replayRun` has found when it reports. -/
theorem replayRun_ok {sha256Hex : JsString → JsString} {files : Files} {runId : JsString}
    {plan : JsValue} {replay : ReplayReport}
    (ran : replayRun sha256Hex files runId plan = .ok replay) :
    ∃ runMeta stores replayed persisted recorded,
      loadRunMeta files = some runMeta ∧ isTruthy runMeta = true ∧
      loadStores sha256Hex runId files = .ok stores ∧
      projectState runMeta plan stores.1.log.records = .ok replayed ∧
      readIfAny (js "state.json") (files (js "state.json")) = .ok persisted ∧
      checkProjection replayDiffWords
        (js "state.json missing; replayed state is the only projection") persisted replayed =
          .ok replay.projection ∧
      readAttestation (files (js "attestation.json")) = .ok recorded ∧
      checkRecorded sha256Hex replayWords stores.1.log.records stores.2.records recorded =
        .ok replay.attestation := by
  rw [replayRun] at ran
  cases known : (loadRunMeta files).filter isTruthy with
  | none =>
      rw [known] at ran
      cases ran
  | some runMeta =>
      rw [known] at ran
      obtain ⟨loaded, truthy⟩ := Option.filter_eq_some_iff.mp known
      obtain ⟨stores, storesLoaded, ran⟩ := except_bind_ok ran
      obtain ⟨replayed, projected, ran⟩ := except_bind_ok ran
      obtain ⟨persisted, read, ran⟩ := except_bind_ok ran
      obtain ⟨projection, compared, ran⟩ := except_bind_ok ran
      obtain ⟨recorded, found, ran⟩ := except_bind_ok ran
      obtain ⟨attestation, checked, ran⟩ := except_bind_ok ran
      cases ran
      refine ⟨runMeta, stores, replayed, persisted, recorded, loaded, truthy, storesLoaded, ?_,
        read, compared, found, checked⟩
      cases state : projectState runMeta plan stores.1.log.records with
      | error error =>
          rw [state] at projected
          cases projected
      | ok other =>
          rw [state] at projected
          cases projected
          rfl

/-- A directory whose copy of the run reads as the run does. -/
structure CopiesRun (dir : Directory) (files : Files) (plan : JsValue) : Prop where
  run : ∀ name ∈ [js "metadata.json", js "events.jsonl", js "evidence.jsonl", js "state.json",
    js "attestation.json"], dir.within (js "run") name = files name
  plan : bundlePlan dir = .ok plan

/-- A bundle with a copy of a run is judged as the replay judges the run. -/
theorem verifyContent_of_replayRun {dir : Directory} {files : Files} {runId : JsString}
    {plan manifest : JsValue} {replay : ReplayReport} {problems : List JsString}
    (ran : replayRun (textHash sha256) files runId plan = .ok replay)
    (copies : CopiesRun dir files plan)
    (named : manifest.property (js "runId") = .string runId)
    (found : manifestProblems sha256 dir manifest = .ok problems) (bundle : JsString) :
    ∃ report, verifyContent sha256 bundle dir manifest = .ok report ∧
      report.manifest = manifestStatus problems ∧
      report.projection.projectionMatches = replay.projection.projectionMatches ∧
      report.attestation.attestation = replay.attestation.attestation := by
  obtain ⟨runMeta, stores, replayed, persisted, recorded, loaded, -, storesLoaded, projected,
    read, compared, attested, checked⟩ := replayRun_ok ran
  have metadata : readJson (js "metadata.json") (files (js "metadata.json")) = .ok runMeta := by
    obtain ⟨octets, here, parsed⟩ := Option.bind_eq_some_iff.mp loaded
    rw [here, readJson, parsed]
  have truthyState : persisted.filter isTruthy = persisted := by
    cases persisted with
    | none => rfl
    | some persisted =>
        rw [checkProjection] at compared
        cases diffs : stateDiffs replayDiffWords persisted replayed with
        | error error =>
            rw [diffs] at compared
            cases compared
        | ok diffs' => rw [Option.filter_some, if_pos (isTruthy_of_stateDiffs diffs)]
  obtain ⟨projection, bundleCompared, sameProjection⟩ :=
    checkProjection_words compared bundleDiffWords (js "state.json missing from bundle")
  obtain ⟨attestation, bundleChecked, sameAttestation⟩ := checkRecorded_words checked bundleWords
  have bundleStores : loadStores (textHash sha256) runId (dir.within (js "run")) = .ok stores := by
    rw [← storesLoaded, loadStores, loadStores, copies.run (js "events.jsonl") (by simp),
      copies.run (js "evidence.jsonl") (by simp)]
  rw [verifyContent]
  simp only [found, named, JsValue.asString, Option.getD_some, bundleStores, copies.plan,
    copies.run (js "metadata.json") (by simp), copies.run (js "state.json") (by simp),
    copies.run (js "attestation.json") (by simp), metadata, read, truthyState, projected, attested,
    bundleCompared, bundleChecked, Except.mapError, bind, Except.bind]
  exact ⟨_, rfl, rfl, sameProjection, sameAttestation⟩

end Verdicts

end SpecAsCode.Runtime
