import SpecAsCode.Runtime.BundleVerdicts

/-!
# What an export leaves in a directory

An export writes over what it finds.  The copies of the run and of its plan are complete, and
what else the directory had stays.
-/

namespace SpecAsCode.Runtime

open SpecAsCode.Js
open SpecAsCode.Core
open SpecAsCode.Schema
open SpecAsCode.Text

/-! ## Writes -/

namespace Directory

theorem writeAll_cons (dir : Directory) (file : JsString × List Octet)
    (rest : List (JsString × List Octet)) :
    dir.writeAll (file :: rest) = (dir.write file.1 file.2).writeAll rest := rfl

/-- A file that is not written over stays. -/
theorem read_writeAll_of_not_mem (dir : Directory) {path : JsString}
    {files : List (JsString × List Octet)} (absent : path ∉ files.map Prod.fst) :
    (dir.writeAll files).read path = dir.read path := by
  induction files generalizing dir with
  | nil => rfl
  | cons file rest inductionHypothesis =>
      rw [List.map_cons, List.mem_cons, not_or] at absent
      rw [writeAll_cons, inductionHypothesis _ absent.2, read_write_ne _ absent.1]

/-- The files after some writes are the old ones and the written ones. -/
theorem isSome_read_writeAll (dir : Directory) (path : JsString)
    (files : List (JsString × List Octet)) :
    ((dir.writeAll files).read path).isSome = true ↔
      (dir.read path).isSome = true ∨ path ∈ files.map Prod.fst := by
  induction files generalizing dir with
  | nil => simp [writeAll]
  | cons file rest inductionHypothesis =>
      rw [writeAll_cons, inductionHypothesis, List.map_cons, List.mem_cons]
      by_cases same : path = file.1
      · subst same
        simp
      · rw [read_write_ne _ same]
        simp [same]

/-- A folder that is copied shows over what was there. -/
theorem read_writeAll_copies (dir : Directory) (start name : JsString)
    {entries : List (JsString × List Octet)} (distinct : (entries.map Prod.fst).Nodup) :
    (dir.writeAll (entries.map fun file => (start ++ file.1, file.2))).read (start ++ name) =
      ((entries.find? fun file => file.1 = name).map Prod.snd).or (dir.read (start ++ name)) := by
  induction entries generalizing dir with
  | nil => rfl
  | cons file rest inductionHypothesis =>
      rw [List.map_cons, List.nodup_cons] at distinct
      rw [List.map_cons, writeAll_cons, inductionHypothesis _ distinct.2]
      by_cases same : file.1 = name
      · have absent : rest.find? (fun other => decide (other.1 = name)) = none := by
          rw [List.find?_eq_none]
          intro other member here
          exact distinct.1 (List.mem_map.mpr ⟨other, member, by
            rw [same]
            exact of_decide_eq_true here⟩)
        rw [absent, List.find?_cons_of_pos (by simpa using same), same, read_write_self]
        rfl
      · rw [List.find?_cons_of_neg (by simpa using same),
          read_write_ne _ fun equal => same (List.append_cancel_left equal).symm]

end Directory

/-! ## Copies -/

section Collected

variable {context : ExportContext} {runMeta : JsValue} {view : ViewedState} {dir : Directory}

/-- The specification of the run of an export. -/
def ExportContext.spec (context : ExportContext) (runMeta : JsValue) : Option SpecSource :=
  context.specs (runMeta.property (js "specId"))

/-- Where a file that is not part of the run comes from. -/
theorem mem_otherCopies {file : JsString × List Octet}
    (found : file ∈ context.otherCopies runMeta view) :
    (∃ rest, file.1 = js "spec/" ++ rest) ∨
    (∃ spec, context.spec runMeta = some spec ∧
      ∃ imported ∈ spec.imports, importPath imported.1 = some file.1) ∨
    (∃ plan, context.planFile runMeta = some plan ∧ file = (js "plan/" ++ plan.1, plan.2)) ∨
    file.1 = js "diff.patch" ∨ file.1 = js "config.yaml" := by
  rw [ExportContext.otherCopies, List.mem_append, List.mem_append, List.mem_append] at found
  rcases found with ((spec | plan) | diff) | config
  · cases known : context.specs (runMeta.property (js "specId")) with
    | none =>
        rw [known] at spec
        cases spec
    | some source =>
        rw [known, Option.map_some, Option.getD_some, SpecSource.copies, List.mem_cons] at spec
        rcases spec with rfl | imported
        · exact Or.inl ⟨source.name, rfl⟩
        · obtain ⟨other, there, copied⟩ := List.mem_filterMap.mp imported
          obtain ⟨path, here, rfl⟩ := Option.map_eq_some_iff.mp copied
          exact Or.inr (Or.inl ⟨source, known, other, there, here⟩)
  · rw [Option.mem_toList] at plan
    obtain ⟨other, known, rfl⟩ := Option.map_eq_some_iff.mp plan
    exact Or.inr (Or.inr (Or.inl ⟨other, known, rfl⟩))
  · split at diff
    next =>
      rw [List.mem_singleton] at diff
      rw [diff]
      exact Or.inr (Or.inr (Or.inr (Or.inl rfl)))
    next => cases diff
  · rw [Option.mem_toList] at config
    obtain ⟨content, -, rfl⟩ := Option.map_eq_some_iff.mp config
    exact Or.inr (Or.inr (Or.inr (Or.inr rfl)))

/-- The directory holds only what this export writes too under `run/` and `plan/`, and the
files that the specification imports are copied elsewhere. -/
structure Apart (context : ExportContext) (runMeta : JsValue) (dir : Directory) : Prop where
  run : ∀ name, (dir.read (js "run/" ++ name)).isSome = true →
    (context.run.read name).isSome = true
  plan : ∀ path, (dir.read path).isSome = true → startsWith path (js "plan/") = true →
    ∃ file, context.planFile runMeta = some file ∧ path = js "plan/" ++ file.1
  folder : js "plan" ∈ dir.folders → context.planFile runMeta ≠ none
  imports : ∀ spec, context.spec runMeta = some spec → ∀ imported ∈ spec.imports,
    ∀ path, importPath imported.1 = some path →
      startsWith path (js "run/") = false ∧ startsWith path (js "plan/") = false

theorem startsWith_append (start rest : JsString) : startsWith (start ++ rest) start = true := by
  rw [startsWith, List.isPrefixOf_iff_prefix]
  exact List.prefix_append start rest

/-- The copy of the run is read as the run. -/
theorem Apart.read_run (apart : Apart context runMeta dir) (name : JsString) :
    (context.collect runMeta view dir).read (js "run/" ++ name) = context.run.read name := by
  have elsewhere : js "run/" ++ name ∉ (context.otherCopies runMeta view).map Prod.fst := by
    intro member
    obtain ⟨file, found, path⟩ := List.mem_map.mp member
    rcases mem_otherCopies found with ⟨rest, same⟩ | ⟨spec, known, imported, there, here⟩ |
      ⟨plan, -, rfl⟩ | same | same
    · cases path.symm.trans same
    · have apartFrom := (apart.imports spec known imported there _ here).1
      rw [path, startsWith_append] at apartFrom
      cases apartFrom
    · cases path
    · cases path.symm.trans same
    · cases path.symm.trans same
  have copied := (dir.read_writeAll_copies (js "run/") name context.run.files.distinct)
  show ((dir.writeAll context.runCopies).writeAll (context.otherCopies runMeta view)).read _ = _
  rw [Directory.read_writeAll_of_not_mem _ elsewhere, ExportContext.runCopies, copied]
  show (context.run.read name).or _ = _
  cases known : context.run.read name with
  | some content => rfl
  | none =>
      cases old : dir.read (js "run/" ++ name) with
      | none => rfl
      | some content =>
          have here := apart.run name (by rw [old]; rfl)
          rw [known] at here
          cases here

/-- The files of the directory before the manifest is written. -/
theorem isSome_read_collect {path : JsString} :
    ((context.collect runMeta view dir).read path).isSome = true ↔
      (dir.read path).isSome = true ∨ (∃ name, path = js "run/" ++ name ∧
        (context.run.read name).isSome = true) ∨
      path ∈ (context.otherCopies runMeta view).map Prod.fst := by
  have run : path ∈ context.runCopies.map Prod.fst ↔
      ∃ name, path = js "run/" ++ name ∧ (context.run.read name).isSome = true := by
    rw [ExportContext.runCopies, List.map_map, List.mem_map]
    constructor
    · rintro ⟨file, member, rfl⟩
      exact ⟨file.1, rfl, Directory.mem_walkFiles.mp (List.mem_map.mpr ⟨file, member, rfl⟩)⟩
    · rintro ⟨name, rfl, here⟩
      obtain ⟨file, member, rfl⟩ := List.mem_map.mp (Directory.mem_walkFiles.mpr here)
      exact ⟨file, member, rfl⟩
  show (((dir.writeAll context.runCopies).writeAll (context.otherCopies runMeta view)).read
    path).isSome = true ↔ _
  rw [Directory.isSome_read_writeAll, Directory.isSome_read_writeAll, run, or_assoc]

/-- Under `plan/` there is the plan of the run only. -/
theorem Apart.plan_only (apart : Apart context runMeta dir) {path : JsString}
    (here : ((context.collect runMeta view dir).read path).isSome = true)
    (inside : startsWith path (js "plan/") = true) :
    ∃ file, context.planFile runMeta = some file ∧ path = js "plan/" ++ file.1 := by
  rcases isSome_read_collect.mp here with old | ⟨name, rfl, -⟩ | copied
  · exact apart.plan path old inside
  · cases inside
  · obtain ⟨file, found, rfl⟩ := List.mem_map.mp copied
    rcases mem_otherCopies found with ⟨rest, same⟩ | ⟨spec, known, imported, there, here⟩ |
      ⟨plan, known, rfl⟩ | same | same
    · rw [same] at inside
      cases inside
    · rw [(apart.imports spec known imported there _ here).2] at inside
      cases inside
    · exact ⟨plan, known, rfl⟩
    · rw [same] at inside
      cases inside
    · rw [same] at inside
      cases inside

theorem read_copied {path : JsString} {content : List Octet} {files : List (JsString × List Octet)}
    (member : (path, content) ∈ files)
    (only : ∀ file ∈ files, file.1 = path → file.2 = content) (dir : Directory) :
    (dir.writeAll files).read path = some content := by
  induction files generalizing dir with
  | nil => cases member
  | cons file rest inductionHypothesis =>
      rw [Directory.writeAll_cons]
      by_cases later : path ∈ rest.map Prod.fst
      · obtain ⟨other, found, same⟩ := List.mem_map.mp later
        have content := only other (List.mem_cons_of_mem _ found) same
        exact inductionHypothesis (by
          rw [← same, ← content]
          exact found) (fun file found => only file (List.mem_cons_of_mem _ found)) _
      · rcases List.mem_cons.mp member with rfl | found
        · rw [Directory.read_writeAll_of_not_mem _ later, Directory.read_write_self]
        · exact absurd (List.mem_map.mpr ⟨_, found, rfl⟩) later

/-- The copy of the plan is read as the plan. -/
theorem Apart.read_plan (apart : Apart context runMeta dir) {file : JsString × List Octet}
    (known : context.planFile runMeta = some file) :
    (context.collect runMeta view dir).read (js "plan/" ++ file.1) = some file.2 := by
  have member : (js "plan/" ++ file.1, file.2) ∈ context.otherCopies runMeta view := by
    rw [ExportContext.otherCopies, known]
    simp
  refine read_copied member ?_ _
  intro other found path
  rcases mem_otherCopies found with ⟨rest, same⟩ | ⟨spec, specKnown, imported, there, here⟩ |
    ⟨plan, planKnown, rfl⟩ | same | same
  · cases path.symm.trans same
  · have apartFrom := (apart.imports spec specKnown imported there _ here).2
    rw [path, startsWith_append] at apartFrom
    cases apartFrom
  · rw [known] at planKnown
    cases planKnown
    rfl
  · cases path.symm.trans same
  · cases path.symm.trans same

/-- The name of a file has no slash. -/
theorem takeWhile_baseName (path : JsString) :
    ((baseName path).takeWhile fun code => code ≠ unit '/') = baseName path := by
  rw [List.takeWhile_eq_self_iff]
  intro code member
  rw [baseName, List.mem_reverse] at member
  have kept := List.mem_takeWhile_imp member
  exact kept

/-- The plan is found under its name. -/
theorem takeWhile_planFile {file : JsString × List Octet}
    (known : context.planFile runMeta = some file) :
    (((js "plan/" ++ file.1).drop ((js "plan").length + 1)).takeWhile fun code =>
      code ≠ unit '/') = file.1 := by
  obtain ⟨planId, -, found⟩ := Option.bind_eq_some_iff.mp known
  obtain ⟨content, -, rfl⟩ := Option.map_eq_some_iff.mp found
  exact takeWhile_baseName _

/-- The files of the bundle under `plan/`. -/
theorem Apart.plan_walk (apart : Apart context runMeta dir) (manifest : List Octet)
    {path : JsString}
    (found : path ∈ ((context.collect runMeta view dir).write manifestName manifest).walkFiles)
    (inside : startsWith path (js "plan/") = true) :
    ∃ file, context.planFile runMeta = some file ∧ path = js "plan/" ++ file.1 := by
  have here := Directory.mem_walkFiles.mp found
  by_cases same : path = manifestName
  · subst same
    cases inside
  · rw [Directory.read_write_ne _ same] at here
    exact apart.plan_only here inside

/-- The plan that is found in the bundle is the one the run is replayed with. -/
theorem Apart.bundlePlan (apart : Apart context runMeta dir) (manifest : List Octet) :
    bundlePlan ((context.collect runMeta view dir).write manifestName manifest) =
      match context.planFile runMeta with
      | none => .ok .null
      | some file => readJson file.1 (some file.2) := by
  rw [Runtime.bundlePlan]
  cases known : context.planFile runMeta with
  | none =>
      have noFolder : ((context.collect runMeta view dir).write manifestName manifest).hasFolder
          (js "plan") = false := by
        rw [Directory.hasFolder, Bool.or_eq_false_iff, List.contains_eq_mem, decide_eq_false_iff_not,
          List.any_eq_false]
        refine ⟨?_, fun path found inside => ?_⟩
        · intro member
          have listed : js "plan" ∈ js "run" ::
              context.run.folders.map (js "run/" ++ ·) ++ dir.folders := member
          rw [List.cons_append, List.mem_cons, List.mem_append] at listed
          rcases listed with same | copied | old
          · cases same
          · obtain ⟨folder, -, same⟩ := List.mem_map.mp copied
            cases same
          · exact apart.folder old known
        · obtain ⟨file, planKnown, -⟩ := apart.plan_walk manifest found inside
          rw [known] at planKnown
          cases planKnown
      rw [noFolder, if_neg Bool.false_ne_true]
  | some file =>
      have different : js "plan/" ++ file.1 ≠ manifestName := fun same => by cases same
      have copy : ((context.collect runMeta view dir).write manifestName manifest).read
          (js "plan/" ++ file.1) = some file.2 := by
        rw [Directory.read_write_ne _ different, apart.read_plan known]
      have walked : js "plan/" ++ file.1 ∈
          ((context.collect runMeta view dir).write manifestName manifest).walkFiles :=
        Directory.mem_walkFiles.mpr (by rw [copy]; rfl)
      have inside : startsWith (js "plan/" ++ file.1) (js "plan/") = true :=
        startsWith_append _ _
      have folder : ((context.collect runMeta view dir).write manifestName manifest).hasFolder
          (js "plan") = true := by
        rw [Directory.hasFolder, Bool.or_eq_true, List.any_eq_true]
        exact Or.inr ⟨_, walked, inside⟩
      have only : ∀ name, name ∈ ((context.collect runMeta view dir).write manifestName
          manifest).names (js "plan") ↔ name = file.1 := by
        intro name
        rw [Directory.names, List.mem_insertionSort, List.mem_map]
        constructor
        · rintro ⟨path, found, rfl⟩
          obtain ⟨walked, inside⟩ := List.mem_filter.mp found
          obtain ⟨other, otherKnown, rfl⟩ := apart.plan_walk manifest walked inside
          rw [known] at otherKnown
          cases otherKnown
          exact takeWhile_planFile known
        · rintro rfl
          exact ⟨_, List.mem_filter.mpr ⟨walked, inside⟩, takeWhile_planFile known⟩
      rw [folder, if_pos rfl]
      cases names : ((context.collect runMeta view dir).write manifestName manifest).names
          (js "plan") with
      | nil =>
          have listed := (only file.1).mpr rfl
          rw [names] at listed
          cases listed
      | cons name rest =>
          have first := (only name).mp (by rw [names]; exact List.mem_cons_self)
          subst first
          exact congrArg (readJson file.1) copy

end Collected

end SpecAsCode.Runtime
