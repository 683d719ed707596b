import SpecAsCode.Runtime.SpecLoader

/-!
# Planning and applying

The specification that planning compiles and the one that is loaded when the plan is applied
agree when the file that is found says alone what the files that planning gathers say together.
-/

namespace SpecAsCode.Compiler

open SpecAsCode.Js
open SpecAsCode.Core
open SpecAsCode.Lib
open SpecAsCode.Js.Path (join normalize)

variable {parser : Parser} {sha256Hex : JsString → JsString} {files : FileSet}
  {specsDir : SpecsDir} {entryFile : JsString}

/-! ## The specification that is found -/

theorem FirstUnder.search {specId : JsString} {spec : Spec}
    (first : FirstUnder parser sha256Hex files specsDir specId spec) :
    ∃ entry source, findSpecFor parser sha256Hex files specsDir specId =
        .ok (some (join specsDir.path entry)) ∧
      files.read (join specsDir.path entry) = some source ∧ standalone parser source = some spec := by
  obtain ⟨names, before, entry, after, listing, shape, each, stops⟩ := first
  obtain ⟨source, read, alone⟩ := stops.alone
  refine ⟨entry, source, ?_, read, alone⟩
  rw [findSpecFor, listing]
  exact (findSpecIn_iff _).mpr ⟨before, entry, after, shape, each, rfl, spec, stops⟩

/-- One specification at most is the first under an identifier. -/
theorem FirstUnder.unique {specId : JsString} {spec other : Spec}
    (first : FirstUnder parser sha256Hex files specsDir specId spec)
    (second : FirstUnder parser sha256Hex files specsDir specId other) : spec = other := by
  obtain ⟨entry, source, found, read, alone⟩ := first.search
  obtain ⟨entry', source', found', read', alone'⟩ := second.search
  rw [found, Except.ok.injEq, Option.some.injEq] at found'
  rw [← found', read, Option.some.injEq] at read'
  rw [← read', alone, Option.some.injEq] at alone'
  exact alone'

/-! ## Specifications and their digests -/

theorem Spec.Same.refl (spec : Spec) : spec.Same spec :=
  (normalizeSpec_same_iff spec spec).mp
    ((specDocument.identifies _ _).mp (LogicallyEqual.refl _))

theorem Spec.Same.symm {first second : Spec} (same : first.Same second) : second.Same first :=
  (normalizeSpec_same_iff second first).mp ((specDocument.identifies _ _).mp
    ((specDocument.identifies _ _).mpr ((normalizeSpec_same_iff first second).mpr same)).symm)

/-- Specifications that say the same have the same properties. -/
theorem same_properties {first second : Spec} {firstFiles secondFiles : Option (List JsString)}
    {ir other : SpecIR} (finalized : finalizeSpec sha256Hex first firstFiles = .ok ir)
    (otherFinalized : finalizeSpec sha256Hex second secondFiles = .ok other)
    (same : first.Same second) :
    List.Forall₂ DesiredProperty.Same ir.properties other.properties := by
  have normal := (normalizeSpec_same_iff first second).mpr same
  obtain ⟨-, spec, properties, -⟩ := finalizeSpec_ok finalized
  obtain ⟨-, otherSpec, otherProperties, -⟩ := finalizeSpec_ok otherFinalized
  rw [properties, otherProperties, spec, otherSpec]
  exact List.rel_append normal.requirements normal.constraints

theorem compilesTo_of_finalizeSpec {spec : Spec} {importedFiles : Option (List JsString)}
    {ir : SpecIR} (finalized : finalizeSpec sha256Hex spec importedFiles = .ok ir) :
    CompilesTo sha256Hex spec ir.digest :=
  compilesTo_iff.mpr (finalizeSpec_ok finalized).1

/-! ## The agreement -/

/-- What planning compiles is loaded again under its identifier, with the digest and the
properties it had. -/
def LoaderAgrees (parser : Parser) (sha256Hex : JsString → JsString) (files : FileSet)
    (specsDir : SpecsDir) (entryFile : JsString) : Prop :=
  ∀ ir, Compiles parser sha256Hex files entryFile ir →
    ∃ loaded, loadSpecIr parser sha256Hex files specsDir ir.spec.metadata.id = .ok loaded ∧
      loaded.digest = ir.digest ∧
      List.Forall₂ DesiredProperty.Same loaded.properties ir.properties

/-- A specification without imports says what several say together under the name of the
first one. -/
structure SaysTogether (spec entry : Spec) (gathered : List Spec) : Prop where
  metadata : spec.metadata = entry.metadata
  goal : spec.goal = entry.goal
  imports : spec.imports = none
  environment : spec.environment = entry.environment
  requirements : List.Forall₂ Requirement.Same spec.requirements
    (gathered.flatMap fun file => file.requirements)
  constraints : List.Forall₂ Constraint.Same (spec.constraints.getD [])
    (gathered.flatMap fun file => file.constraints.getD [])
  outOfScope : spec.outOfScope.getD [] =
    once [] (gathered.flatMap fun file => file.outOfScope.getD [])

/-- The file that is found says alone what the entry and its imports say together, each of them
once in depth-first preorder. -/
def FoundWhole (parser : Parser) (sha256Hex : JsString → JsString) (files : FileSet)
    (specsDir : SpecsDir) (entryFile : JsString) : Prop :=
  ∃ walk entry spec, Walk (importEdges parser files entryFile) [normalize entryFile] walk ∧
    specAt parser files entryFile (normalize entryFile) = some entry ∧
    FirstUnder parser sha256Hex files specsDir entry.metadata.id spec ∧
    SaysTogether spec entry ((once [] walk).filterMap (specAt parser files entryFile))

theorem same_compose_iff {entry : LoadedFile} {imports : List LoadedFile} {spec : Spec} :
    spec.Same (compose entry imports) ↔
      SaysTogether spec entry.spec ((entry :: imports).map LoadedFile.spec) := by
  constructor
  · intro same
    exact ⟨same.metadata, same.goal, same.imports, same.environment,
      by simpa [compose, List.flatMap_map] using same.requirements,
      by simpa [compose, List.flatMap_map] using same.constraints,
      by simpa [compose, List.flatMap_map] using same.outOfScope⟩
  · intro together
    exact ⟨together.metadata, together.goal, together.imports, together.environment,
      by simpa [compose, List.flatMap_map] using together.requirements,
      by simpa [compose, List.flatMap_map] using together.constraints,
      by simpa [compose, List.flatMap_map] using together.outOfScope⟩

theorem Gathered.specs {entry : LoadedFile} {imports : List LoadedFile}
    (gathered : Gathered parser files entryFile (entry :: imports)) {walk : List JsString}
    (walked : Walk (importEdges parser files entryFile) [normalize entryFile] walk) :
    (once [] walk).filterMap (specAt parser files entryFile) =
      (entry :: imports).map LoadedFile.spec := by
  obtain ⟨other, otherWalked, order⟩ := gathered.walked
  rw [walked.unique otherWalked, ← order, List.filterMap_map, ← List.filterMap_eq_map]
  exact List.filterMap_congr gathered.content

theorem Gathered.entry_file {entry : LoadedFile} {imports : List LoadedFile}
    (gathered : Gathered parser files entryFile (entry :: imports)) :
    entry.file = normalize entryFile := by
  obtain ⟨walk, walked, order⟩ := gathered.walked
  cases walked with
  | @cons _ _ below rest children siblings =>
      rw [List.cons_append, once, if_neg List.not_mem_nil, List.nil_append] at order
      obtain ⟨later, extended⟩ := prefix_once [normalize entryFile] (below ++ rest)
      rw [← extended] at order
      exact (List.cons.inj order).1

theorem Gathered.entry_spec {entry : LoadedFile} {imports : List LoadedFile}
    (gathered : Gathered parser files entryFile (entry :: imports)) :
    specAt parser files entryFile (normalize entryFile) = some entry.spec := by
  rw [← gathered.entry_file]
  exact gathered.content entry List.mem_cons_self

theorem Gathered.foundWhole_iff {entry : LoadedFile} {imports : List LoadedFile}
    (gathered : Gathered parser files entryFile (entry :: imports)) :
    FoundWhole parser sha256Hex files specsDir entryFile ↔
      ∃ spec, FirstUnder parser sha256Hex files specsDir entry.spec.metadata.id spec ∧
        spec.Same (compose entry imports) := by
  constructor
  · rintro ⟨walk, found, spec, walked, content, first, together⟩
    rw [gathered.entry_spec, Option.some.injEq] at content
    subst content
    rw [gathered.specs walked] at together
    exact ⟨spec, first, same_compose_iff.mpr together⟩
  · rintro ⟨spec, first, same⟩
    obtain ⟨walk, walked, -⟩ := gathered.walked
    refine ⟨walk, entry.spec, spec, walked, gathered.entry_spec, first, ?_⟩
    rw [gathered.specs walked]
    exact same_compose_iff.mp same

theorem Checked.id {entry : LoadedFile} {imports : List LoadedFile} {ir : SpecIR}
    (checked : Checked parser sha256Hex files entryFile entry imports ir) :
    ir.spec.metadata.id = entry.spec.metadata.id := by
  rw [finalizeSpec_id checked.finalized]
  rfl

/-- What is loaded agrees with what was compiled exactly when the file that is found says
the same. -/
theorem Checked.loaded_iff (injective : Function.Injective sha256Hex) {entry : LoadedFile}
    {imports : List LoadedFile} {ir : SpecIR}
    (checked : Checked parser sha256Hex files entryFile entry imports ir) :
    (∃ loaded, loadSpecIr parser sha256Hex files specsDir ir.spec.metadata.id = .ok loaded ∧
        loaded.digest = ir.digest ∧
        List.Forall₂ DesiredProperty.Same loaded.properties ir.properties) ↔
      ∃ spec, FirstUnder parser sha256Hex files specsDir entry.spec.metadata.id spec ∧
        spec.Same (compose entry imports) := by
  have compiled := compilesTo_of_finalizeSpec checked.finalized
  rw [checked.id]
  constructor
  · rintro ⟨loaded, loads, digest, -⟩
    obtain ⟨spec, first, finalized⟩ := loadSpecIr_iff.mp loads
    refine ⟨spec, first, ?_⟩
    have same := (compilesTo_same_iff injective compiled spec).mp
      (digest ▸ compilesTo_of_finalizeSpec finalized)
    exact same.symm
  · rintro ⟨spec, first, same⟩
    obtain ⟨loaded, finalized, digest⟩ := (compilesTo_same_iff injective compiled spec).mpr same.symm
    exact ⟨loaded, loadSpecIr_iff.mpr ⟨spec, first, finalized⟩, digest,
      same_properties finalized checked.finalized same⟩

theorem loaderAgrees_iff_foundWhole (injective : Function.Injective sha256Hex) :
    LoaderAgrees parser sha256Hex files specsDir entryFile ↔
      ((∃ ir, Compiles parser sha256Hex files entryFile ir) →
        FoundWhole parser sha256Hex files specsDir entryFile) := by
  constructor
  · rintro agrees ⟨ir, compiles⟩
    obtain ⟨entry, imports, checked⟩ := checked_of_compiles compiles
    exact checked.gathered.foundWhole_iff.mpr ((checked.loaded_iff injective).mp (agrees ir compiles))
  · intro whole ir compiles
    obtain ⟨entry, imports, checked⟩ := checked_of_compiles compiles
    exact (checked.loaded_iff injective).mpr
      (checked.gathered.foundWhole_iff.mp (whole ⟨ir, compiles⟩))

/-! ## The entry itself -/

/-- An entry that is found itself says alone what is compiled from it exactly when it imports
nothing and repeats nothing. -/
theorem Gathered.entry_alone_iff {entry : LoadedFile} {imports : List LoadedFile}
    (gathered : Gathered parser files entryFile (entry :: imports)) :
    entry.spec.Same (compose entry imports) ↔
      entry.spec.imports = none ∧ (entry.spec.outOfScope.getD []).Nodup := by
  -- without imports the entry is all that is gathered
  have single : entry.spec.imports = none → imports = [] := by
    intro alone
    have edges : importEdges parser files entryFile (normalize entryFile) = [] := by
      rw [importEdges_of_specAt gathered.entry_spec, importPaths, alone]
      rfl
    obtain ⟨walk, walked, order⟩ := gathered.walked
    have below : Walk (importEdges parser files entryFile)
        (importEdges parser files entryFile (normalize entryFile)) [] := by
      rw [edges]
      exact .nil
    have only : walk = [normalize entryFile] := walked.unique (.cons below .nil)
    rw [only] at order
    simpa [once] using congrArg List.length order
  constructor
  · intro same
    refine ⟨same.imports, ?_⟩
    have listed := same.outOfScope
    rw [single same.imports] at listed
    refine once_eq_self_iff.mp ?_
    simpa [compose] using listed.symm
  · rintro ⟨alone, distinct⟩
    have same := Spec.Same.refl entry.spec
    rw [single alone]
    exact ⟨rfl, rfl, alone, rfl, by simpa [compose] using same.requirements,
      by simpa [compose] using same.constraints,
      by simpa [compose] using (once_eq_self_iff.mpr distinct).symm⟩

/-- Applying loads what planning has compiled exactly when the file found under the identifier
says alone all that was gathered.  Where that file is the entry, this is so exactly when it
imports nothing and repeats nothing out of scope. -/
theorem loaderAgrees_iff (injective : Function.Injective sha256Hex) :
    (LoaderAgrees parser sha256Hex files specsDir entryFile ↔
      ((∃ ir, Compiles parser sha256Hex files entryFile ir) →
        FoundWhole parser sha256Hex files specsDir entryFile)) ∧
    ∀ entry, (∃ ir, Compiles parser sha256Hex files entryFile ir) →
      specAt parser files entryFile (normalize entryFile) = some entry →
      FirstUnder parser sha256Hex files specsDir entry.metadata.id entry →
      (LoaderAgrees parser sha256Hex files specsDir entryFile ↔
        entry.imports = none ∧ (entry.outOfScope.getD []).Nodup) := by
  refine ⟨loaderAgrees_iff_foundWhole injective, fun entry compiles content first => ?_⟩
  obtain ⟨ir, compiled⟩ := compiles
  obtain ⟨file, imports, checked⟩ := checked_of_compiles compiled
  have same := checked.gathered.entry_spec
  rw [content, Option.some.injEq] at same
  subst same
  rw [loaderAgrees_iff_foundWhole injective, checked.gathered.foundWhole_iff,
    ← checked.gathered.entry_alone_iff]
  constructor
  · intro whole
    obtain ⟨spec, found, alone⟩ := whole ⟨ir, compiled⟩
    rwa [found.unique first] at alone
  · exact fun alone _ => ⟨file.spec, first, alone⟩

/-- The identifiers of the properties of what was compiled, under its own identifier. -/
def compiledProperties (outcome : Option (Except CanonicalError SpecCompileResult)) :
    Option (JsString × List JsString) :=
  outcome.bind fun result => result.toOption.bind fun result =>
    if result.ok then
      result.ir.map fun ir => (ir.spec.metadata.id, ir.properties.map DesiredProperty.id)
    else
      none

theorem compiles_of_compiledProperties {specId : JsString} {ids : List JsString}
    (compiled : compiledProperties (compileSpecGraph parser sha256Hex files entryFile) =
      some (specId, ids)) :
    ∃ ir, Compiles parser sha256Hex files entryFile ir ∧ ir.spec.metadata.id = specId ∧
      ir.properties.map DesiredProperty.id = ids := by
  obtain ⟨outcome, ended, read⟩ := Option.bind_eq_some_iff.mp compiled
  cases outcome with
  | error error => cases read
  | ok result =>
      obtain ⟨ok, ir, diagnostics⟩ := result
      cases ok with
      | false => cases read
      | true =>
          cases ir with
          | none => cases read
          | some ir =>
              cases read
              exact ⟨ir, ⟨diagnostics, ended⟩, rfl, rfl⟩

theorem twinSecond :
    twinParser.document (js "b") = some (oneRequirement (js "REQ-2") (js "AC-1") none) := by
  have other : js "b" ≠ js "a" := by decide
  simp only [twinParser, if_neg other, if_true]

theorem twinSecond_specOf :
    specOf twinParser (js "b") = some (oneRequirement (js "REQ-2") (js "AC-1") none) :=
  Option.filter_eq_some_iff.mpr ⟨twinSecond, by decide +kernel⟩

theorem twinSecond_hashed :
    ∃ digest, CompilesTo id (oneRequirement (js "REQ-2") (js "AC-1") none) digest := by
  have finished : (finalizeSpec id (oneRequirement (js "REQ-2") (js "AC-1") none) none).isOk =
      true := by
    decide +kernel
  cases finalized : finalizeSpec id (oneRequirement (js "REQ-2") (js "AC-1") none) none with
  | error error => rw [finalized] at finished; cases finished
  | ok ir => exact ⟨ir.digest, ir, finalized, rfl⟩

/-- A file that imports nothing, in a directory of its own. -/
theorem loaderAgrees_alone :
    LoaderAgrees twinParser id twinFiles ⟨js ".", some [js "b.yaml"]⟩ (js "b.yaml") := by
  have compiled : compiledProperties (compileSpecGraph twinParser id twinFiles (js "b.yaml")) =
      some (js "login", [js "REQ-2"]) := by
    decide +kernel
  obtain ⟨ir, compiles, -⟩ := compiles_of_compiledProperties compiled
  refine ((loaderAgrees_iff Function.injective_id).2 (oneRequirement (js "REQ-2") (js "AC-1") none)
    ⟨ir, compiles⟩ ?_ ⟨[js "b.yaml"], [], js "b.yaml", [], rfl, rfl, by simp, ?_⟩).mpr
      ⟨rfl, List.nodup_nil⟩
  · have source : sourceAt twinFiles (js "b.yaml") (normalize (js "b.yaml")) = some (js "b") := by
      decide +kernel
    rw [specAt, source]
    exact twinSecond_specOf
  · exact ⟨by decide, ⟨js "b", by decide +kernel,
      Option.filter_eq_some_iff.mpr ⟨twinSecond_specOf, by decide +kernel⟩⟩, rfl, twinSecond_hashed⟩

theorem twinLoaded :
    ((loadSpecIr twinParser id twinFiles ⟨js ".", some [js "a.yaml", js "b.yaml"]⟩
        (js "login")).toOption.map fun ir => ir.properties.map DesiredProperty.id) =
      some [js "REQ-1"] := by
  decide +kernel

/-- The loader leaves the properties of an imported file out. -/
theorem not_loaderAgrees :
    ¬ LoaderAgrees twinParser id twinFiles ⟨js ".", some [js "a.yaml", js "b.yaml"]⟩
      (js "a.yaml") := by
  intro agrees
  have compiled : compiledProperties (compileSpecGraph twinParser id twinFiles (js "a.yaml")) =
      some (js "login", [js "REQ-1", js "REQ-2"]) := by
    decide +kernel
  obtain ⟨ir, compiles, named, ids⟩ := compiles_of_compiledProperties compiled
  obtain ⟨loaded, loads, -, properties⟩ := agrees ir compiles
  rw [named] at loads
  have loadedIds := twinLoaded
  rw [loads, Except.toOption, Option.map_some, Option.some.injEq] at loadedIds
  -- one property is loaded where two were compiled
  have lengths := properties.length_eq
  have counts := congrArg List.length loadedIds
  have compiledCounts := congrArg List.length ids
  rw [List.length_map] at counts compiledCounts
  rw [counts, compiledCounts] at lengths
  cases lengths

end SpecAsCode.Compiler
