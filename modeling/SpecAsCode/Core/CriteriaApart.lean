import SpecAsCode.Core.ComposedSpec
import Mathlib.Data.List.Pairwise

/-!
# Criteria of composed specifications

A composition is well formed in everything but one point: two files may use one identifier for
their criteria.
-/

namespace SpecAsCode.Compiler

open SpecAsCode.Js
open SpecAsCode.Core
open SpecAsCode.Lib
open SpecAsCode.Js.Path (normalize normalize_ne_nil)

variable {parser : Parser} {sha256Hex : JsString → JsString} {files : FileSet}
  {entryFile : JsString}

/-- The normalized requirements of the file under a key. -/
def requirementsAt (parser : Parser) (files : FileSet) (entryFile key : JsString) :
    List DesiredProperty :=
  ((specAt parser files entryFile key).map fun spec =>
    (normalizeSpec spec.source).requirements).getD []

/-- The normalized constraints of the file under a key. -/
def constraintsAt (parser : Parser) (files : FileSet) (entryFile key : JsString) :
    List DesiredProperty :=
  ((specAt parser files entryFile key).map fun spec =>
    (normalizeSpec spec.source).constraints).getD []

/-- A compiled specification as it should be. -/
structure ComposedWell (parser : Parser) (files : FileSet) (entryFile : JsString) (ir : SpecIR) :
    Prop where
  ordered : ∃ walk, Walk (importEdges parser files entryFile) [normalize entryFile] walk ∧
    ir.spec.requirements = (once [] walk).flatMap (requirementsAt parser files entryFile) ∧
    ir.spec.constraints = (once [] walk).flatMap (constraintsAt parser files entryFile)
  listed : ir.properties = ir.spec.requirements ++ ir.spec.constraints
  propertyIds : (ir.properties.map DesiredProperty.id).Nodup
  criterionIds : (ir.properties.flatMap fun property =>
    property.acceptance.map AcceptanceCriterion.id).Nodup
  resolved : ∀ property ∈ ir.properties, ∀ dependency ∈ property.dependsOn,
    dependency ∈ ir.properties.map DesiredProperty.id
  acyclic : ∀ id, ¬ Relation.TransGen (DependsOn ir.properties) id id

/-- What is asked of the composition: it ends, what it composes is well formed, and it fails
where a file that is reached is missing or imports itself through others. -/
structure GraphComposes (parser : Parser) (sha256Hex : JsString → JsString) (files : FileSet)
    (entryFile : JsString) : Prop where
  ends : ∃ outcome, compileSpecGraph parser sha256Hex files entryFile = some outcome
  composed : ∀ ir, Compiles parser sha256Hex files entryFile ir →
    ComposedWell parser files entryFile ir
  fails : ∀ key, Reaches (importEdges parser files entryFile) (normalize entryFile) key →
    specAt parser files entryFile key = none ∨ OnCycle (importEdges parser files entryFile) key →
    ∃ diagnostics, compileSpecGraph parser sha256Hex files entryFile = some (.ok (.failed diagnostics))

/-- No two files that the entry reaches use one identifier for their criteria. -/
def CriteriaApart (parser : Parser) (files : FileSet) (entryFile : JsString) : Prop :=
  ∀ key other, Reaches (importEdges parser files entryFile) (normalize entryFile) key →
    Reaches (importEdges parser files entryFile) (normalize entryFile) other → key ≠ other →
    ∀ spec otherSpec, specAt parser files entryFile key = some spec →
      specAt parser files entryFile other = some otherSpec →
      ∀ id ∈ criterionIds spec, id ∉ criterionIds otherSpec

/-! ## A compilation that succeeds -/

/-- What a compilation that succeeds has checked. -/
structure Checked (parser : Parser) (sha256Hex : JsString → JsString) (files : FileSet)
    (entryFile : JsString) (entry : LoadedFile) (imports : List LoadedFile) (ir : SpecIR) : Prop where
  gathered : Gathered parser files entryFile (entry :: imports)
  apart : hasErrors (collisions OrderedMap.empty (definitions (entry :: imports))) = false
  references : hasErrors (validateSpecCrossRefs (compose entry imports)) = false
  finalized : finalizeSpec sha256Hex (compose entry imports) (some (imports.map LoadedFile.file)) =
    .ok ir

theorem checked_of_composeLoaded {entry : LoadedFile} {imports : List LoadedFile} {ir : SpecIR}
    {diagnostics reported : List Diagnostic}
    (gathered : Gathered parser files entryFile (entry :: imports))
    (succeeded : composeLoaded sha256Hex entry (entry :: imports) diagnostics =
      .ok (.succeeded reported ir)) :
    Checked parser sha256Hex files entryFile entry imports ir := by
  rw [composeLoaded] at succeeded
  simp only [List.drop_succ_cons, List.drop_zero] at succeeded
  split_ifs at succeeded with collided broken
  · cases succeeded
  · cases succeeded
  · cases finalized : finalizeSpec sha256Hex (compose entry imports)
        (some (imports.map LoadedFile.file)) with
    | error error => rw [finalized] at succeeded; cases succeeded
    | ok composed =>
        rw [finalized] at succeeded
        cases succeeded
        rw [Bool.not_eq_true, hasErrors_append, Bool.or_eq_false_iff] at broken collided
        exact ⟨gathered, collided.2, broken.2, finalized⟩

theorem checked_of_compiles {ir : SpecIR} (compiles : Compiles parser sha256Hex files entryFile ir) :
    ∃ entry imports, Checked parser sha256Hex files entryFile entry imports ir := by
  obtain ⟨reported, compiled⟩ := compiles
  rcases compileSpecGraph_ends parser sha256Hex files entryFile with ⟨diagnostics, failed⟩ |
    ⟨entry, imports, diagnostics, gathered, composed⟩
  · rw [compiled] at failed
    cases failed
  · rw [compiled, Option.some.injEq] at composed
    exact ⟨entry, imports, checked_of_composeLoaded gathered composed.symm⟩

namespace Checked

variable {entry : LoadedFile} {imports : List LoadedFile} {ir : SpecIR}

theorem nodup_ids (checked : Checked parser sha256Hex files entryFile entry imports ir) :
    ((propertySources (compose entry imports)).map fun source => source.id).Nodup := by
  refine Compiler.nodup_ids rfl (fun file member => ?_) checked.apart
  obtain ⟨walk, walked, order⟩ := checked.gathered.walked
  have inside : file.file ∈ once [] walk := order ▸ List.mem_map.mpr ⟨file, member, rfl⟩
  obtain ⟨first, here, path⟩ := walked.mem_iff.mp ((mem_once.mp inside).resolve_left (by simp))
  rw [List.mem_singleton.mp here] at path
  -- keys are normal paths, which are not empty
  have normal : normalize file.file = file.file := by
    rcases Relation.ReflTransGen.cases_tail path with same | ⟨other, -, edge⟩
    · rw [same, Path.normalize_normalize]
    · rw [Follows, importEdges] at edge
      cases content : specAt parser files entryFile other with
      | none => rw [content] at edge; cases edge
      | some spec =>
          rw [content, Option.map_some, Option.getD_some] at edge
          exact normalize_of_mem_importPaths edge
  rw [← normal]
  exact normalize_ne_nil _

theorem dependencies (checked : Checked parser sha256Hex files entryFile entry imports ir) :
    (∀ property ∈ ir.properties, ∀ dependency ∈ property.dependsOn,
      dependency ∈ ir.properties.map DesiredProperty.id) ∧
    ∀ id, ¬ Relation.TransGen (DependsOn ir.properties) id id := by
  have references := checked.references
  rw [validateSpecCrossRefs, hasErrors_append, Bool.or_eq_false_iff] at references
  have distinct := checked.nodup_ids
  have edges := @referenceEdges_of_dependsOn _ _ _ _ checked.finalized distinct
  have ids : ir.properties.map DesiredProperty.id =
      (slots (compose entry imports)).map PropertySlot.id := by
    rw [properties_of_finalize checked.finalized DesiredProperty.id (fun source => source.id)
        fun _ _ => rfl,
      map_slots PropertySlot.id (fun source => source.id) fun _ _ _ => rfl]
  constructor
  · intro property member dependency named
    obtain ⟨-, edge⟩ := edges ⟨property, member, rfl, named⟩
    rw [referenceEdges] at edge
    cases found : (slots (compose entry imports)).find? fun slot => slot.id = property.id with
    | none => rw [found] at edge; cases edge
    | some slot =>
        rw [found, Option.map_some, Option.getD_some] at edge
        rw [ids]
        exact resolved_of_unknownReferences references.1 slot (List.mem_of_find?_eq_some found)
          dependency edge
  · intro id cycle
    obtain ⟨next, first, -⟩ := Relation.TransGen.head'_iff.mp cycle
    have followed : DependsOn ir.properties ≤
        Follows (referenceEdges (slots (compose entry imports))) := fun _ _ depends => (edges depends).2
    exact acyclic_of_referenceCycle references.2 id (edges first).1
      (Relation.TransGen.mono followed _ _ cycle)

/-- The properties come from the files in the order of the walk. -/
theorem ordered (checked : Checked parser sha256Hex files entryFile entry imports ir) :
    ∃ walk, Walk (importEdges parser files entryFile) [normalize entryFile] walk ∧
      ir.spec.requirements = (once [] walk).flatMap (requirementsAt parser files entryFile) ∧
      ir.spec.constraints = (once [] walk).flatMap (constraintsAt parser files entryFile) := by
  obtain ⟨walk, walked, order⟩ := checked.gathered.walked
  refine ⟨walk, walked, ?_, ?_⟩
  · rw [(finalizeSpec_ok checked.finalized).2.1, ← order, List.flatMap_map]
    have composed : (normalizeSpec (compose entry imports).source).requirements =
        (entry :: imports).flatMap fun file => (normalizeSpec file.spec.source).requirements := by
      simp only [normalizeSpec, Spec.source, compose, List.map_append, List.map_flatMap,
        List.flatMap_cons]
    rw [composed]
    refine List.flatMap_congr fun file member => ?_
    rw [requirementsAt, checked.gathered.content file member]
    rfl
  · rw [(finalizeSpec_ok checked.finalized).2.1, ← order, List.flatMap_map]
    have composed : (normalizeSpec (compose entry imports).source).constraints =
        (entry :: imports).flatMap fun file => (normalizeSpec file.spec.source).constraints := by
      simp only [normalizeSpec, Spec.source, compose, getD_map_source, Option.getD_some,
        List.map_append, List.map_flatMap, List.flatMap_cons]
    rw [composed]
    refine List.flatMap_congr fun file member => ?_
    rw [constraintsAt, checked.gathered.content file member]
    rfl

theorem criterionIds_perm (checked : Checked parser sha256Hex files entryFile entry imports ir) :
    (ir.properties.flatMap fun property => property.acceptance.map AcceptanceCriterion.id).Perm
      ((entry :: imports).flatMap fun file => criterionIds file.spec) := by
  have views := properties_of_finalize checked.finalized
    (fun property => property.acceptance.map AcceptanceCriterion.id)
    (fun source => (source.acceptance.getD []).map AcceptanceCriterion.id) (fun kind source => by
      simp only [toProperty, List.map_map]
      exact List.map_congr_left fun criterion _ => criterionId_normalizeCriterion criterion)
  rw [List.flatMap_def, views, ← List.flatMap_def]
  exact perm_compose _ entry imports

/-- The criteria are used once exactly when no two files share one. -/
theorem criteria_iff (checked : Checked parser sha256Hex files entryFile entry imports ir) :
    (ir.properties.flatMap fun property => property.acceptance.map AcceptanceCriterion.id).Nodup ↔
      CriteriaApart parser files entryFile := by
  obtain ⟨walk, walked, order⟩ := checked.gathered.walked
  have distinct : ((entry :: imports).map LoadedFile.file).Nodup := by
    rw [order]
    exact nodup_once List.nodup_nil walk
  have reached : ∀ key, (∃ file ∈ entry :: imports, file.file = key) ↔
      Reaches (importEdges parser files entryFile) (normalize entryFile) key := by
    intro key
    rw [← List.mem_map, order, mem_once, walked.mem_iff]
    simp
  rw [checked.criterionIds_perm.nodup_iff, List.nodup_flatMap]
  constructor
  · rintro ⟨-, disjoint⟩ key other path otherPath different spec otherSpec content otherContent id
      member shared
    obtain ⟨file, here, rfl⟩ := (reached key).mpr path
    obtain ⟨twin, there, rfl⟩ := (reached other).mpr otherPath
    rw [checked.gathered.content file here, Option.some.injEq] at content
    rw [checked.gathered.content twin there, Option.some.injEq] at otherContent
    subst content otherContent
    have symmetric : Std.Symm (Function.onFun List.Disjoint fun file : LoadedFile =>
        criterionIds file.spec) := ⟨fun _ _ apart _ first second => apart second first⟩
    exact disjoint.forall here there (fun same => different (by rw [same])) member shared
  · intro apart
    refine ⟨fun file member => ?_, ?_⟩
    · have content := checked.gathered.content file member
      rw [specAt] at content
      obtain ⟨source, -, parsed⟩ := Option.bind_eq_some_iff.mp content
      obtain ⟨-, silent⟩ := Option.filter_eq_some_iff.mp parsed
      exact nodup_criterionIds (by simpa using silent)
    · refine (List.pairwise_map.mp distinct).imp_of_mem fun {file twin} here there different => ?_
      intro id member shared
      exact apart file.file twin.file ((reached _).mp ⟨file, here, rfl⟩)
        ((reached _).mp ⟨twin, there, rfl⟩) different _ _ (checked.gathered.content file here)
        (checked.gathered.content twin there) id member shared

end Checked

/-! ## The composition -/

theorem compileSpecGraph_fails {key : JsString}
    (path : Reaches (importEdges parser files entryFile) (normalize entryFile) key)
    (broken : specAt parser files entryFile key = none ∨
      OnCycle (importEdges parser files entryFile) key) :
    ∃ diagnostics, compileSpecGraph parser sha256Hex files entryFile =
      some (.ok (.failed diagnostics)) := by
  rcases compileSpecGraph_ends parser sha256Hex files entryFile with failed |
    ⟨entry, imports, diagnostics, gathered, -⟩
  · exact failed
  · rcases broken with missing | cycle
    · exact absurd missing (gathered.readable key path)
    · exact absurd cycle (gathered.acyclic key path)

/-- The composition is as it should be exactly when a specification that compiles has no
criterion identifier in two of its files. -/
theorem graphComposes_iff (parser : Parser) (sha256Hex : JsString → JsString) (files : FileSet)
    (entryFile : JsString) :
    GraphComposes parser sha256Hex files entryFile ↔
      ((∃ ir, Compiles parser sha256Hex files entryFile ir) → CriteriaApart parser files entryFile) := by
  constructor
  · rintro composes ⟨ir, compiles⟩
    obtain ⟨entry, imports, checked⟩ := checked_of_compiles compiles
    exact checked.criteria_iff.mp (composes.composed ir compiles).criterionIds
  · intro apart
    refine ⟨?_, fun ir compiles => ?_, fun key path => compileSpecGraph_fails path⟩
    · rcases compileSpecGraph_ends parser sha256Hex files entryFile with ⟨diagnostics, failed⟩ |
        ⟨entry, imports, diagnostics, -, composed⟩
      · exact ⟨_, failed⟩
      · exact ⟨_, composed⟩
    · obtain ⟨entry, imports, checked⟩ := checked_of_compiles compiles
      have ids : ir.properties.map DesiredProperty.id =
          (propertySources (compose entry imports)).map fun source => source.id :=
        properties_of_finalize checked.finalized _ _ fun _ _ => rfl
      exact
        { ordered := checked.ordered
          listed := (finalizeSpec_ok checked.finalized).2.2.1
          propertyIds := by rw [ids]; exact checked.nodup_ids
          criterionIds := checked.criteria_iff.mpr (apart ⟨ir, compiles⟩)
          resolved := checked.dependencies.1
          acyclic := checked.dependencies.2 }

/-! ## Two files with one criterion identifier -/

/-- A specification with one requirement, which one criterion verifies. -/
def oneRequirement (id criterionId : JsString) (imports : Option (List JsString)) : Spec where
  metadata := ⟨js "login", js "Login", none⟩
  goal := js "Log in."
  imports := imports
  environment := none
  requirements :=
    [{ id := id
       statement := js "It works."
       category := none
       dependsOn := none
       acceptance := some [.command criterionId (js "npm test") none none none]
       metadata := none
       priority := .must
       scope := none }]
  constraints := none
  outOfScope := none

theorem twinComplaints_refuse (source _ : JsString) (_ : (if source = js "a" then
      some (oneRequirement (js "REQ-1") (js "AC-1") (some [js "b.yaml"]))
    else if source = js "b" then some (oneRequirement (js "REQ-2") (js "AC-1") none) else none) = none) :
    hasErrors [error (js "SPC0002") (js "unknown") none] = true := rfl

/-- The sources `a` and `b` are specifications, and `a` imports the file of `b`. -/
def twinParser : Parser where
  document source :=
    if source = js "a" then
      some (oneRequirement (js "REQ-1") (js "AC-1") (some [js "b.yaml"]))
    else if source = js "b" then
      some (oneRequirement (js "REQ-2") (js "AC-1") none)
    else
      none
  complaints _ _ := [error (js "SPC0002") (js "unknown") none]
  refuses := twinComplaints_refuse

def twinRead (file : JsString) : Option JsString :=
  if file = js "a.yaml" then some (js "a") else if file = js "b.yaml" then some (js "b") else none

theorem twinRead_listed (file : JsString) (readable : (twinRead file).isSome = true) :
    normalize file ∈ [js "a.yaml", js "b.yaml"] := by
  unfold twinRead at readable
  split_ifs at readable with first second
  · subst first
    decide +kernel
  · subst second
    decide +kernel
  · cases readable

def twinFiles : FileSet where
  read := twinRead
  keys := [js "a.yaml", js "b.yaml"]
  listed := twinRead_listed

/-- The identifiers of the criteria of what was compiled, when it was. -/
def compiledCriteria (outcome : Option (Except CanonicalError SpecCompileResult)) :
    Option (Bool × Option (List JsString)) :=
  outcome.bind fun result => result.toOption.map fun result =>
    (result.ok, result.ir.map fun ir => ir.properties.flatMap fun property =>
      property.acceptance.map AcceptanceCriterion.id)

theorem twinCriteria :
    compiledCriteria (compileSpecGraph twinParser id twinFiles (js "a.yaml")) =
      some (true, some [js "AC-1", js "AC-1"]) := by
  decide +kernel

/-- Two files that use one criterion identifier are composed. -/
theorem not_graphComposes : ¬ GraphComposes twinParser id twinFiles (js "a.yaml") := by
  intro composes
  have criteria := twinCriteria
  obtain ⟨outcome, compiled⟩ := composes.ends
  rw [compiled, compiledCriteria, Option.bind_some] at criteria
  cases outcome with
  | error error => cases criteria
  | ok result =>
      obtain ⟨ok, ir, diagnostics⟩ := result
      cases ir with
      | none => cases criteria
      | some ir =>
          simp only [Except.toOption, Option.map_some, Option.some.injEq, Prod.mk.injEq] at criteria
          obtain ⟨rfl, ids⟩ := criteria
          have distinct := (composes.composed ir ⟨diagnostics, compiled⟩).criterionIds
          rw [ids] at distinct
          exact absurd distinct (by decide)

end SpecAsCode.Compiler
