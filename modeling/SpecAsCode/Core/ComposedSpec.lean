import SpecAsCode.Core.GraphLoading
import Mathlib.Data.List.Perm.Basic

/-!
# Composed specifications

What a composition that succeeds consists of: the properties of the files in depth-first
preorder, with identifiers of properties that are used once and dependencies that resolve and
have no cycle.  The identifiers of criteria are only compared within one file.
-/

namespace SpecAsCode.Compiler

open SpecAsCode.Js
open SpecAsCode.Core
open SpecAsCode.Lib
open SpecAsCode.Js.Path (dirname join normalize normalize_join normalize_normalize normalize_ne_nil)

variable {parser : Parser} {files : FileSet} {entryFile : JsString}

/-! ## The order of the files -/

theorem rel_foldlM {α σ τ : Type} {Agree : σ → τ → Prop} {step : σ → α → Option σ}
    {other : τ → α → Option τ} {items : List α}
    (steps : ∀ item ∈ items, ∀ state twin, Agree state twin →
      Option.Rel Agree (step state item) (other twin item)) {state : σ} {twin : τ}
    (agree : Agree state twin) : Option.Rel Agree (items.foldlM step state) (items.foldlM other twin) := by
  induction items generalizing state twin with
  | nil => exact .some agree
  | cons item items inductionHypothesis =>
      rw [List.foldlM_cons, List.foldlM_cons]
      have stepped := steps item List.mem_cons_self state twin agree
      generalize step state item = first, other twin item = second at stepped ⊢
      cases stepped with
      | none => exact .none
      | some next =>
          exact inductionHypothesis (fun other later => steps other (List.mem_cons_of_mem _ later)) next

/-- The file is loaded under its own name. -/
def Held (loaded : OrderedMap JsString LoadedFile) (file : LoadedFile) : Prop :=
  loaded.get? file.file = some file

/-- A loading that has ended: what is loaded is what the files say, and all of it is resolved. -/
structure Settled (parser : Parser) (files : FileSet) (entryFile : JsString)
    (loaded : OrderedMap JsString LoadedFile) (done : List JsString) : Prop where
  found : ∀ key file, loaded.get? key = some file →
    file.file = key ∧ specAt parser files entryFile key = some file.spec
  keys : ∀ key, key ∈ done ↔ ∃ file, loaded.get? key = some file
  layered : Layered (importEdges parser files entryFile) done

/-- The files are flattened as their keys are visited. -/
theorem flatten_visits {loaded : OrderedMap JsString LoadedFile} {done : List JsString}
    (settled : Settled parser files entryFile loaded done) {fuel : Nat} :
    ∀ {file : LoadedFile} {order : List LoadedFile}, Held loaded file →
      (∀ other ∈ order, Held loaded other) →
      Option.Rel (fun result keys => result.map LoadedFile.file = keys ∧
          ∀ other ∈ result, Held loaded other)
        (flatten loaded fuel file order)
        (visitOnce (importEdges parser files entryFile) fuel file.file
          (order.map LoadedFile.file)) := by
  induction fuel with
  | zero =>
      intro file order held all
      unfold flatten visitOnce
      split_ifs with known
      · exact .some ⟨rfl, all⟩
      · exact .none
  | succ fuel inductionHypothesis =>
      intro file order held all
      unfold flatten visitOnce
      split_ifs with known
      · exact .some ⟨rfl, all⟩
      · rw [importEdges_of_specAt (settled.found _ _ held).2]
        refine rel_foldlM ?_ ⟨by simp, ?_⟩
        · rintro path member state twin ⟨rfl, inside⟩
          have here : file.file ∈ done := (settled.keys _).mpr ⟨file, held⟩
          have edge : path ∈ importEdges parser files entryFile file.file := by
            rwa [importEdges_of_specAt (settled.found _ _ held).2]
          obtain ⟨child, found⟩ := (settled.keys path).mp
            (settled.layered.closed here (.single edge))
          have name := (settled.found _ _ found).1
          rw [normalize_of_mem_importPaths member, found]
          have visited := @inductionHypothesis child state (by rw [Held, name]; exact found) inside
          rwa [name] at visited
        · intro other member
          rcases List.mem_append.mp member with old | new
          · exact all other old
          · rw [List.mem_singleton.mp new]
            exact held

/-- The files that make up a composition. -/
structure Gathered (parser : Parser) (files : FileSet) (entryFile : JsString)
    (order : List LoadedFile) : Prop where
  walked : ∃ walk, Walk (importEdges parser files entryFile) [normalize entryFile] walk ∧
    order.map LoadedFile.file = once [] walk
  content : ∀ file ∈ order, specAt parser files entryFile file.file = some file.spec
  acyclic : ∀ key, Reaches (importEdges parser files entryFile) (normalize entryFile) key →
    ¬ OnCycle (importEdges parser files entryFile) key
  readable : ∀ key, Reaches (importEdges parser files entryFile) (normalize entryFile) key →
    specAt parser files entryFile key ≠ none

/-- Flattening ends, with each file once. -/
theorem flatten_gathers {loaded : OrderedMap JsString LoadedFile} {done : List JsString}
    (settled : Settled parser files entryFile loaded done) {entry : LoadedFile}
    (held : Held loaded entry) (name : entry.file = normalize entryFile) :
    ∃ imports, flatten loaded (loaded.entries.length + 1) entry [] = some (entry :: imports) ∧
      Gathered parser files entryFile (entry :: imports) := by
  have known : normalize entryFile ∈ done := (settled.keys _).mpr ⟨entry, by rw [← name]; exact held⟩
  have inside : ∀ key, key ∈ loaded.entries.map Prod.fst ↔ key ∈ done := by
    intro key
    rw [settled.keys, ← not_iff_not, ← OrderedMap.get?_eq_none]
    cases loaded.get? key <;> simp
  obtain ⟨keys, visited, -⟩ := @visitOnce_ends JsString (importEdges parser files entryFile) _
    (loaded.entries.map Prod.fst)
    (fun key member next edge => (inside next).mpr
      (settled.layered.closed ((inside key).mp member) (.single edge)))
    (loaded.entries.length + 1) entry.file [] ((inside _).mpr (name ▸ known))
    (Nat.le_succ_of_le (by
      rw [← List.length_map (f := Prod.fst)]
      exact List.countP_le_length))
  have flattened := @flatten_visits _ _ _ _ _ settled (loaded.entries.length + 1) entry [] held (by simp)
  rw [List.map_nil, visited] at flattened
  cases result : flatten loaded (loaded.entries.length + 1) entry [] with
  | none => rw [result] at flattened; cases flattened
  | some order =>
      rw [result, Option.rel_some_some] at flattened
      obtain ⟨names, all⟩ := flattened
      obtain ⟨walk, walked⟩ := settled.layered.exists_walk _ known
      have acyclic : ∀ key, Reaches (importEdges parser files entryFile) (normalize entryFile) key →
          ¬ OnCycle (importEdges parser files entryFile) key := fun key path =>
        settled.layered.not_onCycle (settled.layered.closed known path)
      rw [name] at visited
      have ordered : order.map LoadedFile.file = once [] walk := by
        rw [names]
        exact visitOnce_eq_once_of_walk walked visited acyclic
      -- the walk starts at the entry, and nothing else is loaded under its name
      obtain ⟨imports, rfl⟩ : ∃ imports, order = entry :: imports := by
        cases walked with
        | @cons _ _ below rest children siblings =>
            rw [List.cons_append, once, if_neg List.not_mem_nil, List.nil_append] at ordered
            obtain ⟨later, extended⟩ := prefix_once [normalize entryFile] (below ++ rest)
            cases order with
            | nil => rw [← extended] at ordered; cases ordered
            | cons first imports =>
                rw [← extended] at ordered
                have same : first.file = normalize entryFile := (List.cons.inj ordered).1
                have found := all first List.mem_cons_self
                rw [Held, same, ← name, held, Option.some.injEq] at found
                exact ⟨imports, by rw [found]⟩
      refine ⟨imports, rfl, ⟨walk, walked, ordered⟩, ?_, acyclic, ?_⟩
      · exact fun file member => (settled.found _ _ (all file member)).2
      · intro key path
        obtain ⟨file, found⟩ := (settled.keys key).mp (settled.layered.closed known path)
        rw [(settled.found _ _ found).2]
        simp

/-! ## Compiling -/

/-- The compilation ends with a specification. -/
def Compiles (parser : Parser) (sha256Hex : JsString → JsString) (files : FileSet)
    (entryFile : JsString) (ir : SpecIR) : Prop :=
  ∃ diagnostics, compileSpecGraph parser sha256Hex files entryFile =
    some (.ok (.succeeded diagnostics ir))

theorem sound_start : Sound parser files entryFile ⟨[], OrderedMap.empty, []⟩ [] where
  silent := rfl
  keys key := by simp [Loading.keys, OrderedMap.empty]
  found key file held := by cases held
  layered := .nil

/-- What is loaded without an error is gathered and composed. -/
theorem compileSpecGraph_of_loaded {entry : LoadedFile} {state : Loading}
    (loaded : loadFile parser files (files.keys.length + 1) entryFile ⟨[], OrderedMap.empty, []⟩ =
      some (some entry, state)) (silent : hasErrors state.diagnostics = false)
    (sha256Hex : JsString → JsString) :
    ∃ imports, Gathered parser files entryFile (entry :: imports) ∧
      compileSpecGraph parser sha256Hex files entryFile =
        some (composeLoaded sha256Hex entry (entry :: imports) state.diagnostics) := by
  obtain ⟨done, resolved, known, held, same, name, content⟩ :=
    loadFile_resolved sound_start (Or.inl rfl) loaded silent
  cases same
  have settled : Settled parser files entryFile state.loaded done := by
    refine ⟨resolved.sound.found, fun key => ?_, resolved.sound.layered⟩
    rw [← mem_keys_iff, resolved.sound.keys, resolved.visiting]
    simp
  have held : Held state.loaded entry := by
    obtain ⟨file, found⟩ := (settled.keys _).mp known
    obtain ⟨fileName, fileContent⟩ := settled.found _ _ found
    have same : file = entry := by
      obtain ⟨path, spec⟩ := file
      obtain ⟨entryPath, entrySpec⟩ := entry
      rw [content, Option.some.injEq] at fileContent
      simp only at fileName fileContent name
      rw [fileName, name, fileContent]
    rw [Held, name, found, same]
  obtain ⟨imports, flattened, gathered⟩ := flatten_gathers settled held name
  refine ⟨imports, gathered, ?_⟩
  rw [compileSpecGraph, loaded, Option.bind_some]
  simp only [silent, if_false, Bool.false_eq_true, flattened, Option.map_some]

/-- `compileSpecGraph` ends: it fails, or it composes the files it has gathered. -/
theorem compileSpecGraph_ends (parser : Parser) (sha256Hex : JsString → JsString) (files : FileSet)
    (entryFile : JsString) :
    (∃ diagnostics, compileSpecGraph parser sha256Hex files entryFile =
      some (.ok (.failed diagnostics))) ∨
    ∃ entry imports diagnostics, Gathered parser files entryFile (entry :: imports) ∧
      compileSpecGraph parser sha256Hex files entryFile =
        some (composeLoaded sha256Hex entry (entry :: imports) diagnostics) := by
  obtain ⟨⟨result, state⟩, loaded, -⟩ := @loadFile_ends parser files (files.keys.length + 1) entryFile
    ⟨[], OrderedMap.empty, []⟩ (Nat.le_succ_of_le List.countP_le_length)
  cases result with
  | none => exact Or.inl ⟨state.diagnostics, by rw [compileSpecGraph, loaded]; rfl⟩
  | some entry =>
      cases silent : hasErrors state.diagnostics with
      | true =>
          refine Or.inl ⟨state.diagnostics, ?_⟩
          rw [compileSpecGraph, loaded, Option.bind_some]
          simp only [silent, if_true]
      | false =>
          obtain ⟨imports, gathered, composed⟩ := compileSpecGraph_of_loaded loaded silent sha256Hex
          exact Or.inr ⟨entry, imports, state.diagnostics, gathered, composed⟩

theorem LoadedFile.eq_of_parts {first second : LoadedFile} (file : first.file = second.file)
    (spec : first.spec = second.spec) : first = second := by
  cases first
  cases second
  cases file
  cases spec
  rfl

/-- Files are gathered in one order only. -/
theorem Gathered.unique {first second : List LoadedFile}
    (gathered : Gathered parser files entryFile first)
    (other : Gathered parser files entryFile second) : first = second := by
  obtain ⟨walk, walked, order⟩ := gathered.walked
  obtain ⟨otherWalk, otherWalked, otherOrder⟩ := other.walked
  have keys : first.map LoadedFile.file = second.map LoadedFile.file := by
    rw [order, otherOrder, walked.unique otherWalked]
  refine List.ext_getElem (by simpa using congrArg List.length keys) fun index here there => ?_
  have name : first[index].file = second[index].file := by
    have same := congrArg (fun names => names[index]?) keys
    simpa [here, there] using same
  have content := gathered.content _ (List.getElem_mem here)
  rw [name, other.content _ (List.getElem_mem there), Option.some.injEq] at content
  exact LoadedFile.eq_of_parts name content.symm

/-- Files that can be gathered are composed. -/
theorem compileSpecGraph_of_gathered {entry : LoadedFile} {imports : List LoadedFile}
    (gathered : Gathered parser files entryFile (entry :: imports))
    (sha256Hex : JsString → JsString) :
    ∃ diagnostics, hasErrors diagnostics = false ∧
      compileSpecGraph parser sha256Hex files entryFile =
        some (composeLoaded sha256Hex entry (entry :: imports) diagnostics) := by
  obtain ⟨⟨result, state⟩, loaded, -⟩ := @loadFile_ends parser files (files.keys.length + 1) entryFile
    ⟨[], OrderedMap.empty, []⟩ (Nat.le_succ_of_le List.countP_le_length)
  have silent := loadFile_silent sound_start (Or.inl rfl) (fun _ visited => by cases visited)
    (fun key path => ⟨gathered.readable key path, gathered.acyclic key path⟩) loaded
  obtain ⟨-, -, -, found, rfl, -⟩ := loadFile_resolved sound_start (Or.inl rfl) loaded silent
  obtain ⟨others, regathered, composed⟩ := compileSpecGraph_of_loaded loaded silent sha256Hex
  cases gathered.unique regathered
  exact ⟨state.diagnostics, silent, composed⟩

/-! ## Identifiers -/

theorem nodup_of_collisions {entries : List (JsString × JsString)}
    {owner : OrderedMap JsString JsString} (owners : ∀ id file, owner.get? id = some file → file ≠ [])
    (named : ∀ entry ∈ entries, entry.2 ≠ [])
    (silent : hasErrors (collisions owner entries) = false) :
    (entries.map Prod.fst).Nodup ∧ ∀ entry ∈ entries, owner.get? entry.1 = none := by
  induction entries generalizing owner with
  | nil => simp
  | cons entry entries inductionHypothesis =>
      obtain ⟨id, file⟩ := entry
      rw [collisions] at silent
      cases known : owner.get? id with
      | some prior =>
          have filled := owners id prior known
          simp [known, Option.filter, filled, hasErrors_cons_error] at silent
      | none =>
          simp only [known, Option.filter_none] at silent
          obtain ⟨distinct, fresh⟩ := @inductionHypothesis (owner.set id file) (by
            intro other held found
            by_cases same : other = id
            · subst same
              rw [OrderedMap.get?_set_self, Option.some.injEq] at found
              exact found ▸ named (other, file) List.mem_cons_self
            · rw [OrderedMap.get?_set_ne _ same] at found
              exact owners other held found)
            (fun entry later => named entry (List.mem_cons_of_mem _ later)) silent
          refine ⟨List.nodup_cons.mpr ⟨fun found => ?_, distinct⟩, fun entry member => ?_⟩
          · obtain ⟨entry, member, same⟩ := List.mem_map.mp found
            have taken := fresh entry member
            rw [same, OrderedMap.get?_set_self] at taken
            cases taken
          · rcases List.mem_cons.mp member with rfl | later
            · exact known
            · have taken := fresh entry later
              by_cases same : entry.1 = id
              · rw [same, OrderedMap.get?_set_self] at taken
                cases taken
              · rwa [OrderedMap.get?_set_ne _ same] at taken

/-- What the properties of a composition give is what those of its files give, up to order. -/
theorem perm_compose {β : Type} (view : PropertySource → List β) (entry : LoadedFile)
    (imports : List LoadedFile) :
    ((propertySources (compose entry imports)).flatMap view).Perm
      ((entry :: imports).flatMap fun file => (propertySources file.spec).flatMap view) := by
  have requirements : (compose entry imports).requirements =
      (entry :: imports).flatMap fun file => file.spec.requirements := rfl
  have constraints : (compose entry imports).constraints.getD [] =
      (entry :: imports).flatMap fun file => file.spec.constraints.getD [] := rfl
  simp only [propertySources, Spec.source, getD_map_source, requirements, constraints,
    List.flatMap_append, List.flatMap_map, List.flatMap_assoc]
  exact List.flatMap_append_perm _ _ _

theorem map_id_propertySources (spec : Spec) :
    (propertySources spec).map (fun source => source.id) =
      spec.requirements.map (fun requirement => requirement.id) ++
        (spec.constraints.getD []).map fun constraint => constraint.id := by
  rw [propertySources, Spec.source, getD_map_source, List.map_append, List.map_map, List.map_map]
  rfl

theorem map_fst_definitions (order : List LoadedFile) :
    (definitions order).map Prod.fst =
      order.flatMap fun file => (propertySources file.spec).flatMap fun source => [source.id] := by
  rw [definitions, List.map_flatMap]
  refine List.flatMap_congr fun file _ => ?_
  rw [← map_id_propertySources, ← List.map_eq_flatMap, List.map_map]
  exact List.map_id'' (fun _ => rfl) _

/-- A composition without collisions defines each property once. -/
theorem nodup_ids {order : List LoadedFile} {entry : LoadedFile} {imports : List LoadedFile}
    (shape : order = entry :: imports) (named : ∀ file ∈ order, file.file ≠ [])
    (silent : hasErrors (collisions OrderedMap.empty (definitions order)) = false) :
    ((propertySources (compose entry imports)).map fun source => source.id).Nodup := by
  subst shape
  have distinct := (nodup_of_collisions (fun _ _ found => by cases found) (fun item member => by
    obtain ⟨file, here, inside⟩ := List.mem_flatMap.mp member
    obtain ⟨id, -, rfl⟩ := List.mem_map.mp inside
    exact named file here) silent).1
  rw [map_fst_definitions] at distinct
  rw [List.map_eq_flatMap]
  exact (perm_compose (fun source => [source.id]) entry imports).nodup_iff.mpr distinct

/-! ## The compiled specification -/

/-- A property of the list depends on another identifier. -/
def DependsOn (properties : List DesiredProperty) (id dependency : JsString) : Prop :=
  ∃ property ∈ properties, property.id = id ∧ dependency ∈ property.dependsOn

theorem criterionId_normalizeCriterion (criterion : AcceptanceCriterion) :
    (normalizeCriterion criterion).id = criterion.id := by
  cases criterion <;> rfl

/-- What the properties of a compiled specification are made from. -/
theorem map_properties {β : Type} {view : DesiredProperty → β} {read : PropertySource → β}
    (same : ∀ kind source, view (toProperty kind source) = read source) (spec : Spec) :
    ((normalizeSpec spec.source).requirements ++ (normalizeSpec spec.source).constraints).map view =
      (propertySources spec).map read := by
  rw [propertySources, normalizeSpec, List.map_append, List.map_append, List.map_map, List.map_map]
  exact congrArg₂ (· ++ ·) (List.map_congr_left fun source _ => same _ source)
    (List.map_congr_left fun source _ => same _ source)

theorem properties_of_finalize {sha256Hex : JsString → JsString} {spec : Spec}
    {importedFiles : Option (List JsString)} {ir : SpecIR}
    (finalized : finalizeSpec sha256Hex spec importedFiles = .ok ir) {β : Type}
    (view : DesiredProperty → β) (read : PropertySource → β)
    (same : ∀ kind source, view (toProperty kind source) = read source) :
    ir.properties.map view = (propertySources spec).map read := by
  obtain ⟨-, normal, properties, -⟩ := finalizeSpec_ok finalized
  rw [properties, normal]
  exact map_properties same spec

/-- The references of the slots are the dependencies of the compiled properties. -/
theorem referenceEdges_of_dependsOn {sha256Hex : JsString → JsString} {spec : Spec}
    {importedFiles : Option (List JsString)} {ir : SpecIR}
    (finalized : finalizeSpec sha256Hex spec importedFiles = .ok ir)
    (distinct : ((propertySources spec).map fun source => source.id).Nodup) {id dependency : JsString}
    (depends : DependsOn ir.properties id dependency) :
    id ∈ (slots spec).map PropertySlot.id ∧ dependency ∈ referenceEdges (slots spec) id := by
  obtain ⟨property, member, rfl, named⟩ := depends
  have both : (property.id, property.dependsOn) ∈
      (slots spec).map fun slot => (slot.id, sortUnique slot.dependsOn) := by
    have views := properties_of_finalize finalized
      (fun property => (property.id, property.dependsOn))
      (fun source => (source.id, sortUnique (source.dependsOn.getD []))) (fun _ _ => rfl)
    have sources := map_slots (fun slot => (slot.id, sortUnique slot.dependsOn))
      (fun source => (source.id, sortUnique (source.dependsOn.getD []))) (fun _ _ _ => rfl) spec
    rw [sources, ← views]
    exact List.mem_map.mpr ⟨property, member, rfl⟩
  obtain ⟨slot, inside, same⟩ := List.mem_map.mp both
  rw [Prod.mk.injEq] at same
  have ids : ((slots spec).map PropertySlot.id).Nodup := by
    rw [map_slots PropertySlot.id (fun source => source.id) (fun _ _ _ => rfl) spec]
    exact distinct
  refine ⟨List.mem_map.mpr ⟨slot, inside, same.1⟩, ?_⟩
  have found : (slots spec).find? (fun other => other.id = property.id) = some slot := by
    cases search : (slots spec).find? fun other => other.id = property.id with
    | none =>
        have absent := List.find?_eq_none.mp search slot inside
        simp [same.1] at absent
    | some other =>
        have otherId : other.id = property.id := by simpa using List.find?_some search
        rw [List.inj_on_of_nodup_map ids (List.mem_of_find?_eq_some search) inside
          (otherId.trans same.1.symm)]
  rw [referenceEdges, found, Option.map_some, Option.getD_some]
  rw [← same.2] at named
  exact mem_sortUnique.mp named

end SpecAsCode.Compiler
