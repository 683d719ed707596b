import SpecAsCode.Core.SpecGraph

/-!
# Loading imports

Loading ends for every set of files.  When it reports no error, it has loaded the files that
can be reached from the entry, each with what it says, and no file imports itself through others.
-/

namespace SpecAsCode.Compiler

open SpecAsCode.Js
open SpecAsCode.Core
open SpecAsCode.Lib
open SpecAsCode.Js.Path (dirname join normalize normalize_join normalize_normalize)

/-! ## The import graph -/

/-- The specification of a source without errors of its own. -/
def specOf (parser : Parser) (source : JsString) : Option Spec :=
  (parser.document source).filter fun spec => !hasErrors (validateSpecLocal spec)

/-- The source under a key.  The entry is read by the path it was given by. -/
def sourceAt (files : FileSet) (entryFile key : JsString) : Option JsString :=
  if key = normalize entryFile then files.read entryFile else files.read key

/-- The specification under a key. -/
def specAt (parser : Parser) (files : FileSet) (entryFile key : JsString) : Option Spec :=
  (sourceAt files entryFile key).bind (specOf parser)

/-- The keys of the files that a file imports. -/
def importEdges (parser : Parser) (files : FileSet) (entryFile key : JsString) : List JsString :=
  ((specAt parser files entryFile key).map (importPaths key)).getD []

theorem importEdges_of_specAt {parser : Parser} {files : FileSet} {entryFile key : JsString}
    {spec : Spec} (found : specAt parser files entryFile key = some spec) :
    importEdges parser files entryFile key = importPaths key spec := by
  rw [importEdges, found]
  rfl

theorem normalize_of_mem_importPaths {key imported : JsString} {spec : Spec}
    (member : imported ∈ importPaths key spec) : normalize imported = imported := by
  obtain ⟨path, -, rfl⟩ := List.mem_map.mp member
  exact normalize_join _ _

theorem parseSpecSource_spec (parser : Parser) (source file : JsString) :
    (parseSpecSource parser source file).spec = specOf parser source := by
  rw [parseSpecSource, specOf]
  cases parser.document source with
  | none => rfl
  | some spec =>
      cases broken : hasErrors (validateSpecLocal spec) with
      | true => simp [broken, Option.filter]
      | false => simp [broken, Option.filter]

/-- A source without a specification is complained about. -/
theorem hasErrors_of_parse_none {parser : Parser} {source file : JsString}
    (none : (parseSpecSource parser source file).spec = none) :
    hasErrors (parseSpecSource parser source file).diagnostics = true := by
  rw [parseSpecSource] at none ⊢
  cases document : parser.document source with
  | none =>
      simp only
      exact parser.refuses source file document
  | some spec =>
      rw [document] at none
      simp only at none ⊢
      split_ifs at none ⊢ with broken
      exact broken

theorem parse_some {parser : Parser} {source file : JsString} {spec : Spec}
    (parsed : (parseSpecSource parser source file).spec = some spec) :
    parser.document source = some spec ∧ hasErrors (validateSpecLocal spec) = false ∧
      (parseSpecSource parser source file).diagnostics = validateSpecLocal spec := by
  rw [parseSpecSource] at parsed ⊢
  cases document : parser.document source with
  | none => rw [document] at parsed; cases parsed
  | some found =>
      rw [document] at parsed
      simp only at parsed ⊢
      split_ifs at parsed ⊢ with broken
      · cases parsed
        exact ⟨rfl, by simpa using broken, rfl⟩

/-! ## Loading ends -/

/-- The keys that are loaded. -/
def Loading.keys (state : Loading) : List JsString :=
  state.loaded.entries.map Prod.fst

theorem mem_keys_iff {state : Loading} {key : JsString} :
    key ∈ state.keys ↔ ∃ file, state.loaded.get? key = some file := by
  rw [← not_iff_not, Loading.keys, ← OrderedMap.get?_eq_none]
  cases state.loaded.get? key <;> simp

@[simp]
theorem keys_report (state : Loading) (diagnostics : List Diagnostic) :
    (state.report diagnostics).keys = state.keys := rfl

@[simp]
theorem keys_leave (state : Loading) : state.leave.keys = state.keys := rfl

theorem mem_keys_enter {state : Loading} {file : LoadedFile} {key : JsString} :
    key ∈ (state.enter file).keys ↔ key = file.file ∨ key ∈ state.keys :=
  OrderedMap.mem_keys_set

variable {parser : Parser} {files : FileSet}

/-- What `loadFile` does before it looks at imports: it stays with a result, or it enters a
file. -/
inductive Arrival where
  | stays (result : Option LoadedFile) (state : Loading)
  | enters (file : LoadedFile) (state : Loading)

def arrive (parser : Parser) (files : FileSet) (file : JsString) (state : Loading) : Arrival :=
  if normalize file ∈ state.visiting then
    .stays none (state.report [importCycle state.visiting (normalize file)])
  else
    match state.loaded.get? (normalize file) with
    | some cached => .stays (some cached) state
    | none =>
        match files.read file with
        | none => .stays none (state.report [unreadable file])
        | some source =>
            match (parseSpecSource parser source file).spec with
            | none => .stays none (state.report (parseSpecSource parser source file).diagnostics)
            | some spec => .enters ⟨normalize file, spec⟩
                ((state.report (parseSpecSource parser source file).diagnostics).enter
                  ⟨normalize file, spec⟩)

/-- The imports of a file that was entered. -/
def loadImports (parser : Parser) (files : FileSet) (fuel : Nat) (paths : List JsString)
    (state : Loading) : Option Loading :=
  paths.foldlM (fun state imported => (loadFile parser files fuel imported state).map Prod.snd) state

theorem loadFile_of_stays {file : JsString} {state next : Loading} {result : Option LoadedFile}
    (stays : arrive parser files file state = .stays result next) (fuel : Nat) :
    loadFile parser files fuel file state = some (result, next) := by
  unfold loadFile
  unfold arrive at stays
  split_ifs at stays ⊢ with cycle
  · cases stays
    rfl
  · cases cached : state.loaded.get? (normalize file) with
    | some found => rw [cached] at stays; cases stays; rfl
    | none =>
        cases source : files.read file with
        | none => rw [cached, source] at stays; cases stays; rfl
        | some text =>
            cases parsed : (parseSpecSource parser text file).spec with
            | none => simp only [cached, source, parsed] at stays ⊢; cases stays; rfl
            | some spec => simp only [cached, source, parsed] at stays; cases stays

theorem loadFile_of_enters {file : JsString} {state next : Loading} {entered : LoadedFile}
    (enters : arrive parser files file state = .enters entered next) :
    loadFile parser files 0 file state = none ∧ ∀ fuel,
      loadFile parser files (fuel + 1) file state =
        (loadImports parser files fuel (importPaths entered.file entered.spec) next).map
          fun finished => (some entered, finished.leave) := by
  have both : ∀ fuel, loadFile parser files fuel file state =
      Nat.casesOn (motive := fun _ => Option (Option LoadedFile × Loading)) fuel none fun fuel =>
        (loadImports parser files fuel (importPaths entered.file entered.spec) next).map
          fun finished => (some entered, finished.leave) := by
    intro fuel
    unfold loadFile
    unfold arrive at enters
    split_ifs at enters ⊢ with cycle
    cases cached : state.loaded.get? (normalize file) with
    | some found => rw [cached] at enters; cases enters
    | none =>
        cases source : files.read file with
        | none => rw [cached, source] at enters; cases enters
        | some text =>
            cases parsed : (parseSpecSource parser text file).spec with
            | none => simp only [cached, source, parsed] at enters; cases enters
            | some spec =>
                simp only [cached, source, parsed] at enters ⊢
                cases enters
                cases fuel <;> rfl
  exact ⟨both 0, fun fuel => both (fuel + 1)⟩

/-- `loadFile` stays with a file that is loaded, or it reports an error. -/
theorem arrive_stays {file : JsString} {state next : Loading} {result : Option LoadedFile}
    (stays : arrive parser files file state = .stays result next) :
    (next = state ∧ normalize file ∉ state.visiting ∧
        ∃ cached, result = some cached ∧ state.loaded.get? (normalize file) = some cached) ∨
      ∃ diagnostics, hasErrors diagnostics = true ∧ next = state.report diagnostics := by
  unfold arrive at stays
  split_ifs at stays with cycle
  · cases stays
    exact Or.inr ⟨_, rfl, rfl⟩
  · cases cached : state.loaded.get? (normalize file) with
    | some found =>
        rw [cached] at stays
        cases stays
        exact Or.inl ⟨rfl, cycle, found, rfl, rfl⟩
    | none =>
        cases source : files.read file with
        | none =>
            rw [cached, source] at stays
            cases stays
            exact Or.inr ⟨_, rfl, rfl⟩
        | some text =>
            cases parsed : (parseSpecSource parser text file).spec with
            | none =>
                simp only [cached, source, parsed] at stays
                cases stays
                exact Or.inr ⟨_, hasErrors_of_parse_none parsed, rfl⟩
            | some spec => simp only [cached, source, parsed] at stays; cases stays

/-- `loadFile` enters a file that is read and parsed for the first time. -/
theorem arrive_enters {file : JsString} {state next : Loading} {entered : LoadedFile}
    (enters : arrive parser files file state = .enters entered next) :
    normalize file ∉ state.visiting ∧ state.loaded.get? (normalize file) = none ∧
      ∃ source, files.read file = some source ∧
        (parseSpecSource parser source file).spec = some entered.spec ∧
        entered.file = normalize file ∧
        next = (state.report (parseSpecSource parser source file).diagnostics).enter entered := by
  unfold arrive at enters
  split_ifs at enters with cycle
  cases cached : state.loaded.get? (normalize file) with
  | some found => rw [cached] at enters; cases enters
  | none =>
      cases source : files.read file with
      | none => rw [cached, source] at enters; cases enters
      | some text =>
          cases parsed : (parseSpecSource parser text file).spec with
          | none => simp only [cached, source, parsed] at enters; cases enters
          | some spec =>
              simp only [cached, source, parsed] at enters
              cases enters
              exact ⟨cycle, rfl, text, rfl, parsed, rfl, rfl⟩

theorem keys_of_stays {file : JsString} {state next : Loading} {result : Option LoadedFile}
    (stays : arrive parser files file state = .stays result next) : next.keys = state.keys := by
  rcases arrive_stays stays with ⟨rfl, -⟩ | ⟨diagnostics, -, rfl⟩
  · rfl
  · rfl

/-- A file that is entered was not loaded before, and is loaded now. -/
theorem keys_of_enters {file : JsString} {state next : Loading} {entered : LoadedFile}
    (enters : arrive parser files file state = .enters entered next) :
    normalize file ∈ files.keys ∧ normalize file ∉ state.keys ∧
      ∀ key, key ∈ next.keys ↔ key = normalize file ∨ key ∈ state.keys := by
  obtain ⟨-, fresh, source, read, -, name, rfl⟩ := arrive_enters enters
  refine ⟨files.listed file (by rw [read]; rfl), by rw [mem_keys_iff, fresh]; simp, fun key => ?_⟩
  rw [mem_keys_enter, name]
  rfl

theorem loadImports_cons (fuel : Nat) (path : JsString) (paths : List JsString) (state : Loading) :
    loadImports parser files fuel (path :: paths) state =
      (loadFile parser files fuel path state).bind fun result =>
        loadImports parser files fuel paths result.2 := by
  rw [loadImports, List.foldlM_cons]
  cases loadFile parser files fuel path state <;> rfl

/-- Loading ends: each file that is entered is one that was missing. -/
theorem loadFile_ends {fuel : Nat} : ∀ {file : JsString} {state : Loading},
    missing files.keys state.keys ≤ fuel →
    ∃ result, loadFile parser files fuel file state = some result ∧
      ∀ key ∈ state.keys, key ∈ result.2.keys := by
  induction fuel with
  | zero =>
      intro file state enough
      cases arrival : arrive parser files file state with
      | stays result next =>
          exact ⟨_, loadFile_of_stays arrival 0, fun key here => by rwa [keys_of_stays arrival]⟩
      | enters entered next =>
          obtain ⟨listed, absent, -⟩ := keys_of_enters arrival
          have less := missing_lt (fun key here => List.mem_append_left [normalize file] here)
            listed absent (List.mem_append_right state.keys List.mem_cons_self)
          omega
  | succ fuel inductionHypothesis =>
      intro file state enough
      cases arrival : arrive parser files file state with
      | stays result next =>
          exact ⟨_, loadFile_of_stays arrival _, fun key here => by rwa [keys_of_stays arrival]⟩
      | enters entered next =>
          obtain ⟨listed, absent, keys⟩ := keys_of_enters arrival
          have each : ∀ (paths : List JsString) (start : Loading),
              missing files.keys start.keys ≤ fuel →
              ∃ finish, loadImports parser files fuel paths start = some finish ∧
                ∀ key ∈ start.keys, key ∈ finish.keys := by
            intro paths
            induction paths with
            | nil => exact fun start _ => ⟨start, rfl, fun _ here => here⟩
            | cons path paths siblings =>
                intro start room
                obtain ⟨result, loaded, kept⟩ := @inductionHypothesis path start room
                obtain ⟨finish, rest, later⟩ := siblings result.2 (le_trans (missing_le kept) room)
                refine ⟨finish, ?_, fun key here => later key (kept key here)⟩
                rw [loadImports_cons, loaded]
                exact rest
          have grown : ∀ key ∈ state.keys, key ∈ next.keys := fun key here =>
            (keys key).mpr (Or.inr here)
          have less := missing_lt grown listed absent ((keys _).mpr (Or.inl rfl))
          obtain ⟨finish, ran, kept⟩ := each (importPaths entered.file entered.spec) next (by omega)
          refine ⟨(some entered, finish.leave), ?_, fun key here => kept key (grown key here)⟩
          rw [(loadFile_of_enters arrival).2, ran]
          rfl

/-! ## What is loaded without errors -/

/-- The state of a loading that has met no error: what is loaded is what the files say, and the
files that are not being resolved are in layers. -/
structure Sound (parser : Parser) (files : FileSet) (entryFile : JsString) (state : Loading)
    (done : List JsString) : Prop where
  silent : hasErrors state.diagnostics = false
  keys : ∀ key, key ∈ state.keys ↔ key ∈ done ∨ key ∈ state.visiting
  found : ∀ key file, state.loaded.get? key = some file →
    file.file = key ∧ specAt parser files entryFile key = some file.spec
  layered : Layered (importEdges parser files entryFile) done

/-- A path as `loadFile` gets it: of the entry, or of an import while the entry is resolved. -/
def Addressed (entryFile file : JsString) (state : Loading) : Prop :=
  file = entryFile ∨ (normalize file = file ∧ normalize entryFile ∈ state.visiting)

theorem silent_of_report {state : Loading} {diagnostics : List Diagnostic}
    (silent : hasErrors (state.report diagnostics).diagnostics = false) :
    hasErrors state.diagnostics = false ∧ hasErrors diagnostics = false := by
  rwa [Loading.report, hasErrors_append, Bool.or_eq_false_iff] at silent

variable {entryFile : JsString}

/-- Without an error, loading stays only with a file that is resolved. -/
theorem Sound.stays {state next : Loading} {done : List JsString} {file : JsString}
    {result : Option LoadedFile} (sound : Sound parser files entryFile state done)
    (stays : arrive parser files file state = .stays result next)
    (silent : hasErrors next.diagnostics = false) :
    next = state ∧ normalize file ∈ done ∧ ∃ cached, result = some cached ∧
      cached.file = normalize file ∧
      specAt parser files entryFile (normalize file) = some cached.spec := by
  rcases arrive_stays stays with ⟨same, settled, cached, found, held⟩ | ⟨diagnostics, broken, rfl⟩
  · have known := (sound.keys (normalize file)).mp (mem_keys_iff.mpr ⟨cached, held⟩)
    exact ⟨same, known.resolve_right settled, cached, found, sound.found _ _ held⟩
  · rw [(silent_of_report silent).2] at broken
    cases broken

/-- A path that is not being resolved leads to the source that belongs to its key. -/
theorem sourceAt_of_addressed {state : Loading} {file : JsString}
    (addressed : Addressed entryFile file state) (fresh : normalize file ∉ state.visiting) :
    sourceAt files entryFile (normalize file) = files.read file := by
  rw [sourceAt]
  rcases addressed with rfl | ⟨normal, visiting⟩
  · rw [if_pos rfl]
  · rw [if_neg, normal]
    exact fun same => fresh (same ▸ visiting)

/-- A file is entered with what it says. -/
theorem Sound.enters {state next : Loading} {done : List JsString} {file : JsString}
    {entered : LoadedFile} (sound : Sound parser files entryFile state done)
    (addressed : Addressed entryFile file state)
    (enters : arrive parser files file state = .enters entered next)
    (silent : hasErrors next.diagnostics = false) :
    Sound parser files entryFile next done ∧ entered.file = normalize file ∧
      next.visiting = state.visiting ++ [normalize file] ∧
      specAt parser files entryFile (normalize file) = some entered.spec := by
  have keys := (keys_of_enters enters).2.2
  obtain ⟨fresh, -, source, read, parsed, name, rfl⟩ := arrive_enters enters
  have content : specAt parser files entryFile (normalize file) = some entered.spec := by
    rw [specAt, sourceAt_of_addressed addressed fresh, read, Option.bind_some,
      ← parseSpecSource_spec parser source file, parsed]
  refine ⟨⟨silent, fun key => ?_, fun key loaded held => ?_, sound.layered⟩, name,
    by rw [← name]; rfl, content⟩
  · rw [keys, sound.keys]
    simp only [Loading.enter, Loading.report, List.mem_append, List.mem_singleton, name]
    constructor
    · rintro (same | here | visiting)
      · exact Or.inr (Or.inr same)
      · exact Or.inl here
      · exact Or.inr (Or.inl visiting)
    · rintro (here | visiting | same)
      · exact Or.inr (Or.inl here)
      · exact Or.inr (Or.inr visiting)
      · exact Or.inl same
  · by_cases same : key = entered.file
    · subst same
      simp only [Loading.enter, Loading.report, OrderedMap.get?_set_self,
        Option.some.injEq] at held
      subst held
      exact ⟨rfl, name ▸ content⟩
    · simp only [Loading.enter, Loading.report, OrderedMap.get?_set_ne _ same] at held
      exact sound.found key loaded held

theorem imports_grow {fuel : Nat}
    (one : ∀ {file : JsString} {state : Loading} {result : Option LoadedFile × Loading},
      loadFile parser files fuel file state = some result →
      hasErrors result.2.diagnostics = false → hasErrors state.diagnostics = false)
    {paths : List JsString} {start finish : Loading}
    (ran : loadImports parser files fuel paths start = some finish)
    (silent : hasErrors finish.diagnostics = false) : hasErrors start.diagnostics = false := by
  induction paths generalizing start with
  | nil =>
      cases ran
      exact silent
  | cons path paths inductionHypothesis =>
      rw [loadImports_cons] at ran
      obtain ⟨middle, first, rest⟩ := Option.bind_eq_some_iff.mp ran
      exact one first (inductionHypothesis rest)

/-- Errors that were reported stay reported. -/
theorem diagnostics_grow {fuel : Nat} : ∀ {file : JsString} {state : Loading}
    {result : Option LoadedFile × Loading}, loadFile parser files fuel file state = some result →
    hasErrors result.2.diagnostics = false → hasErrors state.diagnostics = false := by
  have staying : ∀ {file state result next}, arrive parser files file state =
      .stays result next → hasErrors next.diagnostics = false →
      hasErrors state.diagnostics = false := by
    intro file state result next stays silent
    rcases arrive_stays stays with ⟨rfl, -⟩ | ⟨diagnostics, -, rfl⟩
    · exact silent
    · exact (silent_of_report silent).1
  induction fuel with
  | zero =>
      intro file state result ran silent
      cases arrival : arrive parser files file state with
      | stays found next =>
          rw [loadFile_of_stays arrival] at ran
          cases ran
          exact staying arrival silent
      | enters entered next =>
          rw [(loadFile_of_enters arrival).1] at ran
          cases ran
  | succ fuel inductionHypothesis =>
      intro file state result ran silent
      cases arrival : arrive parser files file state with
      | stays found next =>
          rw [loadFile_of_stays arrival] at ran
          cases ran
          exact staying arrival silent
      | enters entered next =>
          rw [(loadFile_of_enters arrival).2] at ran
          obtain ⟨finish, loaded, rfl⟩ := Option.map_eq_some_iff.mp ran
          have quiet := imports_grow inductionHypothesis loaded silent
          obtain ⟨-, -, source, -, -, -, rfl⟩ := arrive_enters arrival
          have reported : hasErrors (state.report
              (parseSpecSource parser source file).diagnostics).diagnostics = false := quiet
          exact (silent_of_report reported).1

/-- What a loading without errors does: more files are resolved, and those that were being
resolved still are. -/
structure Resolved (parser : Parser) (files : FileSet) (entryFile : JsString)
    (before after : Loading) (done more : List JsString) : Prop where
  sound : Sound parser files entryFile after more
  visiting : after.visiting = before.visiting
  kept : ∀ key ∈ done, key ∈ more

/-- The imports of a file are resolved one after another. -/
theorem loadImports_resolved {fuel : Nat}
    (one : ∀ {file : JsString} {state next : Loading} {result : Option LoadedFile}
      {done : List JsString}, Sound parser files entryFile state done →
      Addressed entryFile file state →
      loadFile parser files fuel file state = some (result, next) →
      hasErrors next.diagnostics = false →
      ∃ more, Resolved parser files entryFile state next done more ∧ normalize file ∈ more) :
    ∀ {paths : List JsString} {state next : Loading} {done : List JsString},
      Sound parser files entryFile state done → (∀ path ∈ paths, Addressed entryFile path state) →
      loadImports parser files fuel paths state = some next →
      hasErrors next.diagnostics = false →
      ∃ more, Resolved parser files entryFile state next done more ∧
        ∀ path ∈ paths, normalize path ∈ more := by
  intro paths
  induction paths with
  | nil =>
      intro state next done sound _ ran _
      cases ran
      exact ⟨done, ⟨sound, rfl, fun _ here => here⟩, by simp⟩
  | cons path paths inductionHypothesis =>
      intro state next done sound addressed ran silent
      rw [loadImports_cons] at ran
      obtain ⟨⟨result, middle⟩, first, rest⟩ := Option.bind_eq_some_iff.mp ran
      have quiet := imports_grow diagnostics_grow rest silent
      obtain ⟨some, stepped, here⟩ := one sound (addressed path List.mem_cons_self) first quiet
      have later : ∀ other ∈ paths, Addressed entryFile other middle := by
        intro other member
        rcases addressed other (List.mem_cons_of_mem _ member) with same | ⟨normal, visiting⟩
        · exact Or.inl same
        · exact Or.inr ⟨normal, by rw [stepped.visiting]; exact visiting⟩
      obtain ⟨more, followed, each⟩ := inductionHypothesis stepped.sound later rest silent
      refine ⟨more, ⟨followed.sound, followed.visiting.trans stepped.visiting,
        fun key old => followed.kept key (stepped.kept key old)⟩, ?_⟩
      intro other member
      rcases List.mem_cons.mp member with rfl | tail
      · exact followed.kept _ here
      · exact each other tail

/-- Loading without an error resolves the file it is asked for. -/
theorem loadFile_resolved {fuel : Nat} : ∀ {file : JsString} {state next : Loading}
    {result : Option LoadedFile} {done : List JsString},
    Sound parser files entryFile state done → Addressed entryFile file state →
    loadFile parser files fuel file state = some (result, next) →
    hasErrors next.diagnostics = false →
    ∃ more, Resolved parser files entryFile state next done more ∧ normalize file ∈ more ∧
      ∃ loaded, result = some loaded ∧ loaded.file = normalize file ∧
        specAt parser files entryFile (normalize file) = some loaded.spec := by
  have staying : ∀ {file : JsString} {state next : Loading} {result : Option LoadedFile}
      {done : List JsString}, Sound parser files entryFile state done →
      arrive parser files file state = .stays result next → hasErrors next.diagnostics = false →
      ∃ more, Resolved parser files entryFile state next done more ∧ normalize file ∈ more ∧
        ∃ loaded, result = some loaded ∧ loaded.file = normalize file ∧
          specAt parser files entryFile (normalize file) = some loaded.spec := by
    intro file state next result done sound stays silent
    obtain ⟨rfl, known, cached, found, name, content⟩ := sound.stays stays silent
    exact ⟨done, ⟨sound, rfl, fun _ here => here⟩, known, cached, found, name, content⟩
  induction fuel with
  | zero =>
      intro file state next result done sound addressed ran silent
      cases arrival : arrive parser files file state with
      | stays found after =>
          rw [loadFile_of_stays arrival] at ran
          cases ran
          exact staying sound arrival silent
      | enters entered after =>
          rw [(loadFile_of_enters arrival).1] at ran
          cases ran
  | succ fuel inductionHypothesis =>
      intro file state next result done sound addressed ran silent
      cases arrival : arrive parser files file state with
      | stays found after =>
          rw [loadFile_of_stays arrival] at ran
          cases ran
          exact staying sound arrival silent
      | enters entered after =>
          rw [(loadFile_of_enters arrival).2] at ran
          obtain ⟨finish, loaded, same⟩ := Option.map_eq_some_iff.mp ran
          cases same
          have quiet := imports_grow diagnostics_grow loaded silent
          obtain ⟨entering, name, visiting, content⟩ := sound.enters addressed arrival quiet
          have importing : ∀ path ∈ importPaths entered.file entered.spec,
              Addressed entryFile path after := by
            intro path member
            refine Or.inr ⟨normalize_of_mem_importPaths member, ?_⟩
            rw [visiting]
            rcases addressed with rfl | ⟨-, inside⟩
            · exact List.mem_append_right _ List.mem_cons_self
            · exact List.mem_append_left _ inside
          obtain ⟨more, followed, each⟩ := loadImports_resolved (fun sound addressed ran silent => by
            obtain ⟨more, resolved, here, -⟩ := inductionHypothesis sound addressed ran silent
            exact ⟨more, resolved, here⟩) entering importing loaded silent
          -- the file is done once its imports are
          refine ⟨normalize file :: more, ⟨⟨silent, fun key => ?_, followed.sound.found,
            .cons (fun path edge => ?_) followed.sound.layered⟩, ?_,
            fun key old => List.mem_cons_of_mem _ (followed.kept key old)⟩, List.mem_cons_self,
            entered, rfl, name, content⟩
          · rw [keys_leave, followed.sound.keys, followed.visiting, visiting, Loading.leave,
              followed.visiting, visiting, List.dropLast_concat, List.mem_append, List.mem_singleton,
              List.mem_cons]
            constructor
            · rintro (here | inside | same)
              · exact Or.inl (Or.inr here)
              · exact Or.inr inside
              · exact Or.inl (Or.inl same)
            · rintro ((same | here) | inside)
              · exact Or.inr (Or.inr same)
              · exact Or.inl here
              · exact Or.inr (Or.inl inside)
          · rw [importEdges_of_specAt content, ← name] at edge
            have known := each path edge
            rwa [normalize_of_mem_importPaths edge] at known
          · rw [Loading.leave, followed.visiting, visiting, List.dropLast_concat]

/-! ## Loading that stays silent -/

/-- `loadFile` stays with a file that is loaded, that is being resolved, or that says nothing. -/
theorem arrive_stays_why {file : JsString} {state next : Loading} {result : Option LoadedFile}
    (addressed : Addressed entryFile file state)
    (stays : arrive parser files file state = .stays result next) :
    next = state ∨ normalize file ∈ state.visiting ∨
      specAt parser files entryFile (normalize file) = none := by
  unfold arrive at stays
  split_ifs at stays with cycle
  · exact Or.inr (Or.inl cycle)
  · cases cached : state.loaded.get? (normalize file) with
    | some found => rw [cached] at stays; cases stays; exact Or.inl rfl
    | none =>
        refine Or.inr (Or.inr ?_)
        rw [specAt, sourceAt_of_addressed addressed cycle]
        cases source : files.read file with
        | none => rfl
        | some text =>
            cases parsed : (parseSpecSource parser text file).spec with
            | none => rw [Option.bind_some, ← parseSpecSource_spec parser text file, parsed]
            | some spec => simp only [cached, source, parsed] at stays; cases stays

/-- The files that a key leads to can be read, and none imports itself. -/
def Clear (parser : Parser) (files : FileSet) (entryFile key : JsString) : Prop :=
  ∀ other, Reaches (importEdges parser files entryFile) key other →
    specAt parser files entryFile other ≠ none ∧ ¬ OnCycle (importEdges parser files entryFile) other

/-- The files that are being resolved import the key, directly or through others. -/
def Below (parser : Parser) (files : FileSet) (entryFile key : JsString) (state : Loading) : Prop :=
  ∀ visiting ∈ state.visiting,
    Relation.TransGen (Follows (importEdges parser files entryFile)) visiting key

/-- Where nothing is missing and nothing is cyclic, loading reports no error. -/
theorem loadFile_silent {fuel : Nat} : ∀ {file : JsString} {state next : Loading}
    {result : Option LoadedFile} {done : List JsString},
    Sound parser files entryFile state done → Addressed entryFile file state →
    Below parser files entryFile (normalize file) state →
    Clear parser files entryFile (normalize file) →
    loadFile parser files fuel file state = some (result, next) →
    hasErrors next.diagnostics = false := by
  have staying : ∀ {file : JsString} {state next : Loading} {result : Option LoadedFile}
      {done : List JsString}, Sound parser files entryFile state done →
      Addressed entryFile file state → Below parser files entryFile (normalize file) state →
      Clear parser files entryFile (normalize file) →
      arrive parser files file state = .stays result next → hasErrors next.diagnostics = false := by
    intro file state next result done sound addressed below clear stays
    rcases arrive_stays_why addressed stays with rfl | cycle | missing
    · exact sound.silent
    · exact absurd (below _ cycle) (clear _ .refl).2
    · exact absurd missing (clear _ .refl).1
  induction fuel with
  | zero =>
      intro file state next result done sound addressed below clear ran
      cases arrival : arrive parser files file state with
      | stays found after =>
          rw [loadFile_of_stays arrival] at ran
          cases ran
          exact staying sound addressed below clear arrival
      | enters entered after =>
          rw [(loadFile_of_enters arrival).1] at ran
          cases ran
  | succ fuel inductionHypothesis =>
      intro file state next result done sound addressed below clear ran
      cases arrival : arrive parser files file state with
      | stays found after =>
          rw [loadFile_of_stays arrival] at ran
          cases ran
          exact staying sound addressed below clear arrival
      | enters entered after =>
          rw [(loadFile_of_enters arrival).2] at ran
          obtain ⟨finish, loaded, same⟩ := Option.map_eq_some_iff.mp ran
          cases same
          obtain ⟨-, -, source, -, parsed, -, rfl⟩ := arrive_enters arrival
          have quiet : hasErrors (state.report
              (parseSpecSource parser source file).diagnostics).diagnostics = false := by
            obtain ⟨-, silent, diagnostics⟩ := parse_some parsed
            rw [Loading.report, hasErrors_append, sound.silent, diagnostics, silent]
            rfl
          obtain ⟨entering, name, visiting, content⟩ := sound.enters addressed arrival quiet
          -- one import after another, each with what was loaded before it
          have each : ∀ (paths : List JsString) (start finish : Loading) (done : List JsString),
              (∀ path ∈ paths, path ∈ importPaths entered.file entered.spec) →
              Sound parser files entryFile start done →
              start.visiting = state.visiting ++ [normalize file] →
              loadImports parser files fuel paths start = some finish →
              hasErrors finish.diagnostics = false := by
            intro paths
            induction paths with
            | nil =>
                intro start finish done _ sound _ ran
                cases ran
                exact sound.silent
            | cons path paths siblings =>
                intro start finish done imported sound inside ran
                rw [loadImports_cons] at ran
                obtain ⟨⟨_, middle⟩, first, rest⟩ := Option.bind_eq_some_iff.mp ran
                have member := imported path List.mem_cons_self
                have edge : normalize path ∈ importEdges parser files entryFile (normalize file) := by
                  rw [importEdges_of_specAt content, ← name, normalize_of_mem_importPaths member]
                  exact member
                have addressedHere : Addressed entryFile path start := by
                  refine Or.inr ⟨normalize_of_mem_importPaths member, ?_⟩
                  rw [inside]
                  rcases addressed with rfl | ⟨-, visited⟩
                  · exact List.mem_append_right _ List.mem_cons_self
                  · exact List.mem_append_left _ visited
                have belowHere : Below parser files entryFile (normalize path) start := by
                  intro key visited
                  rw [inside, List.mem_append, List.mem_singleton] at visited
                  rcases visited with older | rfl
                  · exact (below key older).tail edge
                  · exact .single edge
                have clearHere : Clear parser files entryFile (normalize path) :=
                  fun other path => clear other (path.head edge)
                have silent := inductionHypothesis sound addressedHere belowHere clearHere first
                obtain ⟨more, resolved, -⟩ := loadFile_resolved sound addressedHere first silent
                exact siblings middle finish more
                  (fun other later => imported other (List.mem_cons_of_mem _ later)) resolved.sound
                  (resolved.visiting.trans inside) rest
          exact each _ _ finish _ (fun _ here => here) entering visiting loaded

end SpecAsCode.Compiler
