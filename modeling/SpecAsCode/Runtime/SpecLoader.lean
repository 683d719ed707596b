import SpecAsCode.Core.CriteriaApart

/-!
# The loader of specifications

Planning compiles the file it is given with the files it imports.  Applying a plan searches the
directory of specifications for the identifier the plan names, and compiles the file it finds
without its imports.
-/

namespace SpecAsCode.Compiler

open SpecAsCode.Js
open SpecAsCode.Core
open SpecAsCode.Lib
open SpecAsCode.Js.Path (join normalize)

/-- Why nothing is loaded. -/
inductive LoadError where
  | unreadable (file : JsString)
  | canonical (error : CanonicalError)
  | absent (specsDir specId : JsString)
  | invalid (specFile : JsString) (diagnostics : List Diagnostic)

/-- The directory of specifications, with its listing when it exists. -/
structure SpecsDir where
  path : JsString
  listing : Option (List JsString)

def isYaml (entry : JsString) : Bool :=
  (js ".yaml").isSuffixOf entry || (js ".yml").isSuffixOf entry

/-- `result.ok && result.ir?.spec.metadata.id === specId`. -/
def isUnder (specId : JsString) (result : SpecCompileResult) : Bool :=
  result.ok && (result.ir.map fun ir => ir.spec.metadata.id) == some specId

/-- The loop of `findSpecFor` over the names of the directory. -/
def findSpecIn (parser : Parser) (sha256Hex : JsString → JsString) (files : FileSet)
    (path specId : JsString) : List JsString → Except LoadError (Option JsString)
  | [] => .ok none
  | entry :: rest =>
      if isYaml entry then
        match files.read (join path entry) with
        | none => .error (.unreadable (join path entry))
        | some source =>
            match compileSpecSource parser sha256Hex source (join path entry) with
            | .error error => .error (.canonical error)
            | .ok result =>
                if isUnder specId result then
                  .ok (some (join path entry))
                else
                  findSpecIn parser sha256Hex files path specId rest
      else
        findSpecIn parser sha256Hex files path specId rest

def findSpecFor (parser : Parser) (sha256Hex : JsString → JsString) (files : FileSet)
    (specsDir : SpecsDir) (specId : JsString) : Except LoadError (Option JsString) :=
  match specsDir.listing with
  | none => .ok none
  | some names =>
      findSpecIn parser sha256Hex files specsDir.path specId
        (names.insertionSort fun first second => first ≤ second)

def loadSpecIr (parser : Parser) (sha256Hex : JsString → JsString) (files : FileSet)
    (specsDir : SpecsDir) (specId : JsString) : Except LoadError SpecIR :=
  match findSpecFor parser sha256Hex files specsDir specId with
  | .error error => .error error
  | .ok none => .error (.absent specsDir.path specId)
  | .ok (some specFile) =>
      match files.read specFile with
      | none => .error (.unreadable specFile)
      | some source =>
          match compileSpecSource parser sha256Hex source specFile with
          | .error error => .error (.canonical error)
          | .ok result =>
              match result.ir with
              | none => .error (.invalid specFile result.diagnostics)
              | some ir => if result.ok then .ok ir else .error (.invalid specFile result.diagnostics)

/-! ## One file on its own -/

/-- The specification of a source that compiles without other files. -/
def standalone (parser : Parser) (source : JsString) : Option Spec :=
  (specOf parser source).filter fun spec => !hasErrors (validateSpecCrossRefs spec)

variable {parser : Parser} {sha256Hex : JsString → JsString} {files : FileSet}

theorem compileSpecSource_of_standalone_none {source : JsString}
    (alone : standalone parser source = none) (file : JsString) :
    ∃ diagnostics, compileSpecSource parser sha256Hex source file = .ok (.failed diagnostics) := by
  rw [compileSpecSource]
  cases parsed : (parseSpecSource parser source file).spec with
  | none => exact ⟨_, rfl⟩
  | some spec =>
      rw [standalone, ← parseSpecSource_spec parser source file, parsed] at alone
      have broken : hasErrors (validateSpecCrossRefs spec) = true := by
        cases references : hasErrors (validateSpecCrossRefs spec) with
        | true => rfl
        | false => simp [Option.filter, references] at alone
      simp only [hasErrors_append, broken, Bool.or_true, if_true]
      exact ⟨_, rfl⟩

theorem compileSpecSource_of_standalone {source : JsString} {spec : Spec}
    (alone : standalone parser source = some spec) (file : JsString) :
    ∃ diagnostics, compileSpecSource parser sha256Hex source file =
      (finalizeSpec sha256Hex spec none).map (.succeeded diagnostics) := by
  obtain ⟨parsed, references⟩ := Option.filter_eq_some_iff.mp alone
  rw [← parseSpecSource_spec parser source file] at parsed
  obtain ⟨-, silent, diagnostics⟩ := parse_some parsed
  refine ⟨(parseSpecSource parser source file).diagnostics ++ validateSpecCrossRefs spec, ?_⟩
  rw [compileSpecSource]
  simp only [parsed]
  rw [hasErrors_append, diagnostics, silent, Bool.false_or, if_neg (by simpa using references)]

/-! ## The file that is found -/

/-- The search goes past an entry. -/
def PassedOver (parser : Parser) (sha256Hex : JsString → JsString) (files : FileSet)
    (path specId entry : JsString) : Prop :=
  isYaml entry = true → ∃ source, files.read (join path entry) = some source ∧
    ∀ spec, standalone parser source = some spec →
      spec.metadata.id ≠ specId ∧ ∃ digest, CompilesTo sha256Hex spec digest

/-- The search stops at an entry, with what the file specifies. -/
structure StopsAt (parser : Parser) (sha256Hex : JsString → JsString) (files : FileSet)
    (path specId entry : JsString) (spec : Spec) : Prop where
  yaml : isYaml entry = true
  alone : ∃ source, files.read (join path entry) = some source ∧
    standalone parser source = some spec
  named : spec.metadata.id = specId
  hashed : ∃ digest, CompilesTo sha256Hex spec digest

/-- The specification of the first file of the directory, in the order of names, that compiles
on its own under the identifier. -/
def FirstUnder (parser : Parser) (sha256Hex : JsString → JsString) (files : FileSet)
    (specsDir : SpecsDir) (specId : JsString) (spec : Spec) : Prop :=
  ∃ names before entry after, specsDir.listing = some names ∧
    names.insertionSort (fun first second => first ≤ second) = before ++ entry :: after ∧
    (∀ other ∈ before, PassedOver parser sha256Hex files specsDir.path specId other) ∧
    StopsAt parser sha256Hex files specsDir.path specId entry spec

theorem finalizeSpec_id {spec : Spec} {importedFiles : Option (List JsString)} {ir : SpecIR}
    (finalized : finalizeSpec sha256Hex spec importedFiles = .ok ir) :
    ir.spec.metadata.id = spec.metadata.id := by
  rw [(finalizeSpec_ok finalized).2.1]
  rfl

theorem finalizeSpec_of_compilesTo {spec : Spec} {digest : JsString}
    (compiled : CompilesTo sha256Hex spec digest) :
    ∃ ir, finalizeSpec sha256Hex spec none = .ok ir ∧ ir.digest = digest :=
  compiled

theorem isUnder_succeeded (specId : JsString) (diagnostics : List Diagnostic) (ir : SpecIR) :
    isUnder specId (.succeeded diagnostics ir) = decide (ir.spec.metadata.id = specId) := by
  rw [Bool.eq_iff_iff]
  simp [isUnder, SpecCompileResult.succeeded]

/-- What the search does at one entry: it goes past it, it stops at it, or it fails. -/
theorem findSpecIn_cons (parser : Parser) (sha256Hex : JsString → JsString) (files : FileSet)
    (path specId entry : JsString) (rest : List JsString) :
    (PassedOver parser sha256Hex files path specId entry ∧
        findSpecIn parser sha256Hex files path specId (entry :: rest) =
          findSpecIn parser sha256Hex files path specId rest) ∨
      ((∃ spec, StopsAt parser sha256Hex files path specId entry spec) ∧
        findSpecIn parser sha256Hex files path specId (entry :: rest) =
          .ok (some (join path entry))) ∨
      (¬ PassedOver parser sha256Hex files path specId entry ∧
        (∀ spec, ¬ StopsAt parser sha256Hex files path specId entry spec) ∧
        ∃ error, findSpecIn parser sha256Hex files path specId (entry :: rest) = .error error) := by
  rw [findSpecIn]
  split_ifs with yaml
  · cases source : files.read (join path entry) with
    | none =>
        refine Or.inr (Or.inr ⟨fun passed => ?_, fun spec stops => ?_, _, rfl⟩)
        · obtain ⟨text, read, -⟩ := passed yaml
          rw [source] at read
          cases read
        · obtain ⟨text, read, -⟩ := stops.alone
          rw [source] at read
          cases read
    | some text =>
        simp only
        cases alone : standalone parser text with
        | none =>
            obtain ⟨diagnostics, failed⟩ :=
              @compileSpecSource_of_standalone_none parser sha256Hex text alone (join path entry)
            rw [failed]
            refine Or.inl ⟨fun _ => ⟨text, source, fun spec found => ?_⟩, rfl⟩
            rw [alone] at found
            cases found
        | some spec =>
            obtain ⟨diagnostics, compiled⟩ :=
              @compileSpecSource_of_standalone parser sha256Hex text spec alone (join path entry)
            rw [compiled]
            cases finalized : finalizeSpec sha256Hex spec none with
            | error error =>
                have unhashed : ¬ ∃ digest, CompilesTo sha256Hex spec digest := by
                  rintro ⟨digest, ir, found, -⟩
                  rw [finalized] at found
                  cases found
                refine Or.inr (Or.inr ⟨fun passed => ?_, fun other stops => ?_, _, rfl⟩)
                · obtain ⟨held, read, each⟩ := passed yaml
                  rw [source, Option.some.injEq] at read
                  subst read
                  exact unhashed (each spec alone).2
                · obtain ⟨held, read, found⟩ := stops.alone
                  rw [source, Option.some.injEq] at read
                  subst read
                  rw [alone, Option.some.injEq] at found
                  subst found
                  exact unhashed stops.hashed
            | ok ir =>
                have hashed : ∃ digest, CompilesTo sha256Hex spec digest :=
                  ⟨ir.digest, ir, finalized, rfl⟩
                simp only [Except.map, isUnder_succeeded, finalizeSpec_id finalized,
                  decide_eq_true_eq]
                by_cases named : spec.metadata.id = specId
                · rw [if_pos named]
                  exact Or.inr (Or.inl ⟨⟨spec, yaml, ⟨text, source, alone⟩, named, hashed⟩, rfl⟩)
                · rw [if_neg named]
                  refine Or.inl ⟨fun _ => ⟨text, source, fun other found => ?_⟩, rfl⟩
                  rw [alone, Option.some.injEq] at found
                  subst found
                  exact ⟨named, hashed⟩
  · exact Or.inl ⟨fun isYaml => absurd isYaml yaml, rfl⟩

theorem PassedOver.not_stopsAt {path specId entry : JsString} {spec : Spec}
    (passed : PassedOver parser sha256Hex files path specId entry) :
    ¬ StopsAt parser sha256Hex files path specId entry spec := by
  intro stops
  obtain ⟨source, read, each⟩ := passed stops.yaml
  obtain ⟨other, found, alone⟩ := stops.alone
  rw [read, Option.some.injEq] at found
  subst found
  exact (each spec alone).1 stops.named

theorem findSpecIn_iff {path specId file : JsString} (names : List JsString) :
    findSpecIn parser sha256Hex files path specId names = .ok (some file) ↔
      ∃ before entry after, names = before ++ entry :: after ∧
        (∀ other ∈ before, PassedOver parser sha256Hex files path specId other) ∧
        file = join path entry ∧ ∃ spec, StopsAt parser sha256Hex files path specId entry spec := by
  induction names with
  | nil =>
      constructor
      · rintro ⟨⟩
      · rintro ⟨before, entry, after, shape, -⟩
        simp at shape
  | cons first names inductionHypothesis =>
      rcases findSpecIn_cons parser sha256Hex files path specId first names with
        ⟨passed, onward⟩ | ⟨⟨spec, stops⟩, found⟩ | ⟨notPassed, notStopped, error, failed⟩
      · rw [onward, inductionHypothesis]
        constructor
        · rintro ⟨before, entry, after, rfl, each, same, stops⟩
          exact ⟨first :: before, entry, after, rfl, List.forall_mem_cons.mpr ⟨passed, each⟩, same,
            stops⟩
        · rintro ⟨before, entry, after, shape, each, same, spec, stops⟩
          cases before with
          | nil =>
              cases shape
              exact absurd stops passed.not_stopsAt
          | cons other before =>
              cases shape
              exact ⟨before, entry, after, rfl, (List.forall_mem_cons.mp each).2, same, spec, stops⟩
      · rw [found]
        constructor
        · rintro ⟨⟩
          exact ⟨[], first, names, rfl, by simp, rfl, spec, stops⟩
        · rintro ⟨before, entry, after, shape, each, same, -⟩
          cases before with
          | nil =>
              cases shape
              rw [same]
          | cons other before =>
              cases shape
              exact absurd stops (each first List.mem_cons_self).not_stopsAt
      · rw [failed]
        constructor
        · rintro ⟨⟩
        · rintro ⟨before, entry, after, shape, each, same, spec, stops⟩
          cases before with
          | nil =>
              cases shape
              exact absurd stops (notStopped spec)
          | cons other before =>
              cases shape
              exact absurd (each first List.mem_cons_self) notPassed

/-- The loader gives the compiled form of the first file under the identifier. -/
theorem loadSpecIr_iff {specsDir : SpecsDir} {specId : JsString} {ir : SpecIR} :
    loadSpecIr parser sha256Hex files specsDir specId = .ok ir ↔
      ∃ spec, FirstUnder parser sha256Hex files specsDir specId spec ∧
        finalizeSpec sha256Hex spec none = .ok ir := by
  have stopped : ∀ {entry : JsString} {spec : Spec},
      StopsAt parser sha256Hex files specsDir.path specId entry spec →
      ∃ source diagnostics composed, files.read (join specsDir.path entry) = some source ∧
        compileSpecSource parser sha256Hex source (join specsDir.path entry) =
          .ok (.succeeded diagnostics composed) ∧
        finalizeSpec sha256Hex spec none = .ok composed := by
    intro entry spec stops
    obtain ⟨source, read, alone⟩ := stops.alone
    obtain ⟨digest, composed, finalized, -⟩ := stops.hashed
    obtain ⟨diagnostics, compiled⟩ :=
      @compileSpecSource_of_standalone parser sha256Hex source spec alone (join specsDir.path entry)
    rw [finalized] at compiled
    exact ⟨source, diagnostics, composed, read, compiled, finalized⟩
  constructor
  · intro loaded
    rw [loadSpecIr] at loaded
    cases search : findSpecFor parser sha256Hex files specsDir specId with
    | error error => rw [search] at loaded; cases loaded
    | ok found =>
        cases found with
        | none => rw [search] at loaded; cases loaded
        | some file =>
            cases listing : specsDir.listing with
            | none => rw [findSpecFor, listing] at search; cases search
            | some names =>
                rw [findSpecFor, listing] at search
                obtain ⟨before, entry, after, shape, each, rfl, spec, stops⟩ :=
                  (findSpecIn_iff _).mp search
                obtain ⟨source, diagnostics, composed, read, compiled, finalized⟩ := stopped stops
                have same : composed = ir := by
                  rw [findSpecFor, listing] at loaded
                  simp only [search, read, compiled, SpecCompileResult.succeeded, if_true,
                    Except.ok.injEq] at loaded
                  exact loaded
                exact ⟨spec, ⟨names, before, entry, after, listing, shape, each, stops⟩,
                  same ▸ finalized⟩
  · rintro ⟨spec, ⟨names, before, entry, after, listing, shape, each, stops⟩, finalized⟩
    obtain ⟨source, diagnostics, composed, read, compiled, other⟩ := stopped stops
    have search : findSpecFor parser sha256Hex files specsDir specId =
        .ok (some (join specsDir.path entry)) := by
      rw [findSpecFor, listing]
      exact (findSpecIn_iff _).mpr ⟨before, entry, after, shape, each, rfl, spec, stops⟩
    rw [finalized] at other
    cases other
    rw [loadSpecIr, search]
    simp only [read, compiled, SpecCompileResult.succeeded, if_true]

end SpecAsCode.Compiler
