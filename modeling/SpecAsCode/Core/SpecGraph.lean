import SpecAsCode.Core.SpecSemantics
import SpecAsCode.Js.Path

/-!
# Composition of specifications

A specification may import the properties of other files.  The compiler loads the files one
after another, rejects cycles and missing files, and composes what it has loaded.
-/

namespace SpecAsCode.Compiler

open SpecAsCode.Js
open SpecAsCode.Core
open SpecAsCode.Lib
open SpecAsCode.Js.Path (dirname join normalize)

/-! ## One file -/

/-- What the parser of YAML and the schema make of a source: a specification, or complaints
that name the file. -/
structure Parser where
  document : JsString → Option Spec
  complaints : JsString → JsString → List Diagnostic
  refuses : ∀ source file, document source = none → hasErrors (complaints source file) = true

structure ParsedSpecSource where
  spec : Option Spec
  diagnostics : List Diagnostic

def parseSpecSource (parser : Parser) (source file : JsString) : ParsedSpecSource :=
  match parser.document source with
  | none => ⟨none, parser.complaints source file⟩
  | some spec =>
      if hasErrors (validateSpecLocal spec) then
        ⟨none, validateSpecLocal spec⟩
      else
        ⟨some spec, validateSpecLocal spec⟩

structure SpecCompileResult where
  ok : Bool
  ir : Option SpecIR
  diagnostics : List Diagnostic

def SpecCompileResult.failed (diagnostics : List Diagnostic) : SpecCompileResult :=
  ⟨false, none, diagnostics⟩

def SpecCompileResult.succeeded (diagnostics : List Diagnostic) (ir : SpecIR) : SpecCompileResult :=
  ⟨true, some ir, diagnostics⟩

/-- `compileSpecSource`: the text of one file, without the files it imports. -/
def compileSpecSource (parser : Parser) (sha256Hex : JsString → JsString) (source file : JsString) :
    Except CanonicalError SpecCompileResult :=
  let parsed := parseSpecSource parser source file
  match parsed.spec with
  | none => .ok (.failed parsed.diagnostics)
  | some spec =>
      let diagnostics := parsed.diagnostics ++ validateSpecCrossRefs spec
      if hasErrors diagnostics then
        .ok (.failed diagnostics)
      else
        (finalizeSpec sha256Hex spec none).map (.succeeded diagnostics)

/-! ## Loading -/

/-- Finitely many files, by the normal spellings of their paths. -/
structure FileSet where
  read : JsString → Option JsString
  keys : List JsString
  listed : ∀ file, (read file).isSome = true → normalize file ∈ keys

structure LoadedFile where
  file : JsString
  spec : Spec

/-- What `loadFile` works on. -/
structure Loading where
  diagnostics : List Diagnostic
  loaded : OrderedMap JsString LoadedFile
  visiting : List JsString

def Loading.report (state : Loading) (diagnostics : List Diagnostic) : Loading :=
  { state with diagnostics := state.diagnostics ++ diagnostics }

/-- The file is kept, and is being resolved. -/
def Loading.enter (state : Loading) (file : LoadedFile) : Loading :=
  { state with
    loaded := state.loaded.set file.file file
    visiting := state.visiting ++ [file.file] }

/-- `visiting.pop()`. -/
def Loading.leave (state : Loading) : Loading :=
  { state with visiting := state.visiting.dropLast }

/-- SPC1006, with the files from the one that is met again. -/
def importCycle (visiting : List JsString) (key : JsString) : Diagnostic :=
  let cycle := visiting.dropWhile (fun other => other ≠ key) ++ [key]
  error (js "SPC1006") (js "spec import cycle detected: " ++ joinTexts (js " -> ") cycle ++ js ".")
    (some cycle)

/-- SPC1007. -/
def unreadable (file : JsString) : Diagnostic :=
  error (js "SPC1007") (js "imported spec not found or unreadable: " ++ file) none

/-- `path.join(path.dirname(key), imp)` for each import. -/
def importPaths (key : JsString) (spec : Spec) : List JsString :=
  (spec.imports.getD []).map fun imported => join (dirname key) imported

/-- `loadFile`.  The bound is on the depth of the imports. -/
def loadFile (parser : Parser) (files : FileSet) :
    Nat → JsString → Loading → Option (Option LoadedFile × Loading)
  | fuel, file, state =>
      if normalize file ∈ state.visiting then
        -- a file that is still being resolved is a cycle, although it is loaded
        some (none, state.report [importCycle state.visiting (normalize file)])
      else
        match state.loaded.get? (normalize file) with
        | some cached => some (some cached, state)
        | none =>
            match files.read file with
            | none => some (none, state.report [unreadable file])
            | some source =>
                let parsed := parseSpecSource parser source file
                match parsed.spec with
                | none => some (none, state.report parsed.diagnostics)
                | some spec =>
                    match fuel with
                    | 0 => none
                    | fuel + 1 =>
                        let loadedFile : LoadedFile := ⟨normalize file, spec⟩
                        ((importPaths loadedFile.file spec).foldlM
                            (fun state imported =>
                              (loadFile parser files fuel imported state).map Prod.snd)
                            ((state.report parsed.diagnostics).enter loadedFile)).map
                          fun finished => (some loadedFile, finished.leave)

/-! ## Composing -/

/-- `flatten`: the file and the files it imports, each one once. -/
def flatten (loaded : OrderedMap JsString LoadedFile) :
    Nat → LoadedFile → List LoadedFile → Option (List LoadedFile)
  | fuel, file, order =>
      if file.file ∈ order.map LoadedFile.file then
        some order
      else
        match fuel with
        | 0 => none
        | fuel + 1 =>
            (importPaths file.file file.spec).foldlM
              (fun order imported =>
                match loaded.get? (normalize imported) with
                | some child => flatten loaded fuel child order
                | none => some order)
              (order ++ [file])

/-- The identifiers of the properties, each with the file that defines it. -/
def definitions (order : List LoadedFile) : List (JsString × JsString) :=
  order.flatMap fun file =>
    (file.spec.requirements.map (fun requirement => requirement.id) ++
      (file.spec.constraints.getD []).map fun constraint => constraint.id).map fun id =>
        (id, file.file)

/-- SPC1008.  A file with an empty name would not count as the owner of an identifier. -/
def collisions : OrderedMap JsString JsString → List (JsString × JsString) → List Diagnostic
  | _, [] => []
  | owner, (id, file) :: rest =>
      match (owner.get? id).filter fun prior => prior ≠ [] with
      | some prior =>
          error (js "SPC1008")
            (js "property id " ++ id ++ js " is defined in both " ++ prior ++ js " and " ++ file ++
              js "; ids are never rewritten on import.")
            (some [prior, file]) :: collisions owner rest
      | none => collisions (owner.set id file) rest

/-- The properties of all files under the name of the entry. -/
def compose (entry : LoadedFile) (imports : List LoadedFile) : Spec :=
  { entry.spec with
    imports := none
    requirements := entry.spec.requirements ++ imports.flatMap fun file => file.spec.requirements
    constraints := some (entry.spec.constraints.getD [] ++
      imports.flatMap fun file => file.spec.constraints.getD [])
    outOfScope := some (once [] (entry.spec.outOfScope.getD [] ++
      imports.flatMap fun file => file.spec.outOfScope.getD [])) }

/-- `compileSpecGraph`, after the files are loaded. -/
def composeLoaded (sha256Hex : JsString → JsString) (entry : LoadedFile) (order : List LoadedFile)
    (diagnostics : List Diagnostic) : Except CanonicalError SpecCompileResult :=
  let imports := order.drop 1
  let collided := diagnostics ++ collisions OrderedMap.empty (definitions order)
  if hasErrors collided then
    .ok (.failed collided)
  else
    let composed := compose entry imports
    let checked := collided ++ validateSpecCrossRefs composed
    if hasErrors checked then
      .ok (.failed checked)
    else
      (finalizeSpec sha256Hex composed (some (imports.map LoadedFile.file))).map
        (.succeeded checked)

/-- `compileSpecGraph`.  The recursions are given as much depth as there are files. -/
def compileSpecGraph (parser : Parser) (sha256Hex : JsString → JsString) (files : FileSet)
    (entryFile : JsString) : Option (Except CanonicalError SpecCompileResult) :=
  (loadFile parser files (files.keys.length + 1) entryFile ⟨[], OrderedMap.empty, []⟩).bind
    fun (entry, state) =>
      match entry with
      | none => some (.ok (.failed state.diagnostics))
      | some entry =>
          if hasErrors state.diagnostics then
            some (.ok (.failed state.diagnostics))
          else
            (flatten state.loaded (state.loaded.entries.length + 1) entry []).map fun order =>
              composeLoaded sha256Hex entry order state.diagnostics

end SpecAsCode.Compiler
