import SpecAsCode.Core.YamlWalk

/-!
# Specifications in YAML

What the compiler makes of the text of one file, over a parser of YAML and the schema of
specifications: a specification, or complaints.
-/

namespace SpecAsCode.Compiler

open SpecAsCode.Js
open SpecAsCode.Core

/-! ## Metadata -/

mutual

/-- The data as a JSON-like value.  What canonical JSON refuses and JSON-like values do not
have (symbols, objects of built-in classes, objects with a prototype of their own) is NaN,
which it refuses as well. -/
def RawValue.shadow : RawValue → JsValue
  | .scalar .null => .null
  | .scalar (.bool value) => .bool value
  | .scalar (.number value) => .number value
  | .scalar (.string value) => .string value
  | .scalar (.symbol _) => .number .nan
  | .scalar (.builtIn _) => .number .nan
  | .array items => .array (shadowItems items)
  | .object members => .object (shadowMembers members)
  | .bare members => .object (shadowMembers members)
  | .derived _ _ => .number .nan

def shadowItems : List RawValue → List JsValue
  | [] => []
  | item :: rest => item.shadow :: shadowItems rest

def shadowMembers : RawMembers → Members
  | [] => []
  | (key, value) :: rest => (key, value.shadow) :: shadowMembers rest

end

theorem shadowMembers_eq_map (members : RawMembers) :
    shadowMembers members = members.map fun member => (member.1, member.2.shadow) := by
  induction members with
  | nil => rfl
  | cons member rest inductionHypothesis =>
      obtain ⟨key, value⟩ := member
      rw [shadowMembers, inductionHypothesis, List.map_cons]

/-- The items of the array under a key. -/
def RawValue.itemsAt (key : JsString) (data : RawValue) : List RawValue :=
  match data.get key with
  | some (.array items) => items
  | _ => []

/-- The records under `metadata` in the properties of a document. -/
def RawValue.metadataRecords (data : RawValue) : List (Option RawMembers) :=
  (data.itemsAt (js "requirements") ++ data.itemsAt (js "constraints")).map fun item =>
    (item.get (js "metadata")).bind RawValue.members?

def Spec.metadataRecords (spec : Spec) : List (Option UnknownRecord) :=
  (spec.requirements.map fun requirement => requirement.metadata) ++
    (spec.constraints.getD []).map fun constraint => constraint.metadata

/-! ## The schema -/

/-- An issue of a schema, with the keys of one about unrecognized keys. -/
structure Issue where
  code : JsString
  message : JsString
  path : List JsString
  keys : List JsString

/-- `schemaDiagnostics`, for one issue. -/
def schemaDiagnostic (issue : Issue) : Diagnostic :=
  let path := joinTexts (js ".") issue.path
  if issue.code = js "unrecognized_keys" then
    error (js "SPC0003")
      (js "unknown field" ++ (if issue.keys.length = 1 then [] else js "s") ++ js " " ++
        joinTexts (js ", ") (issue.keys.map fun key => js "\"" ++ key ++ js "\"") ++ js " at " ++
        pathOrRoot path ++ js ".") none
  else
    error (js "SPC0002") ((if path = [] then [] else path ++ js ": ") ++ issue.message) none

/-- The keys of `specSchema`. -/
def specSchemaKeys : List JsString :=
  [js "apiVersion", js "kind", js "metadata", js "goal", js "imports", js "environment",
    js "requirements", js "constraints", js "outOfScope"]

/-- `specSchema` as the library of schemas runs it.  A strict object has no other keys than the
schema names, and a record of unknown values is passed on as it is. -/
structure SpecSchema where
  safeParse : RawValue → Except (List Issue) Spec
  complains : ∀ data issues, safeParse data = .error issues → issues ≠ []
  strict : ∀ data spec, safeParse data = .ok spec → ∃ members, data.members? = some members ∧
    ∀ member ∈ members, member.1 ∈ specSchemaKeys
  keeps : ∀ data spec, safeParse data = .ok spec →
    spec.metadataRecords.map (Option.map UnknownRecord.members) =
      data.metadataRecords.map (Option.map shadowMembers)

/-! ## The text of one file -/

/-- `parseAllDocuments`, with the message when it throws. -/
abbrev YamlParser := JsString → Except JsString (List YamlDocument)

def yamlError (message : JsString) : Diagnostic :=
  error (js "SPC0001") (js "YAML parse error: " ++ message) none

/-- The one document of a text. -/
def soleDocument (yaml : YamlParser) (source file : JsString) :
    Except (List Diagnostic) YamlDocument :=
  match yaml source with
  | .error message => .error [yamlError message]
  | .ok documents =>
      match documents with
      | [doc] => if doc.errors = [] then .ok doc else .error (doc.errors.map yamlError)
      | _ =>
          .error [error (js "SPC0001")
            (js "expected exactly one YAML document in " ++ file ++ js ", found " ++
              natText documents.length ++ js ".") none]

/-- What the walk and the schema make of a document.  The walk reports nothing but SPC0001. -/
def documentSpec (schema : SpecSchema) (doc : YamlDocument) : Except (List Diagnostic) Spec :=
  if doc.walked.diagnostics.any fun diagnostic => diagnostic.code = js "SPC0001" then
    .error doc.walked.diagnostics
  else
    match schema.safeParse doc.walked.value with
    | .error issues => .error (doc.walked.diagnostics ++ issues.map schemaDiagnostic)
    | .ok spec => .ok spec

/-- `parseSpecSource`, before the checks of `validateSpecLocal`. -/
def readSource (yaml : YamlParser) (schema : SpecSchema) (source file : JsString) :
    Except (List Diagnostic) Spec :=
  (soleDocument yaml source file).bind (documentSpec schema)

theorem soleDocument_eq_ok {yaml : YamlParser} {source file : JsString} {doc : YamlDocument} :
    soleDocument yaml source file = .ok doc ↔ yaml source = .ok [doc] ∧ doc.errors = [] := by
  rw [soleDocument]
  cases yaml source with
  | error message => exact iff_of_false nofun nofun
  | ok documents =>
      match documents with
      | [] => exact iff_of_false nofun nofun
      | _ :: _ :: _ => exact iff_of_false nofun (fun both => by cases both.1)
      | [other] =>
          simp only
          split_ifs with sound
          · constructor
            · intro same
              cases same
              exact ⟨rfl, sound⟩
            · rintro ⟨same, -⟩
              cases same
              rfl
          · refine iff_of_false nofun ?_
            rintro ⟨same, silent⟩
            cases same
            exact sound silent

theorem documentSpec_eq_ok {schema : SpecSchema} {doc : YamlDocument} {spec : Spec}
    (read : documentSpec schema doc = .ok spec) :
    (doc.walked.diagnostics.any fun diagnostic => diagnostic.code = js "SPC0001") = false ∧
      schema.safeParse doc.walked.value = .ok spec := by
  rw [documentSpec] at read
  split_ifs at read with reported
  refine ⟨by simpa using reported, ?_⟩
  cases parsed : schema.safeParse doc.walked.value with
  | error issues => rw [parsed] at read; cases read
  | ok found => rw [parsed] at read; cases read; rfl

theorem hasErrors_map {α : Type} {items : List α} {report : α → Diagnostic} (some : items ≠ [])
    (each : ∀ item, (report item).severity = .error) : hasErrors (items.map report) = true := by
  cases items with
  | nil => exact absurd rfl some
  | cons item rest => simp [hasErrors, each]

theorem severity_schemaDiagnostic (issue : Issue) : (schemaDiagnostic issue).severity = .error := by
  rw [schemaDiagnostic]
  split_ifs <;> rfl

theorem soleDocument_refuses {yaml : YamlParser} {source file : JsString}
    {diagnostics : List Diagnostic} (refused : soleDocument yaml source file = .error diagnostics) :
    hasErrors diagnostics = true := by
  rw [soleDocument] at refused
  cases parsed : yaml source with
  | error message =>
      rw [parsed] at refused
      cases refused
      rfl
  | ok documents =>
      rw [parsed] at refused
      match documents with
      | [] => cases refused; rfl
      | _ :: _ :: _ => cases refused; rfl
      | [doc] =>
          simp only at refused
          split_ifs at refused with sound
          cases refused
          exact hasErrors_map sound fun _ => rfl

theorem documentSpec_refuses {schema : SpecSchema} {doc : YamlDocument}
    {diagnostics : List Diagnostic} (refused : documentSpec schema doc = .error diagnostics) :
    hasErrors diagnostics = true := by
  rw [documentSpec] at refused
  split_ifs at refused with reported
  · cases refused
    obtain ⟨diagnostic, here, -⟩ := List.any_eq_true.mp reported
    have complaint := walkNode_complaints doc doc.walked_eq diagnostic here
    exact List.any_eq_true.mpr ⟨diagnostic, here, by rw [complaint.2]; rfl⟩
  · cases parsed : schema.safeParse doc.walked.value with
    | ok spec => rw [parsed] at refused; cases refused
    | error issues =>
        rw [parsed] at refused
        cases refused
        rw [hasErrors, List.any_append, Bool.or_eq_true]
        exact Or.inr (hasErrors_map (schema.complains _ _ parsed) severity_schemaDiagnostic)

theorem readSource_of_sole {yaml : YamlParser} {schema : SpecSchema} {source file : JsString}
    {doc : YamlDocument} (sole : soleDocument yaml source file = .ok doc) :
    readSource yaml schema source file = documentSpec schema doc := by
  rw [readSource, sole]
  rfl

/-- What a source is refused with, when it is refused. -/
def complaintsOf (yaml : YamlParser) (schema : SpecSchema) (source file : JsString) :
    List Diagnostic :=
  match readSource yaml schema source file with
  | .error diagnostics => diagnostics
  | .ok _ => []

/-- Whether a source is refused does not depend on the name of its file. -/
theorem readSource_refuses (yaml : YamlParser) (schema : SpecSchema) (source file : JsString)
    (refused : (readSource yaml schema source []).toOption = none) :
    hasErrors (complaintsOf yaml schema source file) = true := by
  rw [complaintsOf]
  cases here : soleDocument yaml source file with
  | error diagnostics =>
      rw [readSource, here]
      exact soleDocument_refuses here
  | ok doc =>
      rw [readSource_of_sole (soleDocument_eq_ok.mpr (soleDocument_eq_ok.mp here))] at refused
      rw [readSource_of_sole here]
      cases read : documentSpec schema doc with
      | error diagnostics => exact documentSpec_refuses read
      | ok spec => rw [read] at refused; cases refused

/-- The parser of specifications that the compiler is. -/
def yamlSpecs (yaml : YamlParser) (schema : SpecSchema) : Parser where
  document source := (readSource yaml schema source []).toOption
  complaints := complaintsOf yaml schema
  refuses source file := readSource_refuses yaml schema source file

/-- A specification comes from one document without errors, on which the walk was silent. -/
theorem document_yamlSpecs {yaml : YamlParser} {schema : SpecSchema} {source : JsString} {spec : Spec}
    (read : (yamlSpecs yaml schema).document source = some spec) :
    ∃ doc, yaml source = .ok [doc] ∧ doc.errors = [] ∧
      (doc.walked.diagnostics.any fun diagnostic => diagnostic.code = js "SPC0001") = false ∧
      schema.safeParse doc.walked.value = .ok spec := by
  have found : (readSource yaml schema source []).toOption = some spec := read
  cases sole : soleDocument yaml source [] with
  | error diagnostics => rw [readSource, sole] at found; cases found
  | ok doc =>
      rw [readSource_of_sole sole] at found
      cases parsed : documentSpec schema doc with
      | error diagnostics => rw [parsed] at found; cases found
      | ok result =>
          rw [parsed] at found
          cases found
          obtain ⟨here, sound⟩ := soleDocument_eq_ok.mp sole
          obtain ⟨silent, checked⟩ := documentSpec_eq_ok parsed
          exact ⟨doc, here, sound, silent, checked⟩

end SpecAsCode.Compiler
