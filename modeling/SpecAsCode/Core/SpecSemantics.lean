import SpecAsCode.Core.Cycles
import SpecAsCode.Core.RelPath
import SpecAsCode.Core.SpecDigest
import SpecAsCode.Js.Numeral

/-!
# The semantic checks of specifications

What the schema does not check: identifiers that are used once, criteria that are complete, and
dependencies that resolve and have no cycle.
-/

namespace SpecAsCode.Compiler

open SpecAsCode.Js
open SpecAsCode.Core
open SpecAsCode.Lib
open SpecAsCode.Schema (Priority)

/-- `warning(code, message)`. -/
def warning (code message : JsString) : Diagnostic where
  code := code
  severity := .warning
  message := message
  related := none

/-- One of the requirements or of the constraints, with what the checks read of it. -/
structure PropertySlot where
  kind : PropertyKind
  index : Nat
  id : JsString
  priority : Option Priority
  category : Option RequirementCategory
  dependsOn : List JsString
  acceptance : List AcceptanceCriterion

/-- `base`. -/
def PropertyKind.base : PropertyKind → JsString
  | .requirement => js "requirements"
  | .constraint => js "constraints"

def slotOf (kind : PropertyKind) (index : Nat) (source : PropertySource) : PropertySlot where
  kind := kind
  index := index
  id := source.id
  priority := source.priority
  category := source.category
  dependsOn := source.dependsOn.getD []
  acceptance := source.acceptance.getD []

def slots (spec : Spec) : List PropertySlot :=
  (spec.requirements.mapIdx fun index requirement => slotOf .requirement index requirement.source) ++
    (spec.constraints.getD []).mapIdx fun index constraint =>
      slotOf .constraint index constraint.source

/-- Both kinds default to `must`. -/
def effectivePriority (slot : PropertySlot) : Priority :=
  slot.priority.getD .must

/-! ## Checks of one file -/

/-- SPC1001, for the properties after those seen. -/
def duplicateProperties : List PropertySlot → List PropertySlot → List Diagnostic
  | _, [] => []
  | firstSeen, slot :: rest =>
      match firstSeen.find? fun other => other.id = slot.id with
      | some prior =>
          error (js "SPC1001")
            (js "duplicate property id " ++ slot.id ++ js ": defined as a " ++ prior.kind.text ++
              js " and again as a " ++ slot.kind.text ++ js ".")
            (some [js "first definition: " ++ prior.kind.base ++ js "[" ++ natText prior.index ++
              js "]"]) :: duplicateProperties firstSeen rest
      | none => duplicateProperties (firstSeen ++ [slot]) rest

/-- The criteria, each with its property. -/
def criteriaOf (props : List PropertySlot) : List (PropertySlot × AcceptanceCriterion) :=
  props.flatMap fun slot => slot.acceptance.map fun criterion => (slot, criterion)

/-- SPC1001 for criteria, after those with the identifiers seen. -/
def duplicateCriteria : List JsString → List (PropertySlot × AcceptanceCriterion) → List Diagnostic
  | _, [] => []
  | seen, (slot, criterion) :: rest =>
      if criterion.id ∈ seen then
        error (js "SPC1001")
          (js "duplicate acceptance criterion id " ++ criterion.id ++ js " on property " ++ slot.id ++
            js ".") none :: duplicateCriteria seen rest
      else
        duplicateCriteria (seen ++ [criterion.id]) rest

/-- SPC1004 and SPC1005. -/
def withoutAcceptance (props : List PropertySlot) : List Diagnostic :=
  (props.filter fun slot => slot.acceptance.isEmpty).map fun slot =>
    if effectivePriority slot = .must then
      error (js "SPC1004")
        (slot.kind.text ++ js " " ++ slot.id ++
          js (" has priority \"must\" but no acceptance criteria; must-properties must be" ++
            " verifiable.")) none
    else
      warning (js "SPC1005")
        (slot.kind.text ++ js " " ++ slot.id ++ js " has priority \"" ++
          priorityText (effectivePriority slot) ++
          js "\" and no acceptance criteria; it cannot be verified mechanically.")

/-- `HIGH_ASSURANCE_CATEGORIES.includes(category)`. -/
def highAssurance (category : RequirementCategory) : Bool :=
  category = .security || category = .compliance

/-- `c.type === "command" || c.type === "file"`. -/
def isMechanical (criterion : AcceptanceCriterion) : Bool :=
  criterion.type = .command || criterion.type = .file

/-- SPC1009. -/
def withoutMechanicalCriterion (props : List PropertySlot) : List Diagnostic :=
  props.flatMap fun slot =>
    match slot.category with
    | none => []
    | some category =>
        if highAssurance category ∧ effectivePriority slot = .must ∧ slot.acceptance ≠ [] ∧
            ¬ slot.acceptance.any isMechanical then
          [warning (js "SPC1009")
            (slot.kind.text ++ js " " ++ slot.id ++ js " is categorized \"" ++ category.text ++
              js ("\" but has no command/file acceptance criterion; high-assurance properties" ++
                " deserve deterministic verification wherever possible."))]
        else
          []

/-- SPC1011. -/
def unsafePaths (props : List PropertySlot) : List Diagnostic :=
  (criteriaOf props).flatMap fun (slot, criterion) =>
    match criterion with
    | .file id path _ _ =>
        if isSafeRelativePath path then
          []
        else
          [error (js "SPC1011")
            (js "file criterion " ++ id ++ js " on " ++ slot.kind.text ++ js " " ++ slot.id ++
              js " has an unsafe path \"" ++ path ++
              js "\"; criterion paths must stay inside the repository") none]
    | _ => []

/-- SPC1010. -/
def judgedDiscriminating (props : List PropertySlot) : List Diagnostic :=
  (criteriaOf props).flatMap fun (slot, criterion) =>
    if (criterion.type = .agent ∨ criterion.type = .human) ∧
        criterion.discriminating = some true then
      [error (js "SPC1010")
        (js "acceptance criterion " ++ criterion.id ++ js " on " ++ slot.kind.text ++ js " " ++
          slot.id ++ js " is \"" ++ criterionType criterion.type ++
          js ("\" and cannot be discriminating; only command/file criteria can require a red" ++
            " phase.")) none]
    else
      []

def validateSpecLocal (spec : Spec) : List Diagnostic :=
  duplicateProperties [] (slots spec) ++ duplicateCriteria [] (criteriaOf (slots spec)) ++
    withoutAcceptance (slots spec) ++ withoutMechanicalCriterion (slots spec) ++
    unsafePaths (slots spec) ++ judgedDiscriminating (slots spec)

/-! ## Checks of references -/

/-- SPC1002. -/
def unknownReferences (props : List PropertySlot) : List Diagnostic :=
  props.flatMap fun slot =>
    (slot.dependsOn.filter fun dep => dep ∉ props.map PropertySlot.id).map fun dep =>
      error (js "SPC1002")
        (js "Property " ++ slot.id ++ js " references unknown dependency " ++ dep ++ js ".")
        (some (sortUnique (props.map PropertySlot.id)))

/-- `props.find((p) => p.id === id)?.dependsOn ?? []`. -/
def referenceEdges (props : List PropertySlot) (id : JsString) : List JsString :=
  ((props.find? fun slot => slot.id = id).map PropertySlot.dependsOn).getD []

/-- SPC1003. -/
def referenceCycle (props : List PropertySlot) : List Diagnostic :=
  match (findCycle (props.length + 1) (props.map PropertySlot.id) (referenceEdges props)).join with
  | none => []
  | some cycle =>
      [error (js "SPC1003")
        (js "property dependency cycle detected: " ++ joinTexts (js " -> ") cycle ++ js ".") none]

def validateSpecCrossRefs (spec : Spec) : List Diagnostic :=
  unknownReferences (slots spec) ++ referenceCycle (slots spec)

/-! ## What the checks find out -/

theorem hasErrors_append (first second : List Diagnostic) :
    hasErrors (first ++ second) = (hasErrors first || hasErrors second) :=
  List.any_append

theorem hasErrors_cons_error (code message : JsString) (related : Option (List JsString))
    (rest : List Diagnostic) : hasErrors (error code message related :: rest) = true := rfl

/-- The requirements and then the constraints. -/
def propertySources (spec : Spec) : List PropertySource :=
  spec.source.requirements ++ spec.source.constraints.getD []

theorem map_mapIdx_of_forall {α β γ : Type} {write : Nat → α → β} {view : β → γ} {read : α → γ}
    (same : ∀ index item, view (write index item) = read item) (items : List α) :
    (items.mapIdx write).map view = items.map read := by
  induction items generalizing write with
  | nil => rfl
  | cons item items inductionHypothesis =>
      rw [List.mapIdx_cons, List.map_cons, List.map_cons, same,
        inductionHypothesis fun index item => same (index + 1) item]

/-- What does not depend on the place of a property is read of its source. -/
theorem map_slots {β : Type} (view : PropertySlot → β) (read : PropertySource → β)
    (same : ∀ kind index source, view (slotOf kind index source) = read source) (spec : Spec) :
    (slots spec).map view = (propertySources spec).map read := by
  rw [slots, propertySources, List.map_append, List.map_append, Spec.source, getD_map_source,
    List.map_map, List.map_map]
  exact congrArg₂ (· ++ ·)
    (map_mapIdx_of_forall (fun index requirement => same _ index requirement.source) _)
    (map_mapIdx_of_forall (fun index constraint => same _ index constraint.source) _)

/-- The identifiers of the criteria of a specification. -/
def criterionIds (spec : Spec) : List JsString :=
  (propertySources spec).flatMap fun source =>
    (source.acceptance.getD []).map AcceptanceCriterion.id

theorem map_criteriaOf (spec : Spec) :
    (criteriaOf (slots spec)).map (fun entry => entry.2.id) = criterionIds spec := by
  rw [criteriaOf, List.map_flatMap, criterionIds]
  simp only [List.map_map, Function.comp_def]
  rw [List.flatMap_def, List.flatMap_def]
  exact congrArg List.flatten (map_slots _ _ (fun _ _ _ => rfl) spec)

theorem nodup_of_duplicateCriteria {entries : List (PropertySlot × AcceptanceCriterion)}
    {seen : List JsString} (silent : hasErrors (duplicateCriteria seen entries) = false) :
    (entries.map fun entry => entry.2.id).Nodup ∧ ∀ entry ∈ entries, entry.2.id ∉ seen := by
  induction entries generalizing seen with
  | nil => simp
  | cons entry entries inductionHypothesis =>
      obtain ⟨slot, criterion⟩ := entry
      rw [duplicateCriteria] at silent
      split_ifs at silent with known
      · cases silent
      · obtain ⟨distinct, fresh⟩ := inductionHypothesis silent
        rw [List.map_cons, List.nodup_cons]
        refine ⟨⟨fun found => ?_, distinct⟩, fun other member => ?_⟩
        · obtain ⟨other, member, same⟩ := List.mem_map.mp found
          exact fresh other member (List.mem_append_right _ (by simp [same]))
        · rcases List.mem_cons.mp member with rfl | later
          · exact known
          · exact fun old => fresh other later (List.mem_append_left _ old)

/-- A file without errors uses each criterion identifier once. -/
theorem nodup_criterionIds {spec : Spec} (silent : hasErrors (validateSpecLocal spec) = false) :
    (criterionIds spec).Nodup := by
  simp only [validateSpecLocal, hasErrors_append, Bool.or_eq_false_iff] at silent
  rw [← map_criteriaOf]
  exact (nodup_of_duplicateCriteria silent.1.1.1.1.2).1

theorem resolved_of_unknownReferences {props : List PropertySlot}
    (silent : hasErrors (unknownReferences props) = false) :
    ∀ slot ∈ props, ∀ dep ∈ slot.dependsOn, dep ∈ props.map PropertySlot.id := by
  intro slot member dep named
  by_contra unknown
  have found : hasErrors (unknownReferences props) = true := by
    rw [hasErrors, List.any_eq_true]
    exact ⟨_, List.mem_flatMap.mpr ⟨slot, member, List.mem_map.mpr
      ⟨dep, List.mem_filter.mpr ⟨named, by simpa using unknown⟩, rfl⟩⟩, rfl⟩
  rw [found] at silent
  cases silent

theorem referenceEdges_supported (props : List PropertySlot) (id : JsString)
    (edge : referenceEdges props id ≠ []) : id ∈ props.map PropertySlot.id := by
  rw [referenceEdges] at edge
  cases found : props.find? fun slot => slot.id = id with
  | none => rw [found] at edge; exact absurd rfl edge
  | some slot =>
      have same := List.find?_some found
      exact List.mem_map.mpr ⟨slot, List.mem_of_find?_eq_some found, by simpa using same⟩

/-- No error about cycles means that there are none. -/
theorem acyclic_of_referenceCycle {props : List PropertySlot}
    (silent : hasErrors (referenceCycle props) = false) :
    ∀ id ∈ props.map PropertySlot.id, ¬ OnCycle (referenceEdges props) id := by
  obtain ⟨result, ran⟩ := findCycle_ends (referenceEdges_supported props)
    (by rw [List.length_map]; exact Nat.lt_succ_self _) (props.map PropertySlot.id)
  rw [referenceCycle, ran] at silent
  cases result with
  | some cycle => cases silent
  | none => exact fun id member => findCycle_none ran id member id .refl

end SpecAsCode.Compiler
