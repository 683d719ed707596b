import SpecAsCode.Core.SpecDocument
import Mathlib.Data.List.Dedup

/-!
# What the digest of a specification keeps

Two specifications have one digest exactly when they say the same once their defaults are
filled in and their dependencies are read as sets.
-/

namespace SpecAsCode.Compiler

open SpecAsCode.Js
open SpecAsCode.Core
open SpecAsCode.Schema (Priority)

/-! ## Lists read as sets -/

/-- The lists have the same members. -/
def SameSet (first second : List JsString) : Prop :=
  ∀ text, text ∈ first ↔ text ∈ second

theorem SameSet.refl (texts : List JsString) : SameSet texts texts :=
  fun _ => Iff.rfl

theorem mem_sortUnique {texts : List JsString} {text : JsString} :
    text ∈ sortUnique texts ↔ text ∈ texts := by
  rw [sortUnique, List.mem_insertionSort, List.mem_dedup]

theorem sorted_sortUnique (texts : List JsString) :
    (sortUnique texts).Pairwise fun first second => first ≤ second := by
  have total : Std.Total (fun first second : JsString => first ≤ second) :=
    ⟨fun first second => le_total first second⟩
  have trans : IsTrans JsString (fun first second => first ≤ second) :=
    ⟨fun _ _ _ less next => le_trans less next⟩
  exact List.pairwise_insertionSort _ _

theorem nodup_sortUnique (texts : List JsString) : (sortUnique texts).Nodup :=
  (List.perm_insertionSort _ _).nodup_iff.mpr texts.nodup_dedup

/-- The sorted list of a set of texts is found from its members. -/
theorem sortUnique_eq_iff {first second : List JsString} :
    sortUnique first = sortUnique second ↔ SameSet first second := by
  constructor
  · intro equal text
    rw [← mem_sortUnique, equal, mem_sortUnique]
  · intro same
    have permuted := (List.perm_ext_iff_of_nodup (nodup_sortUnique first)
      (nodup_sortUnique second)).mpr fun text => by
        rw [mem_sortUnique, mem_sortUnique]
        exact same text
    exact permuted.eq_of_pairwise (fun _ _ _ _ less greater => le_antisymm less greater)
      (sorted_sortUnique first) (sorted_sortUnique second)

@[simp]
theorem sortUnique_sortUnique (texts : List JsString) :
    sortUnique (sortUnique texts) = sortUnique texts :=
  sortUnique_eq_iff.mpr fun _ => mem_sortUnique

/-! ## Specifications that say the same -/

/-- Equality of criteria, with the exit code 0 where none is written. -/
def AcceptanceCriterion.Same : AcceptanceCriterion → AcceptanceCriterion → Prop
  | .command id line expect timeoutMs mark,
      .command otherId otherLine otherExpect otherTimeout otherMark =>
      id = otherId ∧ line = otherLine ∧ exitCodeOf expect = exitCodeOf otherExpect ∧
        timeoutMs = otherTimeout ∧ mark = otherMark
  | first, second => first = second

theorem normalizeCriterion_eq_iff (first second : AcceptanceCriterion) :
    normalizeCriterion first = normalizeCriterion second ↔ first.Same second := by
  cases first <;> cases second <;> simp [normalizeCriterion, AcceptanceCriterion.Same]

@[simp]
theorem normalizeCriterion_normalizeCriterion (criterion : AcceptanceCriterion) :
    normalizeCriterion (normalizeCriterion criterion) = normalizeCriterion criterion := by
  cases criterion <;> rfl

/-- What requirements and constraints have in common, with a missing list as the empty one. -/
structure PropertyCommon.Same (first second : PropertyCommon) : Prop where
  id : first.id = second.id
  statement : first.statement = second.statement
  category : first.category = second.category
  dependsOn : SameSet (first.dependsOn.getD []) (second.dependsOn.getD [])
  acceptance : List.Forall₂ AcceptanceCriterion.Same (first.acceptance.getD [])
    (second.acceptance.getD [])
  metadata : Option.Rel UnknownRecord.Same first.metadata second.metadata

structure Requirement.Same (first second : Requirement) : Prop where
  common : first.toPropertyCommon.Same second.toPropertyCommon
  priority : first.priority = second.priority
  scope : first.scope = second.scope

structure Constraint.Same (first second : Constraint) : Prop where
  common : first.toPropertyCommon.Same second.toPropertyCommon
  priority : first.priority.getD .must = second.priority.getD .must

/-- The specifications are equal after their defaults are filled in and each list of
dependencies is read as a set. -/
structure Spec.Same (first second : Spec) : Prop where
  metadata : first.metadata = second.metadata
  goal : first.goal = second.goal
  imports : first.imports = second.imports
  environment : first.environment = second.environment
  requirements : List.Forall₂ Requirement.Same first.requirements second.requirements
  constraints : List.Forall₂ Constraint.Same (first.constraints.getD [])
    (second.constraints.getD [])
  outOfScope : first.outOfScope.getD [] = second.outOfScope.getD []

/-! ## Normalization keeps nothing else -/

theorem map_eq_map_iff_forall₂ {α β : Type} {Same : α → α → Prop} {normalize : α → β}
    (equal : ∀ first second, normalize first = normalize second ↔ Same first second)
    (first second : List α) :
    first.map normalize = second.map normalize ↔ List.Forall₂ Same first second := by
  rw [← List.forall₂_eq_eq_eq, List.forall₂_map_left_iff, List.forall₂_map_right_iff]
  simp only [equal]

theorem toProperty_same_iff (kind : PropertyKind) (first second : PropertySource) :
    (toProperty kind first).Same (toProperty kind second) ↔
      first.toPropertyCommon.Same second.toPropertyCommon ∧
        first.priority.getD .must = second.priority.getD .must ∧ first.scope = second.scope := by
  have dependencies := @sortUnique_eq_iff (first.dependsOn.getD []) (second.dependsOn.getD [])
  have criteria := map_eq_map_iff_forall₂ normalizeCriterion_eq_iff (first.acceptance.getD [])
    (second.acceptance.getD [])
  constructor
  · intro same
    exact ⟨⟨same.id, same.statement, same.category, dependencies.mp same.dependsOn,
      criteria.mp same.acceptance, same.metadata⟩, same.priority, same.scope⟩
  · rintro ⟨common, priority, scope⟩
    exact ⟨rfl, common.id, common.statement, priority, common.category,
      dependencies.mpr common.dependsOn, criteria.mpr common.acceptance, scope, common.metadata⟩

theorem requirement_same_iff (first second : Requirement) :
    (toProperty .requirement first.source).Same (toProperty .requirement second.source) ↔
      first.Same second := by
  rw [toProperty_same_iff]
  constructor
  · rintro ⟨common, priority, scope⟩
    exact ⟨common, priority, scope⟩
  · rintro ⟨common, priority, scope⟩
    exact ⟨common, priority, scope⟩

theorem constraint_same_iff (first second : Constraint) :
    (toProperty .constraint first.source).Same (toProperty .constraint second.source) ↔
      first.Same second := by
  rw [toProperty_same_iff]
  constructor
  · rintro ⟨common, priority, -⟩
    exact ⟨common, priority⟩
  · rintro ⟨common, priority⟩
    exact ⟨common, priority, rfl⟩

theorem getD_map_source (constraints : Option (List Constraint)) :
    (constraints.map fun constraints => constraints.map Constraint.source).getD [] =
      (constraints.getD []).map Constraint.source := by
  cases constraints <;> rfl

/-- Normalized specifications agree exactly when the written ones say the same. -/
theorem normalizeSpec_same_iff (first second : Spec) :
    (normalizeSpec first.source).Same (normalizeSpec second.source) ↔ first.Same second := by
  have requirements : List.Forall₂ DesiredProperty.Same (normalizeSpec first.source).requirements
      (normalizeSpec second.source).requirements ↔
      List.Forall₂ Requirement.Same first.requirements second.requirements := by
    simp only [normalizeSpec, Spec.source, List.forall₂_map_left_iff, List.forall₂_map_right_iff,
      requirement_same_iff]
  have constraints : List.Forall₂ DesiredProperty.Same (normalizeSpec first.source).constraints
      (normalizeSpec second.source).constraints ↔
      List.Forall₂ Constraint.Same (first.constraints.getD []) (second.constraints.getD []) := by
    simp only [normalizeSpec, Spec.source, getD_map_source, List.forall₂_map_left_iff,
      List.forall₂_map_right_iff, constraint_same_iff]
  constructor
  · intro same
    exact ⟨same.metadata, same.goal, same.imports, same.environment,
      requirements.mp same.requirements, constraints.mp same.constraints, same.outOfScope⟩
  · intro same
    exact ⟨same.metadata, same.goal, same.imports, same.environment,
      requirements.mpr same.requirements, constraints.mpr same.constraints, same.outOfScope⟩

/-! ## Normalizing twice -/

theorem toProperty_toProperty (kind : PropertyKind) (source : PropertySource) :
    toProperty kind (toProperty kind source).source = toProperty kind source := by
  simp [toProperty, DesiredProperty.source, Function.comp_def]

theorem normalizeSpec_normalizeSpec (input : SpecSource) :
    normalizeSpec (normalizeSpec input).source = normalizeSpec input := by
  simp [normalizeSpec, NormalizedSpec.source, Function.comp_def, toProperty_toProperty]

/-! ## Digests -/

theorem finalizeSpec_ok {sha256Hex : JsString → JsString} {spec : Spec}
    {importedFiles : Option (List JsString)} {ir : SpecIR}
    (finalized : finalizeSpec sha256Hex spec importedFiles = .ok ir) :
    digestOf sha256Hex (specDocument.value (normalizeSpec spec.source)) = .ok ir.digest ∧
      ir.spec = normalizeSpec spec.source ∧
      ir.properties = ir.spec.requirements ++ ir.spec.constraints ∧
      ir.importedFiles = listedFiles importedFiles := by
  rw [finalizeSpec] at finalized
  cases hashed : digestOf sha256Hex (specDocument.value (normalizeSpec spec.source)) with
  | error error => rw [hashed] at finalized; cases finalized
  | ok digest =>
      rw [hashed] at finalized
      cases finalized
      exact ⟨rfl, rfl, rfl, rfl⟩

/-- A specification compiles to a digest when hashing its normal form gives the digest. -/
def CompilesTo (sha256Hex : JsString → JsString) (spec : Spec) (digest : JsString) : Prop :=
  ∃ ir, finalizeSpec sha256Hex spec none = .ok ir ∧ ir.digest = digest

theorem compilesTo_iff {sha256Hex : JsString → JsString} {spec : Spec} {digest : JsString} :
    CompilesTo sha256Hex spec digest ↔
      digestOf sha256Hex (specDocument.value (normalizeSpec spec.source)) = .ok digest := by
  constructor
  · rintro ⟨ir, finalized, rfl⟩
    exact (finalizeSpec_ok finalized).1
  · intro hashed
    exact ⟨_, by rw [finalizeSpec, hashed]; rfl, rfl⟩

/-- A specification compiles to the digest of another one exactly when the two say the same. -/
theorem compilesTo_same_iff {sha256Hex : JsString → JsString}
    (injective : Function.Injective sha256Hex) {first : Spec} {digest : JsString}
    (compiled : CompilesTo sha256Hex first digest) (second : Spec) :
    CompilesTo sha256Hex second digest ↔ first.Same second := by
  rw [compilesTo_iff] at compiled ⊢
  rw [specDocument.digest_iff injective compiled, normalizeSpec_same_iff]

end SpecAsCode.Compiler
