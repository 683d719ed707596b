import SpecAsCode.Js.OrderedMap
import SpecAsCode.Schema.Property

/-!
# Suite references

A criterion that names a suite is turned into the command of the suite before anything is
evaluated.
-/

namespace SpecAsCode.Verifier

open SpecAsCode.Js
open SpecAsCode.Schema

structure SuiteProvenance where
  suite : JsString
  suiteDigest : JsString
  deriving DecidableEq

structure SuiteRegistryEntry where
  id : JsString
  command : JsString
  digest : JsString
  deriving DecidableEq

/-- The suites by the reference that finds them. -/
abbrev SuiteRegistry := JsString → Option SuiteRegistryEntry

/-- Why a sweep is given up. -/
inductive VerifyError where
  /-- `SPC_SUITE_UNKNOWN`. -/
  | suiteUnknown (ref criterionId : JsString)
  /-- `SPC_SUITE_UNRESOLVED`. -/
  | suiteUnresolved
  /-- The provider gave no answer. -/
  | provider (criterionId : JsString)
  deriving DecidableEq

/-- The command form of a criterion. -/
def normalizeCriterion (suites : SuiteRegistry) :
    AcceptanceCriterion → Except VerifyError AcceptanceCriterion
  | .suite id ref _ =>
      match suites ref with
      | none => .error (.suiteUnknown ref id)
      | some entry => .ok (.command id entry.command (some 0) none none)
  | criterion => .ok criterion

/-- One property of `normalizeSuiteCriteria`. -/
def normalizeProperty (suites : SuiteRegistry) (property : DesiredProperty) :
    Except VerifyError DesiredProperty :=
  (property.acceptance.mapM (normalizeCriterion suites)).map fun acceptance =>
    { property with acceptance }

/-- The entry a criterion leaves in the map of suite provenance. -/
def noteProvenance (suites : SuiteRegistry) (provenance : OrderedMap JsString SuiteProvenance) :
    AcceptanceCriterion → OrderedMap JsString SuiteProvenance
  | .suite id ref _ =>
      match suites ref with
      | none => provenance
      | some entry => provenance.set id ⟨entry.id, entry.digest⟩
  | _ => provenance

/-- `normalizeSuiteCriteria`: the properties and the suites their criteria came from. -/
def normalizeSuiteCriteria (properties : List DesiredProperty) (suites : SuiteRegistry) :
    Except VerifyError (List DesiredProperty × OrderedMap JsString SuiteProvenance) :=
  (properties.mapM (normalizeProperty suites)).map fun normalized =>
    (normalized,
      (properties.flatMap (·.acceptance)).foldl (noteProvenance suites) OrderedMap.empty)

/-- What normalization does to one criterion: the mark of a suite is not carried over. -/
inductive Normalized : AcceptanceCriterion → AcceptanceCriterion → Prop where
  | kept {criterion : AcceptanceCriterion} (plain : criterion.type ≠ .suite) :
      Normalized criterion criterion
  | resolved (id ref command : JsString) (mark : Option Bool) :
      Normalized (.suite id ref mark) (.command id command (some 0) none none)

theorem normalizeCriterion_ok {suites : SuiteRegistry} {criterion normal : AcceptanceCriterion}
    (result : normalizeCriterion suites criterion = .ok normal) : Normalized criterion normal := by
  cases criterion with
  | suite id ref mark =>
      rw [normalizeCriterion] at result
      split at result
      · cases result
      · cases result
        exact .resolved id ref _ mark
  | command => cases result; exact .kept (by simp [AcceptanceCriterion.type])
  | file => cases result; exact .kept (by simp [AcceptanceCriterion.type])
  | agent => cases result; exact .kept (by simp [AcceptanceCriterion.type])
  | human => cases result; exact .kept (by simp [AcceptanceCriterion.type])

theorem Normalized.id_eq {criterion normal : AcceptanceCriterion}
    (normalized : Normalized criterion normal) : normal.id = criterion.id := by
  cases normalized with
  | kept => rfl
  | resolved => rfl

theorem Normalized.isDeterministic_eq {criterion normal : AcceptanceCriterion}
    (normalized : Normalized criterion normal) :
    isDeterministicCriterion normal = isDeterministicCriterion criterion := by
  cases normalized with
  | kept => rfl
  | resolved => rfl

/-- The results of a list of fallible calls, one by one. -/
theorem forall₂_of_mapM {α β ε : Type} {f : α → Except ε β} {list : List α} {results : List β}
    (all : list.mapM f = .ok results) :
    List.Forall₂ (fun item result => f item = .ok result) list results := by
  induction list generalizing results with
  | nil =>
      cases all
      exact .nil
  | cons item list inductionHypothesis =>
      rw [List.mapM_cons] at all
      cases first : f item with
      | error error => rw [first] at all; cases all
      | ok result =>
          cases rest : list.mapM f with
          | error error => rw [first, rest] at all; cases all
          | ok others =>
              rw [first, rest] at all
              cases all
              exact .cons first (inductionHypothesis rest)

/-- A property and what normalization makes of it. -/
structure NormalizedProperty (property normal : DesiredProperty) : Prop where
  id : normal.id = property.id
  acceptance : List.Forall₂ Normalized property.acceptance normal.acceptance

theorem normalizeProperty_ok {suites : SuiteRegistry} {property normal : DesiredProperty}
    (result : normalizeProperty suites property = .ok normal) :
    NormalizedProperty property normal := by
  rw [normalizeProperty] at result
  cases criteria : property.acceptance.mapM (normalizeCriterion suites) with
  | error error => rw [criteria] at result; cases result
  | ok acceptance =>
      rw [criteria] at result
      cases result
      exact ⟨rfl, (forall₂_of_mapM criteria).imp fun _ _ => normalizeCriterion_ok⟩

theorem normalizeSuiteCriteria_ok {suites : SuiteRegistry} {properties normalized : List DesiredProperty}
    {provenance : OrderedMap JsString SuiteProvenance}
    (result : normalizeSuiteCriteria properties suites = .ok (normalized, provenance)) :
    List.Forall₂ NormalizedProperty properties normalized := by
  rw [normalizeSuiteCriteria] at result
  cases each : properties.mapM (normalizeProperty suites) with
  | error error => rw [each] at result; cases result
  | ok found =>
      rw [each] at result
      cases result
      exact (forall₂_of_mapM each).imp fun _ _ => normalizeProperty_ok

end SpecAsCode.Verifier
