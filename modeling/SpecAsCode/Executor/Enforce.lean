import SpecAsCode.Core.Glob

/-!
# Write scope

The paths that a task has changed are checked against its write targets, and against the paths
that no task may change.
-/

namespace SpecAsCode.Executor

open SpecAsCode.Js
open SpecAsCode.Core

structure ScopeViolation where
  path : JsString
  code : JsString
  reason : JsString
  deriving DecidableEq

/-- A path in double quotes. -/
def quotedPath (path : JsString) : JsString :=
  unit '\x22' :: path ++ [unit '\x22']

def protectedViolation (path : JsString) : ScopeViolation where
  path := path
  code := js "PROTECTED_PATH_WRITE"
  reason := quotedPath path ++ js (" is a protected verification asset " ++
    "(verification.protectedPaths); no task may change it. Change it deliberately outside a " ++
    "run, as a human edit")

def enforceProtectedPaths (protectedPatterns changedPaths : List JsString) :
    List ScopeViolation :=
  if protectedPatterns = [] then
    []
  else
    (changedPaths.filter fun raw => globMatchAny protectedPatterns (normalizeRelPath raw)).map
      protectedViolation

/-- The violation of a changed path, if it is one. -/
def scopeViolation (writePatterns : List JsString) (raw : JsString) : Option ScopeViolation :=
  let path := normalizeRelPath raw
  if isSafeRelativePath path = false then
    some ⟨raw, js "UNSAFE_PATH", quotedPath raw ++ js " is not a safe relative path"⟩
  else if globMatchAny writePatterns path = false then
    some ⟨raw, js "OUT_OF_SCOPE_WRITE",
      if writePatterns = [] then
        js "task declares no write targets but changed " ++ quotedPath raw
      else
        quotedPath raw ++ js " does not match any declared write target"⟩
  else
    none

def enforceWriteScope (writePatterns changedPaths : List JsString) : List ScopeViolation :=
  changedPaths.filterMap (scopeViolation writePatterns)

theorem scopeViolation_eq_none {writePatterns : List JsString} {raw : JsString} :
    scopeViolation writePatterns raw = none ↔
      isSafeRelativePath (normalizeRelPath raw) = true ∧
        globMatchAny writePatterns (normalizeRelPath raw) = true := by
  rw [scopeViolation]
  cases isSafeRelativePath (normalizeRelPath raw) with
  | false => simp
  | true =>
      cases globMatchAny writePatterns (normalizeRelPath raw) with
      | false => simp
      | true => simp

/-- Nothing is reported if and only if every changed path is a safe one in the write targets. -/
theorem enforceWriteScope_eq_nil {writePatterns changedPaths : List JsString} :
    enforceWriteScope writePatterns changedPaths = [] ↔
      ∀ path ∈ changedPaths, isSafeRelativePath (normalizeRelPath path) = true ∧
        globMatchAny writePatterns (normalizeRelPath path) = true := by
  rw [enforceWriteScope, List.filterMap_eq_nil_iff]
  exact forall₂_congr fun path _ => scopeViolation_eq_none

/-- A violation names a changed path. -/
theorem path_of_enforceWriteScope {writePatterns changedPaths : List JsString}
    {violation : ScopeViolation} (member : violation ∈ enforceWriteScope writePatterns changedPaths) :
    violation.path ∈ changedPaths := by
  obtain ⟨raw, changed, reported⟩ := List.mem_filterMap.mp member
  rw [scopeViolation] at reported
  split_ifs at reported <;>
    (cases reported
     exact changed)

end SpecAsCode.Executor
