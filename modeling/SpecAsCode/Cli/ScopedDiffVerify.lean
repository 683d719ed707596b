import SpecAsCode.Runtime.Verify

/-!
# Verification scoped to a diff

Criteria that a diff cannot have touched are left out of their properties, and what is left
is checked in stores that nothing else reads.
-/

namespace SpecAsCode.Cli

open SpecAsCode.Js
open SpecAsCode.Schema
open SpecAsCode.Verifier
open SpecAsCode.Runtime

/-- What the decision to skip is made from. -/
structure DiffScope where
  /-- The paths of the diff. -/
  changed : List JsString
  /-- The tracked files in the scope a command declares; none for a command without one. -/
  scopeFiles : JsString → Option (List JsString)
  suites : Option SuiteRegistry

/-- A command whose declared scope the diff does not touch. -/
def DiffScope.skipsCommand (scope : DiffScope) (command : JsString) : Bool :=
  if command = [] then
    false
  else
    match scope.scopeFiles command with
    | none => false
    | some files => !files.isEmpty && files.all fun file => !scope.changed.contains file

/-- Whether a criterion is skipped. -/
def DiffScope.skips (scope : DiffScope) : AcceptanceCriterion → Bool
  | .file _ path _ _ => !scope.changed.contains path
  | .command _ command _ _ _ => scope.skipsCommand command
  | .suite _ ref _ => scope.skipsCommand ((scope.suites.bind (· ref)).elim [] (·.command))
  | .agent .. => false
  | .human .. => false

/-- `skipIds`, over all specifications. -/
def DiffScope.skipIds (scope : DiffScope) (specs : List (List DesiredProperty)) : List JsString :=
  ((specs.flatten.flatMap (·.acceptance)).filter scope.skips).map (·.id)

/-- A property without the criteria that are skipped. -/
def withoutSkipped (skipIds : List JsString) (property : DesiredProperty) : DesiredProperty :=
  { property with acceptance := property.acceptance.filter fun criterion =>
      !skipIds.contains criterion.id }

section Sweeps

variable (sha256Hex : JsString → JsString) (surroundings : Surroundings)

/-- One sweep for each specification, into the same stores. -/
def scopedSweeps (input : SweepInput) (skipIds : List JsString) :
    List (List DesiredProperty) → RunRecords →
      RunRecords × Except VerifyError (List (List RequirementState))
  | [], records => (records, .ok [])
  | properties :: specs, records =>
      match verifyProperties sha256Hex surroundings
          { input with properties := properties.map (withoutSkipped skipIds) } records with
      | (next, .error error) => (next, .error error)
      | (next, .ok result) =>
          let rest := scopedSweeps input skipIds specs next
          (rest.1, rest.2.map fun states => result.states :: states)

/-- `runScopedDiffVerify`: the throwaway records and the states it reports, a list for each
specification.  The other fields of `input` are those of the configuration. -/
def runScopedDiffVerify (scope : DiffScope) (input : SweepInput)
    (specs : List (List DesiredProperty)) :
    RunRecords × Except VerifyError (List (List RequirementState)) :=
  scopedSweeps sha256Hex surroundings
    { input with
      runId := js "scoped-diff-report", revision := js "HEAD", taskId := none, red := false
      enforceRedPhase := false, environmentReady := true, suites := scope.suites
      inheritedFlips := fun _ => none }
    (scope.skipIds specs) specs RunRecords.fresh

end Sweeps

end SpecAsCode.Cli
