import SpecAsCode.Runtime.LogFile

/-!
# Runs on disk

Every run has a directory.  Apply runs that continue an earlier one name it, and the chain
of these names is walked from the newest run to the oldest.
-/

namespace SpecAsCode.Runtime

open SpecAsCode.Js
open SpecAsCode.Text

/-- The metadata of a run. -/
structure RunMeta where
  runId : JsString
  specId : JsString
  specDigest : JsString
  planId : Option JsString
  baseRevision : Option JsString
  parentRunId : Option JsString
  deriving DecidableEq

/-- The files of a run directory: the metadata as `loadRunMeta` returns them, the evidence
log and the state. -/
structure RunFolder where
  metadata : Option RunMeta
  evidence : Option (List Octet)
  state : Option JsString

/-- The directory of all runs. -/
structure RunsDir where
  ids : List JsString
  folder : JsString → RunFolder
  listed : ∀ id, (folder id).metadata ≠ none → id ∈ ids

/-- `loadRunMeta(runsDir, id)?.parentRunId`. -/
def RunsDir.parentOf (runs : RunsDir) (id : JsString) : Option JsString :=
  (runs.folder id).metadata.bind RunMeta.parentRunId

/-- The loop over the parents, with a bound on its passes. -/
def chainWalk (runs : RunsDir) : Nat → List JsString → Option JsString → List JsString
  | 0, _, _ => []
  | _ + 1, _, none => []
  | fuel + 1, visited, some cursor =>
      if cursor = [] ∨ cursor ∈ visited then
        []
      else
        cursor :: chainWalk runs fuel (cursor :: visited) (runs.parentOf cursor)

/-- The runs a run continues, nearest first. -/
def ancestorIds (runs : RunsDir) (run : RunMeta) : List JsString :=
  chainWalk runs (runs.ids.length + 1) [run.runId] run.parentRunId

/-- The runs with metadata that have not been visited. -/
def RunsDir.unvisited (runs : RunsDir) (visited : List JsString) : List JsString :=
  runs.ids.filter fun id => id ∉ visited

theorem RunsDir.unvisited_cons_lt (runs : RunsDir) {visited : List JsString} {id : JsString}
    (known : id ∈ runs.ids) (fresh : id ∉ visited) :
    (runs.unvisited (id :: visited)).length < (runs.unvisited visited).length := by
  have split : runs.unvisited (id :: visited) = (runs.unvisited visited).filter fun other =>
      other ≠ id := by
    rw [RunsDir.unvisited, RunsDir.unvisited, List.filter_filter]
    refine List.filter_congr fun other _ => ?_
    simp [not_or]
  rw [split]
  exact List.length_filter_lt_length_iff_exists.mpr
    ⟨id, List.mem_filter.mpr ⟨known, by simpa using fresh⟩, by simp⟩

/-- A bound of one more than the unvisited runs is large enough. -/
theorem chainWalk_enough (runs : RunsDir) {fuel : Nat} {visited : List JsString}
    (cursor : Option JsString) (enough : (runs.unvisited visited).length < fuel) (more : Nat) :
    chainWalk runs (fuel + more) visited cursor = chainWalk runs fuel visited cursor := by
  induction fuel generalizing visited cursor with
  | zero => exact absurd enough (Nat.not_lt_zero _)
  | succ fuel inductionHypothesis =>
      rw [Nat.succ_add]
      cases cursor with
      | none => rfl
      | some id =>
          rw [chainWalk, chainWalk]
          split_ifs with stop
          · rfl
          rw [not_or] at stop
          congr 1
          by_cases known : id ∈ runs.ids
          · exact inductionHypothesis _
              (lt_of_lt_of_le (runs.unvisited_cons_lt known stop.2) (Nat.lt_succ_iff.mp enough))
          · have orphan : runs.parentOf id = none := by
              cases found : (runs.folder id).metadata with
              | none => rw [RunsDir.parentOf, found]; rfl
              | some _ => exact absurd (runs.listed id (by simp [found])) known
            rw [orphan]
            cases fuel with
            | zero => cases more <;> rfl
            | succ fuel => rw [Nat.succ_add]; rfl

/-- The walk ends before its bound. -/
theorem ancestorIds_complete (runs : RunsDir) (run : RunMeta) (more : Nat) :
    chainWalk runs (runs.ids.length + 1 + more) [run.runId] run.parentRunId =
      ancestorIds runs run :=
  chainWalk_enough runs _ (Nat.lt_succ_of_le (List.length_filter_le _ _)) more

end SpecAsCode.Runtime
