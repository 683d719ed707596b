import SpecAsCode.Runtime.Freshness
import SpecAsCode.Runtime.TaskRevisions

/-!
# Histories of a repository

What the criteria of every recorded run met is the content of the commit that the run is anchored
at, as long as no run is executed elsewhere.
-/

namespace SpecAsCode.Runtime

open SpecAsCode.History
open SpecAsCode.Js
open SpecAsCode.Executor (Tree)
open SpecAsCode.Repo
open SpecAsCode.Runtime.Committing (noRenames)
open SpecAsCode.Schema

/-! ## What a decision promises -/

/-- A run met what there is now, and it held. -/
structure StillMet (host : Host) (world : World) (spec : SpecIR) (run : RecordedRun)
    (properties : List DesiredProperty) : Prop where
  content : ∀ content ∈ run.observed.contents, content = trackedContent world.working
  specDigest : run.observed.specDigest = spec.digest
  config : run.observed.config = world.configContent host
  held : ∀ property ∈ properties, run.record.viewedState.holds property = true

structure FreshnessSound (host : Host) (world : World) : Prop where
  cached : ∀ spec runId, world.freshnessCheck host spec = .ok runId →
    ∃ run, world.priorRun spec = some run ∧ run.record.runId = runId ∧
      StillMet host world spec run spec.properties
  standing : ∀ spec, world.postureFor host spec = .standing →
    ∃ run, world.latestRun spec = some run ∧ StillMet host world spec run (World.musts spec)

/-- No run is executed elsewhere than its records say, and no committed file has a blank name. -/
def Faithful (host : Host) (world : World) : FreshnessAct → Prop
  | .commit _ object => object.Named
  | .checkout _ _ => True
  | .edit _ => True
  | .configure _ => True
  | .verify call =>
      call.config = world.configContent host ∧
        (world.dirty host.renames = false → ∀ content ∈ call.later, content = world.head.tree)
  | .verifyRun runId call =>
      call.config = world.configContent host ∧
        (world.dirty host.renames = false → ∀ object, world.resultObject runId = some object →
          ∀ content ∈ object.tree :: call.later, content = world.head.tree)
  | .apply call =>
      call.observed.config = call.config ∧ call.observed.specDigest = call.specDigest ∧
        ∀ anchor, truthy (call.run host).record.anchor = some anchor →
          ∃ object, world.commits anchor = some object ∧
            ∀ content ∈ call.observed.contents, content = object.tree

/-! ## The invariant -/

/-- The records of a run say what its criteria met. -/
structure Anchored (host : Host) (commits : JsString → Option CommitObject)
    (run : RecordedRun) : Prop where
  config : run.record.configDigest = some (host.digestOf run.observed.config)
  specDigest : run.record.specDigest = run.observed.specDigest
  content : (run.record.kind = .verify → run.record.first = .created (some false)) →
    ∀ anchor, truthy run.record.anchor = some anchor →
      ∃ object, commits anchor = some object ∧
        ∀ content ∈ run.observed.contents, content = object.tree

structure AllAnchored (host : Host) (world : World) : Prop where
  named : ∀ revision object, world.commits revision = some object → object.Named
  anchored : ∀ runId run, world.runs.get? runId = some run → Anchored host world.commits run

variable {host : Host} {world : World}

theorem Anchored.mono {commits later : JsString → Option CommitObject} {run : RecordedRun}
    (anchored : Anchored host commits run)
    (grows : ∀ revision object, commits revision = some object → later revision = some object) :
    Anchored host later run where
  config := anchored.config
  specDigest := anchored.specDigest
  content clean anchor named := by
    obtain ⟨object, stored, content⟩ := anchored.content clean anchor named
    exact ⟨object, grows anchor object stored, content⟩

theorem AllAnchored.addCommit (invariant : AllAnchored host world) (revision : JsString)
    {object : CommitObject} (named : object.Named) :
    AllAnchored host (world.addCommit revision object) := by
  rw [World.addCommit]
  split
  · next fresh =>
      refine ⟨fun other found stored => ?_, fun runId run known => ?_⟩
      · dsimp only at stored
        split at stored
        · exact Option.some.inj stored ▸ named
        · exact invariant.named other found stored
      · refine (invariant.anchored runId run known).mono fun other found stored => ?_
        have different : other ≠ revision := by
          rintro rfl
          rw [fresh] at stored
          cases stored
        exact (if_neg different).trans stored
  · exact invariant

theorem AllAnchored.record (invariant : AllAnchored host world) {run : RecordedRun}
    (anchored : Anchored host world.commits run) : AllAnchored host (world.record run) where
  named := invariant.named
  anchored runId other known := by
    by_cases same : runId = run.record.runId
    · rw [same, World.record, OrderedMap.get?_set_self, Option.some.injEq] at known
      exact known ▸ anchored
    · rw [World.record, OrderedMap.get?_set_ne _ same] at known
      exact invariant.anchored runId other known

/-- A run of a clean tree is anchored at the commit of the tree. -/
theorem anchored_verifiedRun {call : SweepCall} {content : Tree}
    (config : call.config = world.configContent host)
    (same : world.dirty host.renames = false →
      ∀ other ∈ content :: call.later, other = world.head.tree) :
    Anchored host world.commits (world.verifiedRun host call content) where
  config := by
    show some (world.configDigest host) = some (host.digestOf call.config)
    rw [config, World.configDigest]
  specDigest := rfl
  content clean anchor named := by
    have flag : FirstEvent.created (some (world.dirty host.renames)) = .created (some false) :=
      clean rfl
    rw [FirstEvent.created.injEq, Option.some.injEq] at flag
    have base : truthy (some world.revision) = some anchor := named
    obtain ⟨revision, -⟩ := Option.filter_eq_some_iff.mp base
    exact ⟨world.head, Option.some.inj revision ▸ world.stored, same flag⟩

theorem AllAnchored.act (invariant : AllAnchored host world) {act : FreshnessAct}
    (faithful : Faithful host world act) : AllAnchored host (World.act host act world) := by
  cases act with
  | commit revision object => exact invariant.addCommit revision faithful
  | checkout revision working =>
      rw [World.act, World.checkout]
      split
      · exact invariant
      · exact ⟨invariant.named, invariant.anchored⟩
  | edit working => exact ⟨invariant.named, invariant.anchored⟩
  | configure config => exact ⟨invariant.named, invariant.anchored⟩
  | verify call =>
      refine invariant.record (anchored_verifiedRun faithful.1 fun clean => ?_)
      exact List.forall_mem_cons.mpr
        ⟨Repository.trackedContent_of_clean clean, faithful.2 clean⟩
  | verifyRun runId call =>
      cases found : world.resultObject runId with
      | none =>
          simp only [World.act, found]
          exact invariant
      | some object =>
          simp only [World.act, found]
          exact invariant.record
            (anchored_verifiedRun faithful.1 fun clean => faithful.2 clean object found)
  | apply call =>
      obtain ⟨config, specDigest, content⟩ := faithful
      refine invariant.record ⟨?_, specDigest.symm, fun _ => content⟩
      show some (host.digestOf call.config) = some (host.digestOf call.observed.config)
      rw [config]

/-! ## The decisions -/

theorem World.trackedDrift_eq_none {anchorRevision expected : Option JsString}
    (fresh : world.trackedDrift host anchorRevision expected = none) :
    world.dirty host.renames = false ∧
      (∀ digest, truthy expected = some digest → digest = world.configDigest host) ∧
      ∃ anchor object, truthy anchorRevision = some anchor ∧ world.commits anchor = some object ∧
        trim (diffNames host.renames object world.head) = [] := by
  rw [World.trackedDrift] at fresh
  split at fresh
  · cases fresh
  · next anchor named =>
      split at fresh
      · cases fresh
      · next dirty =>
          split at fresh
          · cases fresh
          · next config =>
              rw [Bool.not_eq_true] at dirty
              refine ⟨dirty, fun digest known => ?_, ?_⟩
              · by_contra different
                rw [known, Option.any_some] at config
                exact config (decide_eq_true different)
              · split at fresh
                · cases fresh
                · next object stored =>
                    split_ifs at fresh with ancestor names
                    exact ⟨anchor, object, named, stored, not_not.mp names⟩

theorem World.mem_newestFirst {chosen : RunRecord → Bool} {run : RecordedRun} :
    run ∈ world.newestFirst chosen ↔
      (∃ runId, world.runs.get? runId = some run) ∧ chosen run.record = true := by
  rw [World.newestFirst, List.mem_insertionSort, List.mem_insertionSort, List.mem_filter,
    List.mem_map]
  refine and_congr_left fun _ => ⟨?_, ?_⟩
  · rintro ⟨⟨runId, other⟩, member, rfl⟩
    exact ⟨runId, OrderedMap.get?_eq_some.mpr member⟩
  · rintro ⟨runId, known⟩
    exact ⟨(runId, run), OrderedMap.get?_eq_some.mp known, rfl⟩

/-- What is tracked has not moved from what a run met. -/
theorem AllAnchored.stillMet (injective : Function.Injective host.sha256Hex)
    (invariant : AllAnchored host world) {run : RecordedRun} {runId : JsString}
    (known : world.runs.get? runId = some run) {spec : SpecIR}
    (digest : run.record.specDigest = spec.digest)
    (clean : run.record.kind = .verify → run.record.first = .created (some false))
    (fresh : world.trackedDrift host run.record.anchor run.record.configDigest = none)
    {properties : List DesiredProperty}
    (held : properties.all run.record.viewedState.holds = true) :
    StillMet host world spec run properties := by
  have anchored := invariant.anchored runId run known
  obtain ⟨undirty, config, anchor, object, named, stored, names⟩ :=
    World.trackedDrift_eq_none fresh
  refine ⟨fun content member => ?_, anchored.specDigest.symm.trans digest, ?_,
    List.all_eq_true.mp held⟩
  · obtain ⟨other, otherStored, met⟩ := anchored.content clean anchor named
    obtain rfl := Option.some.inj (stored.symm.trans otherStored)
    rw [met content member, Repository.trackedContent_of_clean undirty]
    exact tree_eq_of_diffNames (invariant.named anchor object stored)
      (invariant.named world.revision world.head world.stored) names
  · have recorded : truthy run.record.configDigest =
        some (host.digestOf run.observed.config) := by
      rw [anchored.config]
      rfl
    exact injective (List.append_cancel_left (config _ recorded))

theorem World.freshnessCheck_eq_ok {spec : SpecIR} {runId : JsString}
    (cached : world.freshnessCheck host spec = .ok runId) :
    ∃ run state, world.priorRun spec = some run ∧ run.record.runId = runId ∧
      run.record.specDigest = spec.digest ∧ run.record.first = .created (some false) ∧
      run.record.state = some state ∧ spec.properties.all state.holds = true ∧
      world.trackedDrift host run.record.baseRevision run.record.configDigest = none := by
  rw [World.freshnessCheck] at cached
  split at cached
  · cases cached
  split at cached
  · cases cached
  next record observed prior =>
  split at cached
  · cases cached
  next digest =>
  split at cached
  · cases cached
  split at cached
  · cases cached
  split at cached
  · cases cached
  split at cached
  · cases cached
  split at cached
  · cases cached
  next flag =>
  split at cached
  · cases cached
  next state found =>
  split at cached
  · cases cached
  next held =>
  split at cached
  · cases cached
  next fresh =>
  cases cached
  exact ⟨⟨record, observed⟩, state, prior, rfl, not_not.mp digest, not_not.mp flag, found,
    by simpa using held, fresh⟩

theorem World.postureFor_eq_standing {spec : SpecIR}
    (standing : world.postureFor host spec = .standing) :
    ∃ run, world.latestRun spec = some run ∧
      (World.musts spec).all run.record.viewedState.holds = true ∧
      (run.record.kind = .verify → run.record.first = .created (some false)) ∧
      world.trackedDrift host run.record.anchor run.record.configDigest = none := by
  rw [World.postureFor] at standing
  split at standing
  · cases standing
  · next record observed latest =>
      split_ifs at standing with held flag drift
      rw [not_and, not_not] at flag
      exact ⟨⟨record, observed⟩, latest, by simpa using held, flag, by simpa using drift⟩

/-- Where every run is anchored, what is taken for fresh is fresh. -/
theorem AllAnchored.freshnessSound (injective : Function.Injective host.sha256Hex)
    (invariant : AllAnchored host world) : FreshnessSound host world := by
  constructor
  · intro spec runId cached
    obtain ⟨run, state, prior, id, digest, flag, found, held, fresh⟩ :=
      World.freshnessCheck_eq_ok cached
    obtain ⟨⟨key, known⟩, chosen⟩ := World.mem_newestFirst.mp (List.mem_of_head? prior)
    have kind := (of_decide_eq_true chosen).1
    have anchor : run.record.anchor = run.record.baseRevision := by
      rw [RunRecord.anchor, kind]
    have viewed : run.record.viewedState = state := by
      rw [RunRecord.viewedState, found, Option.getD_some]
    exact ⟨run, prior, id, invariant.stillMet injective known digest (fun _ => flag)
      (anchor ▸ fresh) (viewed ▸ held)⟩
  · intro spec standing
    obtain ⟨run, latest, held, flag, fresh⟩ := World.postureFor_eq_standing standing
    obtain ⟨⟨key, known⟩, chosen⟩ := World.mem_newestFirst.mp (List.mem_of_find?_eq_some latest)
    exact ⟨run, latest, invariant.stillMet injective known (of_decide_eq_true chosen).2 flag fresh
      held⟩

/-- In every history in which no run is executed elsewhere than its records say, a cached or
standing verification met what there is now. -/
theorem freshness_sound (host : Host) (injective : Function.Injective host.sha256Hex)
    (world : World) (named : ∀ revision object, world.commits revision = some object → object.Named)
    (none : world.runs = .empty) (acts : List FreshnessAct)
    (faithful : EveryStep (World.act host) (Faithful host) acts world) :
    FreshnessSound host (run (World.act host) acts world) := by
  have initial : AllAnchored host world := by
    refine ⟨named, fun runId run known => ?_⟩
    rw [none] at known
    cases known
  exact (faithful.invariant initial fun _ _ step invariant =>
    invariant.act step).freshnessSound injective

/-! ## A repository with one file -/

def oneFile (content : List Text.Octet) : Tree := fun path =>
  if path = js "f" then some content else none

theorem listed_oneFile (content : List Text.Octet) {path : JsString} (outside : path ∉ [js "f"]) :
    oneFile content path = none :=
  if_neg fun same => outside (List.mem_singleton.mpr same)

def oneFileCommit (content : List Text.Octet) (ancestors : List JsString) : CommitObject :=
  ⟨oneFile content, [js "f"], fun _ => listed_oneFile content, ancestors⟩

theorem named_oneFileCommit (content : List Text.Octet) (ancestors : List JsString) :
    (oneFileCommit content ancestors).Named := by
  intro path blank
  refine if_neg ?_
  rintro rfl
  exact absurd (blank (unit 'f') List.mem_cons_self) (by decide)

def oneFileWorking (content : List Text.Octet) : WorkingFiles where
  index := oneFile content
  tree := oneFile content
  ignored _ := false
  paths := [js "f"]
  listed _ outside := ⟨listed_oneFile content outside, listed_oneFile content outside⟩

def firstCommit : CommitObject :=
  oneFileCommit [1] [js "aaaa"]

/-- A repository with one commit and no runs. -/
def firstWorld : World where
  commits revision := if revision = js "aaaa" then some firstCommit else none
  revision := js "aaaa"
  head := firstCommit
  stored := rfl
  working := oneFileWorking [1]
  config := none
  runs := .empty

theorem named_firstWorld (revision : JsString) (object : CommitObject)
    (stored : firstWorld.commits revision = some object) : object.Named := by
  have known : (if revision = js "aaaa" then some firstCommit else none) = some object := stored
  split at known
  · exact Option.some.inj known ▸ named_oneFileCommit [1] _
  · cases known

def plainHost : Host where
  sha256Hex := id
  renames := noRenames
  defaultConfig := js "{}"

def oneProperty : DesiredProperty where
  id := js "P-1"
  statement := js "f is good"
  priority := .must
  dependsOn := []
  acceptance := []

def oneSpec : SpecIR :=
  ⟨js "spec", js "sha256:00", [oneProperty]⟩

/-- A sweep in which the property is satisfied. -/
def greenSweep : SweepCall where
  runId := js "v-1"
  spec := oneSpec
  createdAt := js "2026-01-01T00:00:00.000Z"
  config := js "{}"
  later := []
  fault := none
  state := some ⟨OrderedMap.ofEntries [(js "P-1", .satisfied)], none⟩

/-- A verification, and a commit that changes no file. -/
def emptyCommit : List FreshnessAct :=
  [.verify greenSweep, .commit (js "bbbb") (oneFileCommit [1] [js "bbbb", js "aaaa"]),
    .checkout (js "bbbb") (oneFileWorking [1])]

example : (run (World.act plainHost) emptyCommit firstWorld).freshnessCheck plainHost oneSpec =
    .ok (js "v-1") := by rfl

theorem freshness_sound_emptyCommit :
    FreshnessSound plainHost (run (World.act plainHost) emptyCommit firstWorld) := by
  refine freshness_sound plainHost Function.injective_id firstWorld named_firstWorld rfl _ ?_
  exact ⟨⟨rfl, fun _ => nofun⟩, named_oneFileCommit [1] _, trivial, trivial⟩

/-- An apply run whose result is another version of the file. -/
def appliedRun : ApplyCall where
  runId := js "run-1"
  specId := js "spec"
  specDigest := js "sha256:00"
  createdAt := js "2025-12-31T00:00:00.000Z"
  baseRevision := js "aaaa"
  config := js "{}"
  fault := none
  state := some ⟨.empty, some (js "bbbb")⟩
  observed := ⟨[oneFile [2]], js "{}", js "sha256:00"⟩

/-- The result of an apply run is verified while another version is checked out. -/
theorem not_freshnessSound :
    ¬ ∀ host : Host, Function.Injective host.sha256Hex → ∀ world : World,
      (∀ revision object, world.commits revision = some object → object.Named) →
        world.runs = .empty → ∀ acts, FreshnessSound host (run (World.act host) acts world) := by
  intro claimed
  have sound := claimed plainHost Function.injective_id firstWorld named_firstWorld rfl
    [.commit (js "bbbb") (oneFileCommit [2] [js "bbbb", js "aaaa"]), .apply appliedRun,
      .verifyRun (js "run-1") greenSweep]
  obtain ⟨run, prior, -, stillMet⟩ := sound.cached oneSpec (js "v-1") (by rfl)
  have met : run.observed.contents = [oneFile [2]] := by
    cases prior
    rfl
  have same := congrFun (stillMet.content (oneFile [2]) (met ▸ List.mem_cons_self)) (js "f")
  revert same
  decide +kernel

end SpecAsCode.Runtime
