import SpecAsCode.Lib.History
import SpecAsCode.Runtime.TrackedDrift
import SpecAsCode.Schema.Plan

/-!
# Fresh verification

A run that held is taken for a later state of the repository when the records of the run say so:
the commit it is anchored at, the digests it used and whether the tree was dirty.  What its
criteria were executed on is not one of these records.
-/

namespace SpecAsCode.Runtime

open SpecAsCode.Js
open SpecAsCode.Executor (Tree)
open SpecAsCode.Repo
open SpecAsCode.Schema

/-! ## Records -/

inductive RunKind where
  | verify
  | apply
  deriving DecidableEq

/-- The first event of a log: none, another one than `RUN_CREATED`, or that one with its flag. -/
inductive FirstEvent where
  | missing
  | other
  | created (dirty : Option Bool)
  deriving DecidableEq

/-- What is read of `state.json`. -/
structure VerifiedState where
  requirements : OrderedMap JsString RequirementStatus
  resultRevision : Option JsString

/-- What is read of a run. -/
structure RunRecord where
  runId : JsString
  kind : RunKind
  specId : JsString
  specDigest : JsString
  configDigest : Option JsString
  baseRevision : Option JsString
  createdAt : JsString
  first : FirstEvent
  /-- The error of records that do not load. -/
  fault : Option JsString
  state : Option VerifiedState

/-- What the criteria of a run really met: the tracked content of the tree they were executed in,
time after time, the configuration and the specification. -/
structure Observed where
  contents : List Tree
  config : JsString
  specDigest : JsString

structure RecordedRun where
  record : RunRecord
  observed : Observed

/-- `s === "satisfied" || s === "waived"` for the status of a property. -/
def VerifiedState.holds (state : VerifiedState) (property : DesiredProperty) : Bool :=
  state.requirements.get? property.id = some .satisfied ||
    state.requirements.get? property.id = some .waived

/-- The state of `loadRunView`. -/
def RunRecord.viewedState (record : RunRecord) : VerifiedState :=
  record.state.getD ⟨.empty, none⟩

/-- The commit that a run is anchored at. -/
def RunRecord.anchor (record : RunRecord) : Option JsString :=
  match record.kind with
  | .verify => record.baseRevision
  | .apply => record.viewedState.resultRevision.orElse fun _ => record.baseRevision

/-! ## The decisions -/

/-- What does not change: the hash, how git finds renames, and `configSchema.parse({})` as a
text. -/
structure Host where
  sha256Hex : JsString → JsString
  renames : RenameDetection
  defaultConfig : JsString

/-- A repository with its configuration file and its runs. -/
structure World extends Repository where
  config : Option JsString
  runs : OrderedMap JsString RecordedRun

/-- The digest of a configuration. -/
def Host.digestOf (host : Host) (content : JsString) : JsString :=
  js "sha256:" ++ host.sha256Hex content

namespace World

variable (host : Host) (world : World) (spec : SpecIR)

/-- What the configuration is. -/
def configContent : JsString :=
  world.config.getD host.defaultConfig

/-- `configDigestOf`. -/
def configDigest : JsString :=
  host.digestOf (world.configContent host)

/-- `trackedDrift`: the reason, if there is one.  What is an ancestor of HEAD can be compared
with it. -/
def trackedDrift (anchorRevision expectedConfigDigest : Option JsString) : Option JsString :=
  match truthy anchorRevision with
  | none => some (js "evidence anchor revision is not recorded")
  | some anchor =>
      if world.dirty host.renames then
        some (js "working tree is dirty")
      else if (truthy expectedConfigDigest).any fun digest => digest ≠ world.configDigest host then
        some (js "config changed since the run executed")
      else
        match world.commits anchor with
        | none => some (js "evidence anchor is not an ancestor of HEAD")
        | some object =>
            if anchor ∉ world.head.ancestors then
              some (js "evidence anchor is not an ancestor of HEAD")
            else if trim (diffNames host.renames object world.head) ≠ [] then
              some (js "tracked changes since the evidence anchor")
            else
              none

/-- `listRunIds`, with the records, and the newest run first. -/
def newestFirst (chosen : RunRecord → Bool) : List RecordedRun :=
  (((world.runs.entries.map Prod.snd).filter fun run => chosen run.record).insertionSort
    fun first second => first.record.runId ≤ second.record.runId).insertionSort
    fun first second => ¬ first.record.createdAt < second.record.createdAt

/-- The prior run of `freshnessCheck`. -/
def priorRun : Option RecordedRun :=
  (world.newestFirst fun record => record.kind = .verify ∧ record.specId = spec.specId).head?

/-- `freshnessCheck`: the id of the prior run, or the reason to verify. -/
def freshnessCheck : Except JsString JsString :=
  if world.dirty host.renames then
    .error (js "working tree is dirty")
  else
    match world.priorRun spec with
    | none => .error (js "no prior verify run for this spec")
    | some ⟨record, _⟩ =>
        if record.specDigest ≠ spec.digest then
          .error (js "spec changed since the prior run")
        else if truthy record.configDigest ≠ some (world.configDigest host) then
          .error (js "config changed since the prior run")
        else if truthy record.baseRevision = none then
          .error (js "prior run has no recorded base revision")
        else
          match record.fault with
          | some message =>
              .error (js "prior run records failed to load (" ++ message ++ js ")")
          | none =>
              if record.first = .missing then
                .error (js "prior run events unreadable")
              else if record.first ≠ .created (some false) then
                .error (js "prior run verified a dirty tree")
              else
                match record.state with
                | none => .error (js "prior run state unreadable")
                | some state =>
                    if !spec.properties.all state.holds then
                      .error (js "prior run did not satisfy every property")
                    else
                      match world.trackedDrift host record.baseRevision record.configDigest with
                      | some reason => .error reason
                      | none => .ok record.runId

inductive SpecPosture where
  | standing
  | active
  | unverified
  | stale
  deriving DecidableEq

/-- The latest run of `postureFor`. -/
def latestRun : Option RecordedRun :=
  (world.newestFirst fun record =>
    record.specId = spec.specId ∧ record.specDigest = spec.digest).find? fun run =>
      run.record.fault.isNone

/-- The `must` properties. -/
def musts : List DesiredProperty :=
  spec.properties.filter fun property => property.priority = .must

/-- `postureFor`, up to the texts of its reasons. -/
def postureFor : SpecPosture :=
  match world.latestRun spec with
  | none => .unverified
  | some ⟨record, _⟩ =>
      if !(musts spec).all record.viewedState.holds then
        .active
      else if record.kind = .verify ∧ record.first ≠ .created (some false) then
        .stale
      else if (world.trackedDrift host record.anchor record.configDigest).isSome then
        .stale
      else
        .standing

end World

/-! ## Runs -/

/-- A sweep of `createVerifyRun`: the configuration it was started with, what its criteria leave
for one another in the tracked files, and what is recorded of it. -/
structure SweepCall where
  runId : JsString
  spec : SpecIR
  createdAt : JsString
  config : JsString
  later : List Tree
  fault : Option JsString
  state : Option VerifiedState

/-- What an apply run did, and what is recorded of it. -/
structure ApplyCall where
  runId : JsString
  specId : JsString
  specDigest : JsString
  createdAt : JsString
  baseRevision : JsString
  /-- The configuration at its start. -/
  config : JsString
  fault : Option JsString
  state : Option VerifiedState
  observed : Observed

/-- `createVerifyRun`, with criteria that are executed from some content on. -/
def World.verifiedRun (host : Host) (world : World) (call : SweepCall) (content : Tree) :
    RecordedRun where
  record :=
    { runId := call.runId
      kind := .verify
      specId := call.spec.specId
      specDigest := call.spec.digest
      configDigest := some (world.configDigest host)
      baseRevision := some world.revision
      createdAt := call.createdAt
      first := .created (some (world.dirty host.renames))
      fault := call.fault
      state := call.state }
  observed := ⟨content :: call.later, call.config, call.spec.digest⟩

/-- The records of an apply run. -/
def ApplyCall.run (host : Host) (call : ApplyCall) : RecordedRun where
  record :=
    { runId := call.runId
      kind := .apply
      specId := call.specId
      specDigest := call.specDigest
      configDigest := some (host.digestOf call.config)
      baseRevision := some call.baseRevision
      createdAt := call.createdAt
      first := .created none
      fault := call.fault
      state := call.state }
  observed := call.observed

inductive FreshnessAct where
  /-- A commit is made, in some worktree. -/
  | commit (revision : JsString) (object : CommitObject)
  | checkout (revision : JsString) (working : WorkingFiles)
  | edit (working : WorkingFiles)
  | configure (config : Option JsString)
  /-- `spc verify`. -/
  | verify (call : SweepCall)
  /-- `spc verify --run`. -/
  | verifyRun (runId : JsString) (call : SweepCall)
  /-- A step of an apply run, or its end. -/
  | apply (call : ApplyCall)

namespace World

/-- The result revision of a run, as `verify --run` checks it out. -/
def resultObject (world : World) (runId : JsString) : Option CommitObject :=
  ((world.runs.get? runId).bind fun run =>
    truthy (run.record.state.bind VerifiedState.resultRevision)).bind world.commits

def record (world : World) (run : RecordedRun) : World :=
  { world with runs := world.runs.set run.record.runId run }

/-- A revision is the name of one commit. -/
def addCommit (world : World) (revision : JsString) (object : CommitObject) : World :=
  if fresh : world.commits revision = none then
    { world with
      commits := fun other => if other = revision then some object else world.commits other
      stored := by
        have different : world.revision ≠ revision := by
          intro same
          rw [← same, world.stored] at fresh
          cases fresh
        rw [if_neg different]
        exact world.stored }
  else
    world

def checkout (world : World) (revision : JsString) (working : WorkingFiles) : World :=
  match known : world.commits revision with
  | none => world
  | some object => { world with revision := revision, head := object, stored := known, working }

def act (host : Host) : FreshnessAct → World → World
  | .commit revision object, world => world.addCommit revision object
  | .checkout revision working, world => world.checkout revision working
  | .edit working, world => { world with working }
  | .configure config, world => { world with config }
  | .verify call, world =>
      world.record (world.verifiedRun host call (trackedContent world.working))
  | .verifyRun runId call, world =>
      match world.resultObject runId with
      | none => world
      | some object => world.record (world.verifiedRun host call object.tree)
  | .apply call, world => world.record (call.run host)

end World

end SpecAsCode.Runtime
