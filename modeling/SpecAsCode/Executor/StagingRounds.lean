import SpecAsCode.Executor.ExecuteTask
import SpecAsCode.Lib.Journal

/-!
# Rounds of staging

How often an attempt at a task is dispatched, and what its answers may do to the worktree.
-/

namespace SpecAsCode.Executor

open SpecAsCode.Js
open SpecAsCode.Core
open SpecAsCode.Text
open SpecAsCode.History
open SpecAsCode.Journal

/-! ## Containment -/

/-- The part names an entry. -/
def isComponent (part : JsString) : Bool :=
  part != [] && part != js "."

/-- The entries that a path goes through, as `path.join` spells them. -/
def components (path : JsString) : List JsString :=
  (segments path).filter isComponent

theorem joinPart_eq (current : List JsString) (part : JsString) :
    joinPart current part = if isComponent part then current ++ [part] else current := by
  rw [joinPart, isComponent]
  by_cases empty : part = []
  · simp [empty]
  · by_cases dot : part = js "."
    · simp [dot]
    · simp [empty, dot]

/-- No entry on the way to a path is a symbolic link. -/
def LinkFree (entries : Entries) (path : JsString) : Prop :=
  ∀ entry, entry <+: components path → entry ≠ [] → entries.lstat entry ≠ some true

theorem Entries.lstat_append (entries : Entries) {entry : List JsString}
    (missing : entries.lstat entry = none) (more : List JsString) :
    entries.lstat (entry ++ more) = none := by
  induction more using List.reverseRecOn with
  | nil => rwa [List.append_nil]
  | append_singleton more part inductionHypothesis =>
      rw [← List.append_assoc]
      exact entries.nested _ part inductionHypothesis

theorem linkFree_from {entries : Entries} {current parts : List JsString}
    (contained : containedFrom entries current parts = true) :
    ∀ more, more <+: parts.filter isComponent → more ≠ [] →
      entries.lstat (current ++ more) ≠ some true := by
  induction parts generalizing current with
  | nil =>
      intro more part nonempty
      exact absurd (List.prefix_nil.mp part) nonempty
  | cons part rest inductionHypothesis =>
      intro more initial nonempty
      rw [containedFrom] at contained
      rw [joinPart_eq] at contained
      cases named : isComponent part with
      | false =>
          -- the part stands for the entry itself
          rw [named, if_neg Bool.false_ne_true] at contained
          rw [List.filter_cons_of_neg (by rw [named]; exact Bool.false_ne_true)] at initial
          cases found : entries.lstat current with
          | none =>
              rw [entries.lstat_append found]
              nofun
          | some link =>
              rw [found, Bool.and_eq_true] at contained
              exact inductionHypothesis contained.2 more initial nonempty
      | true =>
          rw [named, if_pos rfl] at contained
          rw [List.filter_cons_of_pos named] at initial
          cases more with
          | nil => exact absurd rfl nonempty
          | cons first others =>
              obtain ⟨rfl, later⟩ := List.cons_prefix_cons.mp initial
              rw [List.append_cons]
              cases found : entries.lstat (current ++ [first]) with
              | none =>
                  rw [entries.lstat_append found]
                  nofun
              | some link =>
                  rw [found, Bool.and_eq_true, Bool.not_eq_true'] at contained
                  by_cases last : others = []
                  · subst last
                    rw [List.append_nil, found, contained.1]
                    simp
                  · exact inductionHypothesis contained.2 others later last

theorem linkFree_of_contained {entries : Entries} {path : JsString}
    (contained : isPhysicallyContained entries path = true) : LinkFree entries path := by
  rw [isPhysicallyContained, Bool.and_eq_true] at contained
  intro entry initial nonempty
  exact linkFree_from contained.2 entry initial nonempty

/-! ## Staged paths -/

section Staged

variable {sha256Hex : List Octet → JsString} {tree : Tree}

/-- The paths that a change set writes or deletes. -/
def StagedChanges.paths (staged : StagedChanges) : List JsString :=
  staged.writes.map StagedWrite.path ++ staged.deletes

/-- The paths of a staging are among the given ones. -/
def Staging.Within (staging : Staging) (paths : List JsString) : Prop :=
  (∀ path text, staging.overlay.get? path = some text → path ∈ paths) ∧
    ∀ path ∈ staging.deletes, path ∈ paths

theorem Staging.Within.write {staging : Staging} {paths : List JsString}
    (inside : staging.Within paths) {path : JsString} (member : path ∈ paths) (content : JsString)
    (label : WriteLabel) : (staging.write path content label).Within paths := by
  refine ⟨fun other text found => ?_, fun other inDeletes => inside.2 other
    (List.mem_of_mem_filter inDeletes)⟩
  by_cases same : other = path
  · rw [same]
    exact member
  · exact inside.1 other text (by rwa [Staging.write, OrderedMap.get?_set_ne _ same] at found)

theorem Staging.Within.delete {staging : Staging} {paths : List JsString}
    (inside : staging.Within paths) {path : JsString} (member : path ∈ paths) :
    (staging.delete path).Within paths := by
  refine ⟨fun other text found => ?_, fun other inDeletes => ?_⟩
  · by_cases same : other = path
    · rw [same]
      exact member
    · exact inside.1 other text (by rwa [Staging.delete, OrderedMap.get?_delete_ne _ same] at found)
  · rw [Staging.delete] at inDeletes
    dsimp only at inDeletes
    split_ifs at inDeletes
    · exact inside.2 other inDeletes
    · rcases List.mem_append.mp inDeletes with earlier | new
      · exact inside.2 other earlier
      · rw [List.mem_singleton.mp new]
        exact member

theorem within_stageChange {staging after : Staging} {paths : List JsString}
    (inside : staging.Within paths) {change : ProposedChange} (member : change.path ∈ paths)
    (stagedOk : stageChange sha256Hex tree staging change = .ok after) : after.Within paths := by
  cases change with
  | delete path =>
      cases stagedOk
      exact inside.delete member
  | create path content =>
      cases stagedOk
      exact inside.write member content .created
  | update path content =>
      cases stagedOk
      exact inside.write member content .modified
  | patch path baseDigest anchor replacement nonempty =>
      rw [stageChange] at stagedOk
      split at stagedOk
      · cases stagedOk
      · split_ifs at stagedOk
        cases stagedOk
        exact inside.write member _ .patched

/-- A change set writes and deletes what it names. -/
theorem paths_of_stageChanges {changes : List ProposedChange} {staged : StagedChanges}
    (stagedOk : stageChanges sha256Hex tree changes = .ok staged) {path : JsString}
    (member : path ∈ staged.paths) : path ∈ changes.map ProposedChange.path := by
  have all : ∀ (list : List ProposedChange) (staging after : Staging),
      (∀ change ∈ list, change ∈ changes) →
        staging.Within (changes.map ProposedChange.path) →
          list.foldlM (stageChange sha256Hex tree) staging = .ok after →
            after.Within (changes.map ProposedChange.path) := by
    intro list
    induction list with
    | nil =>
        intro staging after _ inside done
        cases done
        exact inside
    | cons change list inductionHypothesis =>
        intro staging after among inside done
        rw [List.forall_mem_cons] at among
        rw [List.foldlM_cons] at done
        cases step : stageChange sha256Hex tree staging change with
        | error refusal =>
            rw [step] at done
            cases done
        | ok next =>
            rw [step] at done
            exact inductionHypothesis next after among.2
              (within_stageChange inside (List.mem_map_of_mem among.1) step) done
  cases done : stageAll sha256Hex tree changes with
  | error refusal =>
      rw [stageChanges, done] at stagedOk
      cases stagedOk
  | ok staging =>
      rw [stageChanges, done] at stagedOk
      cases stagedOk
      have empty : Staging.empty.Within (changes.map ProposedChange.path) :=
        ⟨nofun, nofun⟩
      obtain ⟨overlay, deletes⟩ := all changes Staging.empty staging (fun _ among => among) empty done
      rw [StagedChanges.paths, Staging.result] at member
      rcases List.mem_append.mp member with written | deleted
      · rw [List.map_map] at written
        obtain ⟨entry, inOverlay, rfl⟩ := List.mem_map.mp written
        exact overlay entry.1 entry.2 (OrderedMap.get?_eq_some.mpr inOverlay)
      · exact deletes path deleted

end Staged

/-! ## What the gates let through -/

section Gates

variable {sha256Hex : List Octet → JsString} {input : ExecuteInput} {dispatchBaseline : JsString}
  {world : World} {changes : List ProposedChange}

/-- The path is one of the write targets, and reached without symbolic links. -/
structure Permitted (input : ExecuteInput) (world : World) (path : JsString) : Prop where
  target : globMatchAny input.writeTargets (normalizeRelPath path) = true
  linkFree : LinkFree world.entries path

theorem permitted_of_staged {staged : StagedChanges}
    (judged : judge sha256Hex input dispatchBaseline world changes = .staged staged)
    {path : JsString} (member : path ∈ staged.paths) : Permitted input world path := by
  rw [judge] at judged
  cases scope : enforceWriteScope input.writeTargets (changes.map ProposedChange.path) with
  | cons violation rest =>
      rw [scope] at judged
      cases judged
  | nil =>
      rw [scope] at judged
      cases unsafePath : changes.find? (unsafeChange world) with
      | some change =>
          rw [unsafePath] at judged
          cases judged
      | none =>
          rw [unsafePath] at judged
          dsimp only at judged
          split_ifs at judged
          cases stagedOk : stageChanges sha256Hex world.tree changes with
          | error refusal =>
              rw [stagedOk] at judged
              dsimp only at judged
              split_ifs at judged
          | ok result =>
              rw [stagedOk] at judged
              cases judged
              have named := paths_of_stageChanges stagedOk member
              refine ⟨(enforceWriteScope_eq_nil.mp scope path named).2, ?_⟩
              obtain ⟨change, inChanges, rfl⟩ := List.mem_map.mp named
              have checked := List.find?_eq_none.mp unsafePath change inChanges
              rw [unsafeChange, Bool.not_eq_true, Bool.or_eq_false_iff] at checked
              exact linkFree_of_contained (by simpa using checked.2)

end Gates

/-! ## What is claimed of the calls -/

/-- The refusals, with what the model is told of them. -/
def AttemptEvent.refusal? : AttemptEvent → Option JsString
  | .submissionRefused _ _ _ message _ => some message
  | .stageRejected _ _ _ message => some message
  | _ => none

def AttemptEvent.touched? : AttemptEvent → Option JsString
  | .wrote path => some path
  | .removed path => some path
  | _ => none

/-- A call counts the rounds recorded before it.  A dispatch begins its call, or comes right after
the record of a refusal, which it tells the model. -/
def Announced (input : ExecuteInput) (before : List AttemptEvent) : AttemptEvent → Prop
  | .began prior => prior = stagingRoundsFrom before input.taskId input.attempt
  | .dispatched none => ∃ earlier prior, before = earlier ++ [.began prior]
  | .dispatched (some message) =>
      ∃ earlier record, before = earlier ++ [record] ∧ record.refusal? = some message
  | _ => True

/-- The rounds recorded before the latest call, and its dispatches. -/
def tally : Option (Nat × Nat) → AttemptEvent → Option (Nat × Nat)
  | _, .began prior => some (prior, 0)
  | some (prior, count), .dispatched _ => some (prior, count + 1)
  | latest, _ => latest

def latestCall (log : List AttemptEvent) : Option (Nat × Nat) :=
  log.foldl tally none

def dispatches (log : List AttemptEvent) : Nat :=
  (log.filter AttemptEvent.isDispatch).length

/-- The latest call is within its bound. -/
def CallBounded (run : AttemptRun) : Prop :=
  ∀ prior count, latestCall run.log = some (prior, count) →
    count ≤ max 1 (STAGE_ROUND_BOUND + 1 - prior)

/-- The attempt is within its bound. -/
def AttemptBounded (run : AttemptRun) : Prop :=
  dispatches run.log ≤ STAGE_ROUND_BOUND + 1

def AttemptOp.reply? : AttemptOp → Option Reply
  | .reply answer => some answer
  | .crash answer _ => some answer
  | _ => none

/-- The worktree is touched for an answer that has passed every gate, where the task may write, and
then the call is over. -/
def TouchesRight (sha256Hex : List Octet → JsString) (input : ExecuteInput) (run : AttemptRun)
    (op : AttemptOp) : Prop :=
  ∀ event ∈ (run.effect sha256Hex input op).1, ∀ path, event.touched? = some path →
    (∃ call changes world staged, run.call = some call ∧
      op.reply? = some (.answered changes world) ∧
      judge sha256Hex input call.dispatchBaseline world changes = .staged staged ∧
      path ∈ staged.paths ∧ Permitted input world path) ∧
    (run.effect sha256Hex input op).2 = none

/-! ## When the bounds hold -/

/-- A staging refusal after which the call goes on leaves room for its submission refusals as
well. -/
def Unmixed (sha256Hex : List Octet → JsString) (input : ExecuteInput) (run : AttemptRun)
    (op : AttemptOp) : Prop :=
  ∀ call changes world refusal, run.call = some call → op = .reply (.answered changes world) →
    judge sha256Hex input call.dispatchBaseline world changes = .stageRejected refusal →
      call.priorStageRejections + (call.stageRejections + 1) ≤ STAGE_ROUND_BOUND →
        call.priorStageRejections + (call.stageRejections + 1) + call.submissionRefusals ≤
          STAGE_ROUND_BOUND

/-- A call begins when every earlier dispatch of the attempt ended in a staging refusal that was
recorded, and rounds are left. -/
def Accounted (input : ExecuteInput) (run : AttemptRun) (op : AttemptOp) : Prop :=
  ∀ dispatchBaseline, op = .begin dispatchBaseline → run.call = none →
    dispatches run.log = stagingRoundsFrom run.log input.taskId input.attempt ∧
      stagingRoundsFrom run.log input.taskId input.attempt ≤ STAGE_ROUND_BOUND

/-! ## Events -/

/-- The event neither begins a call nor dispatches. -/
def AttemptEvent.isQuiet : AttemptEvent → Bool
  | .began _ | .dispatched _ => false
  | _ => true

theorem AttemptEvent.isQuiet_of_refusal {event : AttemptEvent} {message : JsString}
    (refusal : event.refusal? = some message) : event.isQuiet = true := by
  cases event <;> first | rfl | cases refusal

theorem announced_of_quiet {input : ExecuteInput} (before : List AttemptEvent)
    {event : AttemptEvent} (quiet : event.isQuiet = true) : Announced input before event := by
  cases event <;> trivial

theorem isDispatch_of_quiet {event : AttemptEvent} (quiet : event.isQuiet = true) :
    event.isDispatch = false := by
  cases event <;> first | rfl | cases quiet

theorem tally_of_quiet (latest : Option (Nat × Nat)) {event : AttemptEvent}
    (quiet : event.isQuiet = true) : tally latest event = latest := by
  cases event <;> first | (cases latest <;> rfl) | cases quiet

section Log

variable {log added : List AttemptEvent}

theorem latestCall_append_quiet (quiet : ∀ event ∈ added, event.isQuiet = true) :
    latestCall (log ++ added) = latestCall log := by
  rw [latestCall, List.foldl_append, ← latestCall]
  induction added with
  | nil => rfl
  | cons event added inductionHypothesis =>
      rw [List.forall_mem_cons] at quiet
      rw [List.foldl_cons, tally_of_quiet _ quiet.1]
      exact inductionHypothesis quiet.2

theorem dispatches_append_quiet (quiet : ∀ event ∈ added, event.isQuiet = true) :
    dispatches (log ++ added) = dispatches log := by
  have none : added.filter AttemptEvent.isDispatch = [] :=
    List.filter_eq_nil_iff.mpr fun event member => by
      rw [isDispatch_of_quiet (quiet event member)]
      exact Bool.false_ne_true
  rw [dispatches, List.filter_append, none, List.append_nil, ← dispatches]

/-- A quiet event and a dispatch are added. -/
theorem latestCall_dispatched {prior count : Nat} (latest : latestCall log = some (prior, count))
    {record : AttemptEvent} (quiet : record.isQuiet = true) (message : Option JsString) :
    latestCall (log ++ [record, .dispatched message]) = some (prior, count + 1) := by
  rw [latestCall, List.foldl_append, ← latestCall, latest, List.foldl_cons, tally_of_quiet _ quiet]
  rfl

theorem dispatches_dispatched {record : AttemptEvent} (calm : record.isDispatch = false)
    (message : Option JsString) :
    dispatches (log ++ [record, .dispatched message]) = dispatches log + 1 := by
  rw [dispatches, List.filter_append, List.length_append, ← dispatches, List.filter_cons, calm]
  rfl

end Log

/-! ## Steps -/

section Steps

variable {sha256Hex : List Octet → JsString} {input : ExecuteInput} {call : StagingCall}

theorem wrote_isQuiet (changes : StagedChanges) :
    ∀ event ∈ changes.writes.map (fun write => AttemptEvent.wrote write.path) ++
      changes.deletes.map .removed, event.isQuiet = true := by
  intro event member
  rcases List.mem_append.mp member with wrote | removed
  · obtain ⟨write, -, rfl⟩ := List.mem_map.mp wrote
    rfl
  · obtain ⟨path, -, rfl⟩ := List.mem_map.mp removed
    rfl

/-- What an answer adds to the log, and which call it leaves. -/
inductive Answered (sha256Hex : List Octet → JsString) (input : ExecuteInput)
    (call : StagingCall) (reply : Reply) : List AttemptEvent → Option StagingCall → Prop
  | concluded {added : List AttemptEvent} (quiet : ∀ event ∈ added, event.isQuiet = true) :
      Answered sha256Hex input call reply added none
  | refused {record : AttemptEvent} {message : JsString} (refusal : record.refusal? = some message)
      (room : call.priorStageRejections + call.stageRejections + (call.submissionRefusals + 1) ≤
        STAGE_ROUND_BOUND) :
      Answered sha256Hex input call reply [record, .dispatched (some message)]
        (some { call with submissionRefusals := call.submissionRefusals + 1 })
  | stageRejected {changes : List ProposedChange} {world : World} {refusal : StageRefusal}
      (answered : reply = .answered changes world)
      (rejected : judge sha256Hex input call.dispatchBaseline world changes =
        .stageRejected refusal)
      (room : call.priorStageRejections + (call.stageRejections + 1) ≤ STAGE_ROUND_BOUND) :
      Answered sha256Hex input call reply
        [.stageRejected input.taskId input.attempt refusal.code refusal.message,
          .dispatched (some refusal.message)]
        (some { call with stageRejections := call.stageRejections + 1 })

theorem answered (call : StagingCall) (reply : Reply) :
    Answered sha256Hex input call reply (AttemptRun.answer sha256Hex input call reply).1
      (AttemptRun.answer sha256Hex input call reply).2 := by
  cases reply with
  | threw => exact .concluded nofun
  | answered changes world =>
      rw [AttemptRun.answer]
      cases judged : judge sha256Hex input call.dispatchBaseline world changes with
      | failed code message => exact .concluded nofun
      | refused check =>
          rw [handle]
          split_ifs with finished
          · exact .concluded fun event member => by rw [List.mem_singleton.mp member]; rfl
          · exact .refused rfl (Nat.le_of_not_lt finished)
      | stageRejected refusal =>
          rw [handle]
          split_ifs with finished
          · exact .concluded fun event member => by rw [List.mem_singleton.mp member]; rfl
          · exact .stageRejected rfl judged (Nat.le_of_not_lt finished)
      | staged changes => exact .concluded (wrote_isQuiet changes)

/-- Before its dispatch, an answer adds quiet events. -/
theorem Answered.quiet_before {reply : Reply} {added : List AttemptEvent}
    {next : Option StagingCall} (answered : Answered sha256Hex input call reply added next) :
    ∀ event ∈ added.takeWhile fun event => !event.isDispatch, event.isQuiet = true := by
  intro event member
  have inAdded := (List.takeWhile_prefix _).subset member
  have calm : event.isDispatch = false := by
    simpa using List.all_eq_true.mp List.all_takeWhile event member
  cases answered with
  | concluded quiet => exact quiet event inAdded
  | refused refusal room =>
      rcases List.mem_pair.mp inAdded with rfl | rfl
      · exact AttemptEvent.isQuiet_of_refusal refusal
      · cases calm
  | stageRejected answered rejected room =>
      rcases List.mem_pair.mp inAdded with rfl | rfl
      · rfl
      · cases calm

/-- What an operation does. -/
inductive Stepped (sha256Hex : List Octet → JsString) (input : ExecuteInput) (run : AttemptRun)
    (op : AttemptOp) : AttemptRun → Prop
  | began (dispatchBaseline : JsString) (begins : op = .begin dispatchBaseline)
      (idle : run.call = none) :
      Stepped sha256Hex input run op
        ⟨run.log ++ [.began (stagingRoundsFrom run.log input.taskId input.attempt),
            .dispatched none],
          some ⟨stagingRoundsFrom run.log input.taskId input.attempt, 0, 0, dispatchBaseline⟩⟩
  | answered {call : StagingCall} {reply : Reply} {added : List AttemptEvent}
      {next : Option StagingCall} (replies : op = .reply reply) (waits : run.call = some call)
      (answered : Answered sha256Hex input call reply added next) :
      Stepped sha256Hex input run op ⟨run.log ++ added, next⟩
  | crashed {added : List AttemptEvent} (quiet : ∀ event ∈ added, event.isQuiet = true) :
      Stepped sha256Hex input run op ⟨run.log ++ added, none⟩
  | aside (added : List AttemptEvent) (quiet : ∀ event ∈ added, event.isQuiet = true) :
      Stepped sha256Hex input run op ⟨run.log ++ added, run.call⟩

theorem stepped (run : AttemptRun) (op : AttemptOp) :
    Stepped sha256Hex input run op (run.act sha256Hex input op) := by
  obtain ⟨log, waiting⟩ := run
  cases op with
  | begin dispatchBaseline =>
      cases waiting with
      | none => exact .began dispatchBaseline rfl rfl
      | some call => exact .aside [] nofun
  | reply reply =>
      cases waiting with
      | none => exact .aside [] nofun
      | some call => exact .answered rfl rfl (answered call reply)
  | crash reply events =>
      cases waiting with
      | none => exact .aside [] nofun
      | some call =>
          exact .crashed fun event member =>
            (answered call reply).quiet_before event (List.mem_of_mem_take member)
  | foreign taskId attempt code message =>
      rw [AttemptRun.act, AttemptRun.effect]
      split_ifs
      · exact .aside [] nofun
      · exact .aside _ fun event member => by rw [List.mem_singleton.mp member]; rfl

/-! ## What a step keeps -/

section Kept

variable {run after : AttemptRun} {op : AttemptOp}

theorem Stepped.throughout (step : Stepped sha256Hex input run op after)
    (throughout : Throughout (Announced input) run.log) :
    Throughout (Announced input) after.log := by
  have quietly : ∀ added : List AttemptEvent, (∀ event ∈ added, event.isQuiet = true) →
      Throughout (Announced input) (run.log ++ added) := fun added quiet =>
    throughout.append fun before event rest shape =>
      announced_of_quiet _ (quiet event (by rw [shape]; simp))
  have dispatching : ∀ (record : AttemptEvent) (message : JsString),
      record.refusal? = some message →
        Throughout (Announced input) (run.log ++ [record, .dispatched (some message)]) := by
    intro record message refusal
    rw [List.append_cons]
    refine (throughout.snoc ?_).snoc ⟨run.log, record, rfl, refusal⟩
    exact announced_of_quiet _ (AttemptEvent.isQuiet_of_refusal refusal)
  cases step with
  | began dispatchBaseline begins idle =>
      rw [List.append_cons]
      refine (throughout.snoc ?_).snoc ⟨run.log, _, rfl⟩
      exact rfl
  | answered replies waits answered =>
      cases answered with
      | concluded quiet => exact quietly _ quiet
      | refused refusal room => exact dispatching _ _ refusal
      | stageRejected answered rejected room => exact dispatching _ _ rfl
  | crashed quiet => exact quietly _ quiet
  | aside added quiet => exact quietly _ quiet

/-- The dispatches of the call that waits are those it has counted, and the first. -/
def Tallied (run : AttemptRun) : Prop :=
  ∀ call, run.call = some call → latestCall run.log =
    some (call.priorStageRejections, call.stageRejections + call.submissionRefusals + 1)

theorem Stepped.tallied (step : Stepped sha256Hex input run op after) (tallied : Tallied run) :
    Tallied after := by
  intro call waiting
  cases step with
  | began dispatchBaseline begins idle =>
      cases waiting
      rw [latestCall, List.foldl_append]
      cases List.foldl tally none run.log <;> rfl
  | answered replies waits answered =>
      cases answered with
      | concluded quiet => cases waiting
      | refused refusal room =>
          cases waiting
          rw [latestCall_dispatched (tallied _ waits) (AttemptEvent.isQuiet_of_refusal refusal)]
          rfl
      | stageRejected answered rejected room =>
          cases waiting
          rw [latestCall_dispatched (tallied _ waits) rfl]
          simp only [Option.some.injEq, Prod.mk.injEq, true_and]
          omega
  | crashed quiet => cases waiting
  | aside added quiet =>
      rw [latestCall_append_quiet quiet]
      exact tallied call waiting

/-- A call that begins has been dispatched once. -/
theorem latestCall_began (log : List AttemptEvent) (prior : Nat) (message : Option JsString) :
    latestCall (log ++ [.began prior, .dispatched message]) = some (prior, 1) := by
  rw [latestCall, List.foldl_append]
  cases List.foldl tally none log <;> rfl

theorem Stepped.callBounded (step : Stepped sha256Hex input run op after) (tallied : Tallied run)
    (bounded : CallBounded run) (unmixed : Unmixed sha256Hex input run op) :
    CallBounded after := by
  have quietly : ∀ (added : List AttemptEvent) (next : Option StagingCall),
      (∀ event ∈ added, event.isQuiet = true) → CallBounded ⟨run.log ++ added, next⟩ := by
    intro added next quiet prior count latest
    rw [latestCall_append_quiet quiet] at latest
    exact bounded prior count latest
  cases step with
  | began dispatchBaseline begins idle =>
      intro prior count latest
      rw [latestCall_began] at latest
      cases latest
      exact le_max_left 1 _
  | answered replies waits answered =>
      cases answered with
      | concluded quiet => exact quietly _ _ quiet
      | refused refusal room =>
          intro prior count latest
          rw [latestCall_dispatched (tallied _ waits) (AttemptEvent.isQuiet_of_refusal refusal)]
            at latest
          cases latest
          omega
      | stageRejected answered rejected room =>
          intro prior count latest
          rw [latestCall_dispatched (tallied _ waits) rfl] at latest
          cases latest
          have kept := unmixed _ _ _ _ waits (replies.trans (congrArg _ answered)) rejected room
          omega
  | crashed quiet => exact quietly _ _ quiet
  | aside added quiet => exact quietly _ _ quiet

theorem act_of_stageRejected {changes : List ProposedChange} {world : World}
    {refusal : StageRefusal} (waits : run.call = some call)
    (rejected : judge sha256Hex input call.dispatchBaseline world changes = .stageRejected refusal)
    (room : call.priorStageRejections + (call.stageRejections + 1) ≤ STAGE_ROUND_BOUND) :
    run.act sha256Hex input (.reply (.answered changes world)) =
      ⟨run.log ++ [.stageRejected input.taskId input.attempt refusal.code refusal.message,
          .dispatched (some refusal.message)],
        some { call with stageRejections := call.stageRejections + 1 }⟩ := by
  obtain ⟨log, waiting⟩ := run
  subst waits
  rw [AttemptRun.act, AttemptRun.effect, AttemptRun.answer, rejected, handle,
    if_neg (Nat.not_lt_of_le room)]
  rfl

/-- A step that mixes its refusals dispatches once too often. -/
theorem unmixed_of_callBounded (tallied : Tallied run)
    (bounded : CallBounded (run.act sha256Hex input op)) : Unmixed sha256Hex input run op := by
  intro call changes world refusal waits replies rejected room
  rw [replies, act_of_stageRejected waits rejected room] at bounded
  have counted := bounded _ _ (latestCall_dispatched (tallied call waits) rfl _)
  rw [STAGE_ROUND_BOUND] at room counted ⊢
  omega

/-- The dispatches of an attempt are those recorded before its call, those that the call has
counted, and the first. -/
structure Counted (run : AttemptRun) : Prop where
  bounded : AttemptBounded run
  waiting : ∀ call, run.call = some call →
    dispatches run.log = call.priorStageRejections + call.stageRejections +
        call.submissionRefusals + 1 ∧
      call.priorStageRejections + call.stageRejections + call.submissionRefusals ≤
        STAGE_ROUND_BOUND

theorem Stepped.counted (step : Stepped sha256Hex input run op after) (counted : Counted run)
    (unmixed : Unmixed sha256Hex input run op) (accounted : Accounted input run op) :
    Counted after := by
  have quietly : ∀ (added : List AttemptEvent) (next : Option StagingCall),
      (∀ event ∈ added, event.isQuiet = true) → (∀ call, next = some call → run.call = some call) →
        Counted ⟨run.log ++ added, next⟩ := by
    intro added next quiet kept
    refine ⟨?_, fun call waits => ?_⟩
    · rw [AttemptBounded, dispatches_append_quiet quiet]
      exact counted.bounded
    · rw [dispatches_append_quiet quiet]
      exact counted.waiting call (kept call waits)
  cases step with
  | began dispatchBaseline begins idle =>
      obtain ⟨recorded, room⟩ := accounted dispatchBaseline begins idle
      refine ⟨?_, fun call waits => ?_⟩
      · rw [AttemptBounded, dispatches_dispatched rfl]
        omega
      · cases waits
        rw [dispatches_dispatched rfl]
        exact ⟨by dsimp only; omega, room⟩
  | answered replies waits answered =>
      obtain ⟨dispatched, room⟩ := counted.waiting _ waits
      cases answered with
      | concluded quiet => exact quietly _ _ quiet nofun
      | refused refusal goesOn =>
          have calm := isDispatch_of_quiet (AttemptEvent.isQuiet_of_refusal refusal)
          refine ⟨?_, fun call waiting => ?_⟩
          · rw [AttemptBounded, dispatches_dispatched calm]
            omega
          · cases waiting
            rw [dispatches_dispatched calm]
            exact ⟨by dsimp only; omega, goesOn⟩
      | stageRejected answered rejected goesOn =>
          have kept := unmixed _ _ _ _ waits (replies.trans (congrArg _ answered)) rejected goesOn
          refine ⟨?_, fun call waiting => ?_⟩
          · rw [AttemptBounded, dispatches_dispatched rfl]
            omega
          · cases waiting
            rw [dispatches_dispatched rfl]
            exact ⟨by dsimp only; omega, kept⟩
  | crashed quiet => exact quietly _ _ quiet nofun
  | aside added quiet => exact quietly _ _ quiet fun call => id

end Kept

/-! ## What a step does to the worktree -/

theorem mem_paths_of_touched {changes : StagedChanges} {event : AttemptEvent} {path : JsString}
    (member : event ∈ changes.writes.map (fun write => AttemptEvent.wrote write.path) ++
      changes.deletes.map .removed) (touched : event.touched? = some path) :
    path ∈ changes.paths := by
  rw [StagedChanges.paths]
  rcases List.mem_append.mp member with wrote | removed
  · obtain ⟨write, inWrites, rfl⟩ := List.mem_map.mp wrote
    cases touched
    exact List.mem_append_left _ (List.mem_map_of_mem inWrites)
  · obtain ⟨deleted, inDeletes, rfl⟩ := List.mem_map.mp removed
    cases touched
    exact List.mem_append_right _ inDeletes

/-- An answer that touches the worktree has passed every gate. -/
theorem staged_of_touched {call : StagingCall} {reply : Reply} {event : AttemptEvent}
    (member : event ∈ (AttemptRun.answer sha256Hex input call reply).1) {path : JsString}
    (touched : event.touched? = some path) :
    (∃ changes world staged, reply = .answered changes world ∧
      judge sha256Hex input call.dispatchBaseline world changes = .staged staged ∧
      path ∈ staged.paths ∧ Permitted input world path) ∧
    (AttemptRun.answer sha256Hex input call reply).2 = none := by
  cases reply with
  | threw => cases member
  | answered changes world =>
      rw [AttemptRun.answer] at member ⊢
      cases judged : judge sha256Hex input call.dispatchBaseline world changes with
      | failed code message =>
          rw [judged] at member
          cases member
      | refused check =>
          rw [judged, handle] at member
          split_ifs at member <;> simp only [List.mem_cons, List.not_mem_nil, or_false] at member
          · rw [member] at touched
            cases touched
          · rcases member with rfl | rfl <;> cases touched
      | stageRejected refusal =>
          rw [judged, handle] at member
          split_ifs at member <;> simp only [List.mem_cons, List.not_mem_nil, or_false] at member
          · rw [member] at touched
            cases touched
          · rcases member with rfl | rfl <;> cases touched
      | staged staged =>
          rw [judged] at member
          have named := mem_paths_of_touched member touched
          exact ⟨⟨changes, world, staged, rfl, judged, named, permitted_of_staged judged named⟩, rfl⟩

theorem touchesRight (run : AttemptRun) (op : AttemptOp) :
    TouchesRight sha256Hex input run op := by
  obtain ⟨log, waiting⟩ := run
  intro event member path touched
  cases op with
  | begin dispatchBaseline =>
      cases waiting with
      | none =>
          rcases List.mem_pair.mp member with rfl | rfl <;> cases touched
      | some call => cases member
  | reply reply =>
      cases waiting with
      | none => cases member
      | some call =>
          obtain ⟨⟨changes, world, staged, rfl, passed⟩, finished⟩ := staged_of_touched member touched
          exact ⟨⟨call, changes, world, staged, rfl, rfl, passed⟩, finished⟩
  | crash reply events =>
      cases waiting with
      | none => cases member
      | some call =>
          have asked := (List.takeWhile_prefix _).subset (List.mem_of_mem_take member)
          obtain ⟨⟨changes, world, staged, rfl, passed⟩, -⟩ := staged_of_touched asked touched
          exact ⟨⟨call, changes, world, staged, rfl, rfl, passed⟩, rfl⟩
  | foreign taskId attempt code message =>
      rw [AttemptRun.effect] at member
      split_ifs at member
      · cases member
      · rw [List.mem_singleton.mp member] at touched
        cases touched

end Steps

/-! ## Runs -/

/-- What is claimed of the calls for an attempt, in every state that operations reach. -/
structure BoundedRounds (sha256Hex : List Octet → JsString) (input : ExecuteInput)
    (ops : List AttemptOp) : Prop where
  perCall : ∀ before, before <+: ops →
    CallBounded (run (AttemptRun.act sha256Hex input) before .start)
  perAttempt : ∀ before, before <+: ops →
    AttemptBounded (run (AttemptRun.act sha256Hex input) before .start)

structure RecordedRounds (sha256Hex : List Octet → JsString) (input : ExecuteInput)
    (ops : List AttemptOp) : Prop where
  recorded : Throughout (Announced input) (run (AttemptRun.act sha256Hex input) ops .start).log
  touches : EveryStep (AttemptRun.act sha256Hex input) (TouchesRight sha256Hex input) ops .start

section Runs

variable (sha256Hex : List Octet → JsString) (input : ExecuteInput) (ops : List AttemptOp)

theorem recordedRounds : RecordedRounds sha256Hex input ops := by
  have always : EveryStep (AttemptRun.act sha256Hex input) (fun _ _ => True) ops .start :=
    everyStep_of_forall (P := fun _ => True) (fun _ _ => trivial) _
  refine ⟨?_, always.mono fun run op _ => touchesRight run op⟩
  exact @EveryStep.invariant _ _ _ _ (fun run => Throughout (Announced input) run.log) _ _ always
    throughout_nil fun run op _ throughout => (stepped run op).throughout throughout

/-- The call that waits is tallied, and the latest call is within its bound. -/
structure WithinCall (run : AttemptRun) : Prop where
  tallied : Tallied run
  bounded : CallBounded run

theorem callBounded_iff :
    (∀ before, before <+: ops →
      CallBounded (run (AttemptRun.act sha256Hex input) before .start)) ↔
    EveryStep (AttemptRun.act sha256Hex input) (Unmixed sha256Hex input) ops .start := by
  have initial : WithinCall .start := ⟨nofun, nofun⟩
  rw [forall_prefix_iff, and_iff_right initial.bounded]
  constructor
  · intro bounded
    exact bounded.of_invariant initial
      (fun run op next kept => ⟨(stepped run op).tallied kept.tallied, next⟩)
      fun run op next kept => unmixed_of_callBounded kept.tallied next
  · intro unmixed
    have step : ∀ run op, Unmixed sha256Hex input run op → WithinCall run →
        WithinCall (run.act sha256Hex input op) :=
      fun run op good kept => ⟨(stepped run op).tallied kept.tallied,
        (stepped run op).callBounded kept.tallied kept.bounded good⟩
    exact unmixed.of_invariant initial step fun run op good kept => (step run op good kept).bounded

theorem attemptBounded_of_accounted
    (accounted : EveryStep (AttemptRun.act sha256Hex input)
      (fun run op => Unmixed sha256Hex input run op ∧ Accounted input run op) ops .start) :
    AttemptBounded (run (AttemptRun.act sha256Hex input) ops .start) := by
  have initial : Counted .start := ⟨Nat.zero_le _, nofun⟩
  have counted := accounted.invariant initial
    fun run op good kept => (stepped run op).counted kept good.1 good.2
  exact counted.bounded

theorem staging_rounds :
    RecordedRounds sha256Hex input ops ∧
      ((∀ before, before <+: ops →
          CallBounded (run (AttemptRun.act sha256Hex input) before .start)) ↔
        EveryStep (AttemptRun.act sha256Hex input) (Unmixed sha256Hex input) ops .start) ∧
      (EveryStep (AttemptRun.act sha256Hex input)
          (fun run op => Unmixed sha256Hex input run op ∧ Accounted input run op) ops .start →
        BoundedRounds sha256Hex input ops) := by
  refine ⟨recordedRounds sha256Hex input ops, callBounded_iff sha256Hex input ops, fun accounted => ?_⟩
  refine ⟨(callBounded_iff sha256Hex input ops).mpr (accounted.mono fun run op => And.left), ?_⟩
  exact fun before part =>
    attemptBounded_of_accounted sha256Hex input before (accounted.of_prefix part)

end Runs

/-! ### Refusals of both kinds -/

namespace Mixed

def input : ExecuteInput where
  taskId := js "t"
  attempt := 1
  writeTargets := [js "a"]
  attribution := []
  priorRecordedWork := false

theorem anchor_ne_nil : js "x" ≠ [] := nofun

def changes : List ProposedChange :=
  [.patch (js "a") (js "0") (js "x") (js "y") anchor_ne_nil]

/-- The worktree is empty, at a revision. -/
def worldAt (head : JsString) : World where
  tree := fun _ => none
  entries := ⟨fun _ => none, fun _ _ missing => missing⟩
  view := ⟨some head, fun _ => none, some [], fun _ => none⟩
  attributionStoreExists := true

/-- A commit is made and taken back; then the file to patch is missing three times. -/
def ops : List AttemptOp :=
  [.begin (js "r"), .reply (.answered changes (worldAt (js "s"))),
    .reply (.answered changes (worldAt (js "r"))), .reply (.answered changes (worldAt (js "r"))),
    .reply (.answered changes (worldAt (js "r")))]

end Mixed

theorem not_staging_rounds : ¬ ∀ (sha256Hex : List Octet → JsString) (input : ExecuteInput)
    (ops : List AttemptOp),
    RecordedRounds sha256Hex input ops ∧ BoundedRounds sha256Hex input ops := by
  intro holds
  have bounded := (holds (fun _ => []) Mixed.input Mixed.ops).2.perAttempt _ List.prefix_rfl
  have five : dispatches
      (run (AttemptRun.act (fun _ => []) Mixed.input) Mixed.ops .start).log = 5 := by
    decide +kernel
  rw [AttemptBounded, five] at bounded
  exact absurd bounded (by decide)

end SpecAsCode.Executor
