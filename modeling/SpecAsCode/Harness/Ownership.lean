import SpecAsCode.Harness.Candidates
import SpecAsCode.Harness.Polling
import Mathlib.Logic.Function.Basic

/-!
# Who answers a request

Agents answer one request, claim candidates for it and record refusals, while the run polls it.
What is done under the lock of the store is done in several steps; a claim takes no lock.
-/

namespace SpecAsCode.Harness

open SpecAsCode.Js SpecAsCode.History

/-- What a process does under the lock. -/
inductive LockedTask where
  | answer (submitted : HarnessAnswer)
  /-- `requeueWithFeedback` with the feedback of a gate. -/
  | feedback (text : JsString)
  /-- `requeueWithFeedback` of the run, for a submission that it found invalid. -/
  | reject (submission : Nat) (issues : List Issue)
  /-- `clearPending` of the run. -/
  | clear

/-- Where a process is. -/
inductive Phase where
  | idle
  | waiting (task : LockedTask)
  | inside (task : LockedTask)
  /-- The guards of `answer` have passed. -/
  | writing (submitted : HarnessAnswer)
  | leaving
  /-- `claimCandidate` has found the request live. -/
  | claiming (candidate : CandidateRecord) (request : HarnessRequest)
  /-- All its checks have passed. -/
  | claimed (candidate : CandidateRecord)

/-- A process that is between `acquireLock` and the end of `releaseLock`. -/
def Phase.isInside : Phase → Bool
  | .inside _ => true
  | .writing _ => true
  | .leaving => true
  | _ => false

def Phase.isWriting : Phase → Bool
  | .writing _ => true
  | _ => false

/-- The files of the request, the lock, and the processes by their numbers. -/
structure Desk where
  files : RequestFiles
  lock : Option Nat
  phases : Nat → Phase
  /-- The counter of the polling loop. -/
  invalidAnswers : Nat
  /-- The number of answers that were written; the one on record is the last. -/
  submissions : Nat
  /-- The submissions that the run has rejected. -/
  rejected : List Nat
  /-- The submissions that the run has taken. -/
  consumed : List Nat
  /-- The number of answers when feedback was last recorded. -/
  heard : Nat
  /-- How often the deadline of the request was moved. -/
  window : Nat
  /-- The windows in which candidates were admitted. -/
  admitted : List Nat
  /-- The submissions that were overwritten before the run had rejected or taken them. -/
  lost : List Nat

/-- The process that polls. -/
def RUN : Nat := 0

inductive Move where
  | answer (submitted : HarnessAnswer)
  | refuse (code detail remediation : JsString)
  /-- The run reads the answer on record. -/
  | poll
  | acquire
  /-- A waiting process removes the lock of another one. -/
  | breakLock
  | proceed (now : Int)
  | release
  | claim (candidate : CandidateRecord)
  /-- The checks of a claim, with the answers of other requests and the digest of the
  configuration at that time. -/
  | check (configDigest : JsString) (others : List HarnessAnswer)
  /-- The rename that installs the answer of a claim. -/
  | rename (requestId : JsString) (now : Int)
  | crash

namespace Desk

def setPhase (desk : Desk) (process : Nat) (phase : Phase) : Desk :=
  { desk with phases := Function.update desk.phases process phase }

/-- There is no answer on record, or the run is done with it. -/
def Replaceable (desk : Desk) : Prop :=
  desk.files.answered = none ∨ desk.submissions ∈ desk.rejected ∨ desk.submissions ∈ desk.consumed

instance decidableReplaceable (desk : Desk) : Decidable desk.Replaceable :=
  decidable_of_iff (desk.files.answered.isNone = true ∨ desk.submissions ∈ desk.rejected ∨
    desk.submissions ∈ desk.consumed) (by rw [Replaceable, Option.isNone_iff_eq_none])

/-- An answer is written to `answered/<id>.json`. -/
def write (desk : Desk) (submitted : HarnessAnswer) : Desk :=
  { desk with
    files := desk.files.writeAnswer submitted
    submissions := desk.submissions + 1
    lost := if desk.Replaceable then desk.lost else desk.submissions :: desk.lost }

/-- Feedback is recorded on the request. -/
def requeue (desk : Desk) (error : JsString) (now : Int) (refreshWindowMs : Option Int) : Desk :=
  let moved := refreshWindowMs.isSome && desk.files.pending.any fun request =>
    request.expiresAt.isSome
  { desk with
    files := requeueWithFeedback desk.files error now refreshWindowMs
    heard := desk.submissions
    window := if moved then desk.window + 1 else desk.window }

/-- The run counts an invalid answer. -/
def reject (desk : Desk) (submission : Nat) : Desk :=
  { desk with
    invalidAnswers := desk.invalidAnswers + 1
    rejected := submission :: desk.rejected }

/-- The run takes the answer on record. -/
def take (desk : Desk) : Desk :=
  { desk with consumed := desk.submissions :: desk.consumed }

def clear (desk : Desk) : Desk :=
  { desk with files := desk.files.clearPending }

/-- The window admits a candidate. -/
def settle (desk : Desk) : Desk :=
  { desk with admitted := desk.window :: desk.admitted }

def setLock (desk : Desk) (lock : Option Nat) : Desk :=
  { desk with lock := lock }

end Desk

section Moves

variable (sha256 : JsString → JsString) (windowMs : Int)

/-- What a process does that holds the lock. -/
def proceedTask (desk : Desk) (process : Nat) (now : Int) : LockedTask → Desk
  | .answer submitted =>
      match answerRefusal desk.files now with
      | some _ => desk.setPhase process .leaving
      | none => desk.setPhase process (.writing submitted)
  | .feedback text => (desk.requeue text now none).setPhase process .leaving
  | .reject submission issues =>
      let refresh := desk.invalidAnswers + 1 ≤ MAX_REQUEUE_REFRESHES
      ((desk.reject submission).requeue (issuesText issues) now
        (if refresh then some windowMs else none)).setPhase process .leaving
  | .clear => desk.clear.setPhase process .leaving

/-- The run takes a valid answer, and has feedback for another one. -/
def pollDesk {Value : Type} (validate : JsValue → Except (List Issue) Value) (desk : Desk) : Desk :=
  match desk.files.answered with
  | none => desk
  | some found =>
      match validate found.value with
      | .ok _ => desk.take.setPhase RUN (.waiting .clear)
      | .error issues => desk.setPhase RUN (.waiting (.reject desk.submissions issues))

variable {Value : Type} (validate : JsValue → Except (List Issue) Value)

/-- A step of a process.  A move that is not open to the process changes nothing. -/
def deskStep : Nat × Move → Desk → Desk
  | (process, move), desk =>
      match move, desk.phases process with
      | .answer submitted, .idle => desk.setPhase process (.waiting (.answer submitted))
      | .refuse code detail remediation, .idle =>
          if desk.files.hasAnswer then desk
          else desk.setPhase process (.waiting (.feedback (refusalFeedback code detail remediation)))
      | .poll, .idle => if process = RUN then pollDesk validate desk else desk
      | .acquire, .waiting task =>
          if desk.lock = none then (desk.setLock (some process)).setPhase process (.inside task)
          else desk
      | .breakLock, .waiting _ => desk.setLock none
      | .proceed now, .inside task => proceedTask windowMs desk process now task
      | .proceed _, .writing submitted => (desk.write submitted).setPhase process .leaving
      | .release, .leaving => (desk.setLock none).setPhase process .idle
      | .claim candidate, .idle =>
          match desk.files.pending with
          | none => desk
          | some request => desk.setPhase process (.claiming candidate request)
      | .check configDigest others, .claiming candidate request =>
          match claimRefusal sha256 configDigest candidate request
              (desk.files.answered.toList ++ others) with
          | some _ => desk.setPhase process .idle
          | none => desk.setPhase process (.claimed candidate)
      | .rename requestId now, .claimed candidate =>
          (desk.settle.write (candidate.answer requestId now)).setPhase process .idle
      | .crash, _ => desk.setPhase process .idle
      | _, _ => desk

end Moves

/-- A request is put into the queue. -/
def newDesk (request : HarnessRequest) : Desk where
  files := ⟨some request, none, none⟩
  lock := none
  phases _ := .idle
  invalidAnswers := 0
  submissions := 0
  rejected := []
  consumed := []
  heard := 0
  window := 0
  admitted := []
  lost := []

/-- No answer was overwritten that the run had neither rejected nor taken, and no window admitted
two candidates. -/
def Owned (desk : Desk) : Prop :=
  desk.lost = [] ∧ desk.admitted.Nodup

/-- Whoever holds the lock is not at the given kind of place. -/
def Desk.holderIsNot (desk : Desk) (place : Phase → Bool) : Prop :=
  desk.lock.all (fun holder => !place (desk.phases holder)) = true

/-- When a step cannot cost an answer. -/
def Careful (desk : Desk) : Nat × Move → Prop
  | (process, move) =>
      match move, desk.phases process with
      -- No lock is taken from a process that works under it.
      | .breakLock, .waiting _ => desk.holderIsNot Phase.isInside
      -- Feedback on the request is not older than the answer on record.
      | .proceed _, .inside (.answer _) =>
          desk.files.pending.any HarnessRequest.hasFeedback = true →
            desk.files.hasAnswer = true → desk.heard = desk.submissions
      -- No answer has come in since the gate looked.
      | .proceed _, .inside (.feedback _) => desk.Replaceable
      -- The answer on record is the one that was found invalid.
      | .proceed _, .inside (.reject submission _) => desk.submissions = submission
      -- A claim answers a request that is without an answer, once in a window, while nobody else
      -- is about to write one.
      | .rename _ _, .claimed _ =>
          desk.Replaceable ∧ desk.window ∉ desk.admitted ∧ desk.holderIsNot Phase.isWriting
      | _, _ => True

instance decidableCareful (desk : Desk) (op : Nat × Move) : Decidable (Careful desk op) :=
  match op with
  | (process, move) => by
      simp only [Careful, Desk.holderIsNot]
      split <;> infer_instance

theorem Phase.isInside_of_isWriting {phase : Phase} (writing : phase.isWriting = true) :
    phase.isInside = true := by
  cases phase with
  | writing submitted => rfl
  | idle => cases writing
  | waiting task => cases writing
  | inside task => cases writing
  | leaving => cases writing
  | claiming candidate request => cases writing
  | claimed candidate => cases writing

/-- What careful steps keep. -/
structure Kept (desk : Desk) : Prop where
  locked : ∀ process, (desk.phases process).isInside = true → desk.lock = some process
  writing : ∀ process, (desk.phases process).isWriting = true → desk.Replaceable
  heardAlready : desk.heard ≤ desk.submissions
  heard : desk.heard = desk.submissions → desk.Replaceable
  owned : Owned desk

theorem kept_newDesk (request : HarnessRequest) : Kept (newDesk request) where
  locked _ inside := by cases inside
  writing _ writing := by cases writing
  heardAlready := le_refl 0
  heard _ := Or.inl rfl
  owned := ⟨rfl, List.nodup_nil⟩

section Steps

variable {desk : Desk} {process : Nat}

theorem phases_setPhase (desk : Desk) (process : Nat) (phase : Phase) (other : Nat) :
    (desk.setPhase process phase).phases other =
      if other = process then phase else desk.phases other :=
  Function.update_apply desk.phases process phase other

/-- A process goes on to another place. -/
theorem Kept.setPhase (kept : Kept desk) {phase : Phase}
    (inside : phase.isInside = true → desk.lock = some process)
    (writing : phase.isWriting = true → desk.Replaceable) :
    Kept (desk.setPhase process phase) where
  locked other here := by
    rw [phases_setPhase] at here
    split_ifs at here with same
    · rw [same]
      exact inside here
    · exact kept.locked other here
  writing other here := by
    rw [phases_setPhase] at here
    split_ifs at here
    · exact writing here
    · exact kept.writing other here
  heardAlready := kept.heardAlready
  heard := kept.heard
  owned := kept.owned

/-- A process goes to a place outside the lock. -/
theorem Kept.leave (kept : Kept desk) {phase : Phase} (outside : phase.isInside = false) :
    Kept (desk.setPhase process phase) := by
  refine kept.setPhase (fun inside => ?_) fun writing => ?_
  · rw [outside] at inside
    cases inside
  · rw [Phase.isInside_of_isWriting writing] at outside
    cases outside

/-- Nobody works under a lock whose holder does not. -/
theorem Kept.nobody (kept : Kept desk) {place : Phase → Bool}
    (within : ∀ phase, place phase = true → phase.isInside = true)
    (holder : desk.holderIsNot place) (other : Nat) : place (desk.phases other) = false := by
  by_contra here
  rw [Bool.not_eq_false] at here
  have locked := kept.locked other (within _ here)
  rw [Desk.holderIsNot, locked, Option.all_some, here] at holder
  cases holder

/-- Two processes do not work under the lock together. -/
theorem Kept.alone (kept : Kept desk) {other : Nat}
    (inside : (desk.phases process).isInside = true)
    (otherInside : (desk.phases other).isInside = true) : other = process :=
  Option.some.inj ((kept.locked other otherInside).symm.trans (kept.locked process inside))

theorem Kept.acquire (kept : Kept desk) (free : desk.lock = none) {task : LockedTask} :
    Kept ((desk.setLock (some process)).setPhase process (.inside task)) where
  locked other here := by
    rw [phases_setPhase] at here
    split_ifs at here with same
    · rw [same]
      rfl
    · rw [kept.locked other here] at free
      cases free
  writing other here := by
    rw [phases_setPhase] at here
    split_ifs at here
    · cases here
    · exact kept.writing other here
  heardAlready := kept.heardAlready
  heard := kept.heard
  owned := kept.owned

theorem Kept.unlock (kept : Kept desk)
    (nobody : ∀ other, (desk.phases other).isInside = false) : Kept (desk.setLock none) where
  locked other here := by
    rw [show (desk.setLock none).phases other = desk.phases other from rfl, nobody other] at here
    cases here
  writing := kept.writing
  heardAlready := kept.heardAlready
  heard := kept.heard
  owned := kept.owned

/-- Who leaves takes the lock away. -/
theorem Kept.release (kept : Kept desk) (inside : (desk.phases process).isInside = true) :
    Kept ((desk.setLock none).setPhase process .idle) := by
  have left : Kept (desk.setPhase process .idle) := kept.leave rfl
  refine left.unlock fun other => ?_
  rw [phases_setPhase]
  split_ifs with same
  · rfl
  · by_contra here
    rw [Bool.not_eq_false] at here
    exact same (kept.alone inside here)

/-- Feedback is recorded while no answer waits for the run. -/
theorem Kept.requeue (kept : Kept desk) (replaceable : desk.Replaceable) (error : JsString)
    (now : Int) (window : Option Int) : Kept (desk.requeue error now window) := by
  have same : (desk.requeue error now window).Replaceable ↔ desk.Replaceable := by
    rw [Desk.Replaceable, Desk.requeue, answered_requeueWithFeedback]
    rfl
  exact
    { locked := kept.locked
      writing := fun _ _ => same.mpr replaceable
      heardAlready := le_refl _
      heard := fun _ => same.mpr replaceable
      owned := kept.owned }

theorem replaceable_reject (replaceable : desk.Replaceable) (submission : Nat) :
    (desk.reject submission).Replaceable :=
  replaceable.imp_right (Or.imp_left (List.mem_cons_of_mem submission))

theorem replaceable_take (desk : Desk) : desk.take.Replaceable :=
  Or.inr (Or.inr List.mem_cons_self)

theorem Kept.reject (kept : Kept desk) (submission : Nat) : Kept (desk.reject submission) where
  locked := kept.locked
  writing other here := replaceable_reject (kept.writing other here) submission
  heardAlready := kept.heardAlready
  heard same := replaceable_reject (kept.heard same) submission
  owned := kept.owned

theorem Kept.take (kept : Kept desk) : Kept desk.take where
  locked := kept.locked
  writing _ _ := replaceable_take desk
  heardAlready := kept.heardAlready
  heard _ := replaceable_take desk
  owned := kept.owned

theorem Kept.clear (kept : Kept desk) : Kept desk.clear where
  locked := kept.locked
  writing := kept.writing
  heardAlready := kept.heardAlready
  heard := kept.heard
  owned := kept.owned

theorem Kept.settle (kept : Kept desk) (fresh : desk.window ∉ desk.admitted) : Kept desk.settle where
  locked := kept.locked
  writing := kept.writing
  heardAlready := kept.heardAlready
  heard := kept.heard
  owned := ⟨kept.owned.1, List.nodup_cons.mpr ⟨fresh, kept.owned.2⟩⟩

/-- An answer is written where it replaces nothing that the run waits for. -/
theorem Kept.write (kept : Kept desk) (replaceable : desk.Replaceable) {phase : Phase}
    (alone : ∀ other, other ≠ process → (desk.phases other).isWriting = false)
    (inside : phase.isInside = true → desk.lock = some process)
    (written : phase.isWriting = false) (submitted : HarnessAnswer) :
    Kept ((desk.write submitted).setPhase process phase) where
  locked other here := by
    rw [phases_setPhase] at here
    split_ifs at here with same
    · rw [same]
      exact inside here
    · exact kept.locked other here
  writing other here := by
    rw [phases_setPhase] at here
    split_ifs at here with same
    · rw [written] at here
      cases here
    · rw [show (desk.write submitted).phases other = desk.phases other from rfl,
        alone other same] at here
      cases here
  heardAlready := Nat.le_succ_of_le kept.heardAlready
  heard same := by
    have earlier := kept.heardAlready
    change desk.heard = desk.submissions + 1 at same
    omega
  owned := by
    refine ⟨?_, kept.owned.2⟩
    change (if desk.Replaceable then desk.lost else desk.submissions :: desk.lost) = []
    rw [if_pos replaceable]
    exact kept.owned.1

end Steps

section Runs

variable {sha256 : JsString → JsString} {windowMs : Int} {Value : Type}
variable {validate : JsValue → Except (List Issue) Value} {desk : Desk} {process : Nat}

/-- The guards of `answer` pass only where an answer may be written. -/
theorem Kept.accepts (kept : Kept desk) {now : Int}
    (accepted : answerRefusal desk.files now = none)
    (careful : desk.files.pending.any HarnessRequest.hasFeedback = true →
      desk.files.hasAnswer = true → desk.heard = desk.submissions) : desk.Replaceable := by
  obtain ⟨request, pending, -, unanswered | feedback⟩ := of_answerRefusal_eq_none accepted
  · exact Or.inl unanswered
  · cases answered : desk.files.answered with
    | none => exact Or.inl answered
    | some found =>
        refine kept.heard (careful ?_ ?_)
        · rw [pending, Option.any_some, feedback]
        · rw [RequestFiles.hasAnswer, answered, Option.isSome_some]

theorem Kept.proceedTask (kept : Kept desk) {task : LockedTask} {now : Int}
    (here : desk.phases process = .inside task)
    (careful : Careful desk (process, .proceed now)) :
    Kept (proceedTask windowMs desk process now task) := by
  have holds : desk.lock = some process := kept.locked process (by rw [here]; rfl)
  cases task with
  | answer submitted =>
      simp only [Careful, here] at careful
      rw [Harness.proceedTask]
      split
      · exact kept.setPhase (fun _ => holds) fun writing => by cases writing
      · next accepted => exact kept.setPhase (fun _ => holds) fun _ => kept.accepts accepted careful
  | feedback text =>
      simp only [Careful, here] at careful
      exact (kept.requeue careful _ _ _).setPhase (fun _ => holds) fun writing => by cases writing
  | reject submission issues =>
      simp only [Careful, here] at careful
      have replaceable : (desk.reject submission).Replaceable :=
        Or.inr (Or.inl (careful ▸ List.mem_cons_self))
      exact ((kept.reject submission).requeue replaceable _ _ _).setPhase (fun _ => holds)
        fun writing => by cases writing
  | clear => exact kept.clear.setPhase (fun _ => holds) fun writing => by cases writing

theorem Kept.pollDesk (kept : Kept desk) : Kept (pollDesk validate desk) := by
  rw [Harness.pollDesk]
  split
  · exact kept
  · split
    · exact kept.take.leave rfl
    · exact kept.leave rfl

/-- A claim writes its answer where the run waits for one. -/
theorem Kept.rename (kept : Kept desk) {candidate : CandidateRecord} {requestId : JsString}
    {now : Int} (here : desk.phases process = .claimed candidate)
    (careful : Careful desk (process, .rename requestId now)) :
    Kept ((desk.settle.write (candidate.answer requestId now)).setPhase process .idle) := by
  simp only [Careful, here] at careful
  obtain ⟨replaceable, fresh, holder⟩ := careful
  refine (kept.settle fresh).write replaceable (fun other _ => ?_) (fun inside => by cases inside)
    rfl _
  exact kept.nobody (fun _ => Phase.isInside_of_isWriting) holder other

theorem Kept.writeAnswer (kept : Kept desk) {submitted : HarnessAnswer}
    (here : desk.phases process = .writing submitted) :
    Kept ((desk.write submitted).setPhase process .leaving) := by
  have inside : (desk.phases process).isInside = true := by rw [here]; rfl
  refine kept.write (kept.writing process (by rw [here]; rfl)) (fun other different => ?_)
    (fun _ => kept.locked process inside) rfl submitted
  by_contra writing
  rw [Bool.not_eq_false] at writing
  exact different (kept.alone inside (Phase.isInside_of_isWriting writing))

/-- A careful step keeps the answers. -/
theorem Kept.step (kept : Kept desk) {op : Nat × Move} (careful : Careful desk op) :
    Kept (deskStep sha256 windowMs validate op desk) := by
  obtain ⟨process, move⟩ := op
  simp only [deskStep]
  split
  · exact kept.leave rfl
  · split_ifs
    · exact kept
    · exact kept.leave rfl
  · split_ifs
    · exact kept.pollDesk
    · exact kept
  · split_ifs with free
    · exact kept.acquire free
    · exact kept
  · next here =>
      simp only [Careful, here] at careful
      exact kept.unlock (kept.nobody (fun _ => id) careful)
  · next here => exact kept.proceedTask here careful
  · next here => exact kept.writeAnswer here
  · next here => exact kept.release (by rw [here]; rfl)
  · split
    · exact kept
    · exact kept.leave rfl
  · split
    · exact kept.leave rfl
    · exact kept.leave rfl
  · next here => exact kept.rename here careful
  · exact kept.leave rfl
  · exact kept

/-- In a history of careful steps no answer is overwritten that the run waits for, and no window
admits two candidates. -/
theorem owned_of_careful (sha256 : JsString → JsString) (windowMs : Int)
    (validate : JsValue → Except (List Issue) Value) (request : HarnessRequest)
    {moves : List (Nat × Move)}
    (careful : EveryStep (deskStep sha256 windowMs validate) Careful moves (newDesk request)) :
    ∀ before, before <+: moves →
      Owned (run (deskStep sha256 windowMs validate) before (newDesk request)) :=
  fun _ part => ((careful.of_prefix part).invariant (kept_newDesk request)
    fun _ _ step kept => kept.step step).owned

end Runs

/-! ## A claim in front of the run -/

def taskRequest : HarnessRequest where
  id := js "executor-T001-1"
  schemaName := js "ExecutorResult"
  jsonSchema := .object [(js "type", .string (js "boolean"))]
  prompt := js "Execute the task."
  createdAt := 0
  expiresAt := some 3600000
  runId := some (js "run-1")
  lastError := none

def taskAnswer (value : JsValue) : HarnessAnswer where
  id := js "executor-T001-1"
  value := value
  answeredBy := some (js "agent")
  answeredAt := 500
  rehearsedWith := none
  candidateId := none
  claimedFromRequest := none

def taskCandidate : CandidateRecord where
  id := js "cand-1"
  value := .bool false
  composedAgainst := deriveFingerprint id (js "none") taskRequest
  composedFromRequest := js "executor-T001-0"
  composedBy := none

/-- One agent answers, under the lock. -/
def answerMoves (process : Nat) (submitted : HarnessAnswer) (now : Int) : List (Nat × Move) :=
  [(process, .answer submitted), (process, .acquire), (process, .proceed now),
    (process, .proceed now), (process, .release)]

/-- One agent claims a candidate. -/
def claimMoves (process : Nat) (now : Int) : List (Nat × Move) :=
  [(process, .claim taskCandidate), (process, .check (js "none") []),
    (process, .rename (js "executor-T001-1") now)]

/-- The run polls, and does what follows under the lock. -/
def pollMoves (now : Int) : List (Nat × Move) :=
  [(RUN, .poll), (RUN, .acquire), (RUN, .proceed now), (RUN, .release)]

/-- A valid answer is accepted, and a candidate is claimed before the run polls. -/
theorem not_owned :
    ¬ Owned (run (deskStep id 3600000 validateBoolean)
      (answerMoves 1 (taskAnswer (.bool true)) 500 ++ claimMoves 2 700) (newDesk taskRequest)) := by
  rw [Owned]
  decide

/-- A candidate replaces an answer that the run has rejected. -/
theorem owned_of_careful_rejected :
    EveryStep (deskStep id 3600000 validateBoolean) Careful
        (answerMoves 1 (taskAnswer .null) 500 ++ pollMoves 1000 ++ claimMoves 2 1500 ++
          pollMoves 2000) (newDesk taskRequest) ∧
      ∀ before, before <+: answerMoves 1 (taskAnswer .null) 500 ++ pollMoves 1000 ++
          claimMoves 2 1500 ++ pollMoves 2000 →
        Owned (run (deskStep id 3600000 validateBoolean) before (newDesk taskRequest)) :=
  ⟨by decide, owned_of_careful id 3600000 validateBoolean taskRequest (by decide)⟩

end SpecAsCode.Harness
