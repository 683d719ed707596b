import SpecAsCode.Harness.Store
import SpecAsCode.Lib.History
import Mathlib.Data.Finset.Card

/-!
# Polling for an answer

The loop of `generateStructured` looks into the store once in a while.  Other processes submit
answers, record feedback and retire the request between the polls, and during them.
-/

namespace SpecAsCode.Harness

open SpecAsCode.Js SpecAsCode.History

/-- What other processes do to the files of the request. -/
inductive FileEvent where
  | answer (now : Int) (submitted : HarnessAnswer)
  /-- A candidate that was found claimable is renamed to `answered/<id>.json`. -/
  | claim (submitted : HarnessAnswer)
  | refusalFeedback (code detail remediation : JsString) (now : Int)
  | retire

/-- The files of the request, and the number of submissions that have been written. -/
structure Queue where
  files : RequestFiles
  submissions : Nat

def Queue.submit (queue : Queue) (files : RequestFiles) : Queue where
  files := files
  submissions := queue.submissions + 1

def fileEvent : FileEvent → Queue → Queue
  | .answer now submitted, queue =>
      match answer queue.files now submitted with
      | .ok files => queue.submit files
      | .error _ => queue
  | .claim submitted, queue => queue.submit (queue.files.writeAnswer submitted)
  | .refusalFeedback code detail remediation now, queue =>
      { queue with files := recordRefusalFeedback queue.files code detail remediation now }
  | .retire, queue => { queue with files := queue.files.expirePending }

/-- An issue of `validateStructured`. -/
structure Issue where
  path : JsString
  message : JsString

def Issue.text (issue : Issue) : JsString :=
  (if issue.path = [] then js "<root>" else issue.path) ++ js ": " ++ issue.message

/-- The first eight issues with semicolons between them. -/
def issuesText (issues : List Issue) : JsString :=
  (((issues.take 8).map Issue.text).intersperse (js "; ")).flatten

def MAX_REQUEUE_REFRESHES : Nat := 5

inductive Outcome (Value : Type) where
  | value (value : Value)
  /-- `HARNESS_REQUEST_RETIRED`. -/
  | requestRetired
  /-- `HARNESS_RESPONSE_TIMEOUT`. -/
  | responseTimeout

/-- The variables of the loop, with what it has rejected. -/
structure Poller (Value : Type) where
  windowStart : Int
  invalidAnswers : Nat
  outcome : Option (Outcome Value)
  /-- How often the window was moved forward. -/
  windowsConsumed : Nat
  /-- The submissions that were rejected, by their numbers. -/
  rejected : List Nat

structure Waiting (Value : Type) where
  queue : Queue
  poller : Poller Value

/-- One turn of the loop, with what happens to the files between its looks at them. -/
structure Poll where
  now : Int
  afterLook : List FileEvent
  afterValidation : List FileEvent

inductive TimelineOp where
  | file (event : FileEvent)
  | poll (poll : Poll)

section Loop

variable {Value : Type} (validate : JsValue → Except (List Issue) Value) (windowMs : Int)

/-- The condition of the loop, and what follows it. -/
def Waiting.whileOpen (waiting : Waiting Value) (now : Int) : Waiting Value :=
  if now < waiting.poller.windowStart + windowMs then
    waiting
  else
    { queue := { waiting.queue with files := waiting.queue.files.expirePending },
      poller := { waiting.poller with outcome := some .responseTimeout } }

/-- Whether the next invalid answer moves the window forward. -/
def Poller.refreshes (poller : Poller Value) : Bool :=
  poller.invalidAnswers + 1 ≤ MAX_REQUEUE_REFRESHES

/-- An invalid answer is counted. -/
def Poller.reject (poller : Poller Value) (submission : Nat) (now : Int) : Poller Value where
  windowStart := if poller.refreshes then now else poller.windowStart
  invalidAnswers := poller.invalidAnswers + 1
  outcome := poller.outcome
  windowsConsumed := if poller.refreshes then poller.windowsConsumed + 1 else poller.windowsConsumed
  rejected := submission :: poller.rejected

/-- An invalid answer is kept, and the request with feedback on it. -/
def Waiting.requeue (waiting : Waiting Value) (submission : Nat) (issues : List Issue)
    (now : Int) : Waiting Value where
  queue :=
    { waiting.queue with
      files := requeueWithFeedback waiting.queue.files (issuesText issues) now
        (if waiting.poller.refreshes then some windowMs else none) }
  poller := waiting.poller.reject submission now

/-- The submission that a poll reads. -/
def Poll.reads (poll : Poll) (queue : Queue) : Option (Nat × HarnessAnswer) :=
  if queue.files.hasAnswer then
    let looked := run fileEvent poll.afterLook queue
    looked.files.answered.map fun found => (looked.submissions, found)
  else
    none

/-- One turn of the loop after its pause. -/
def pollOnce (poll : Poll) (waiting : Waiting Value) : Waiting Value :=
  let looked := { waiting with queue := run fileEvent poll.afterLook waiting.queue }
  if waiting.queue.files.hasAnswer then
    match looked.queue.files.answered with
    | none => looked.whileOpen windowMs poll.now
    | some found =>
        let validated :=
          { looked with queue := run fileEvent poll.afterValidation looked.queue }
        match validate found.value with
        | .ok value =>
            { queue := { validated.queue with files := validated.queue.files.clearPending },
              poller := { validated.poller with outcome := some (.value value) } }
        | .error issues =>
            (validated.requeue windowMs looked.queue.submissions issues poll.now).whileOpen
              windowMs poll.now
  else if looked.queue.files.hasPending then
    looked.whileOpen windowMs poll.now
  else
    { looked with poller := { looked.poller with outcome := some .requestRetired } }

/-- A step of a timeline.  A loop that has ended polls no more. -/
def timelineStep : TimelineOp → Waiting Value → Waiting Value
  | .file event, waiting => { waiting with queue := fileEvent event waiting.queue }
  | .poll poll, waiting =>
      if waiting.poller.outcome.isNone then pollOnce validate windowMs poll waiting else waiting

/-- The request is dispatched, and the loop begins. -/
def dispatched (request : HarnessRequest) (now : Int) : Waiting Value :=
  Waiting.whileOpen windowMs
    { queue := ⟨⟨some request, none, none⟩, 0⟩,
      poller := ⟨now, 0, none, 0, []⟩ } now

end Loop

section Statement

variable {Value : Type} (validate : JsValue → Except (List Issue) Value) (windowMs : Int)

/-- There is an answer, and it is valid. -/
def ValidAnswer (files : RequestFiles) : Prop :=
  ∃ found value, files.answered = some found ∧ validate found.value = .ok value

/-- The poll reads a submission that was not rejected before. -/
def SeesNew (waiting : Waiting Value) (poll : Poll) : Prop :=
  ∃ submission found, poll.reads waiting.queue = some (submission, found) ∧
    submission ∉ waiting.poller.rejected

/-- A poll that sees no new submission consumes no window, and one that finds the request retired
without a valid answer raises `HARNESS_REQUEST_RETIRED`. -/
def PollAsClaimed (waiting : Waiting Value) : TimelineOp → Prop
  | .file _ => True
  | .poll poll => waiting.poller.outcome = none →
      (¬ SeesNew waiting poll →
        (pollOnce validate windowMs poll waiting).poller.windowsConsumed =
          waiting.poller.windowsConsumed) ∧
      (waiting.queue.files.hasPending = false → ¬ ValidAnswer validate waiting.queue.files →
        (pollOnce validate windowMs poll waiting).poller.outcome = some .requestRetired)

/-- As many windows as there are rejected submissions, up to the limit. -/
def WindowsMatch (waiting : Waiting Value) : Prop :=
  waiting.poller.windowsConsumed =
    min waiting.poller.rejected.toFinset.card MAX_REQUEUE_REFRESHES

def PollsAsClaimed (waiting : Waiting Value) (timeline : List TimelineOp) : Prop :=
  (∀ before, before <+: timeline →
    WindowsMatch (run (timelineStep validate windowMs) before waiting)) ∧
  EveryStep (timelineStep validate windowMs) (PollAsClaimed validate windowMs) timeline waiting

/-- The submission that a poll rejects. -/
def Poll.rejects (poll : Poll) (queue : Queue) : Option Nat :=
  match poll.reads queue with
  | some (submission, found) =>
      match validate found.value with
      | .ok _ => none
      | .error _ => some submission
  | none => none

/-- An invalid answer that a poll reads is new, or the retries are spent; and the request of an
invalid answer is not retired. -/
def NoLeftover (waiting : Waiting Value) : TimelineOp → Prop
  | .file _ => True
  | .poll poll => waiting.poller.outcome = none →
      (∀ submission, poll.rejects validate waiting.queue = some submission →
        submission ∉ waiting.poller.rejected ∨
          MAX_REQUEUE_REFRESHES ≤ waiting.poller.invalidAnswers) ∧
      (waiting.queue.files.hasAnswer = true → ¬ ValidAnswer validate waiting.queue.files →
        waiting.queue.files.hasPending = true)

end Statement

section Polls

variable {Value : Type} {validate : JsValue → Except (List Issue) Value} {windowMs : Int}
variable {waiting : Waiting Value} {poll : Poll}

theorem poller_whileOpen (waiting : Waiting Value) (windowMs now : Int) :
    ∃ outcome, (waiting.whileOpen windowMs now).poller =
      { waiting.poller with outcome := outcome } := by
  rw [Waiting.whileOpen]
  split_ifs
  · exact ⟨waiting.poller.outcome, rfl⟩
  · exact ⟨some .responseTimeout, rfl⟩

theorem outcome_whileOpen (waiting : Waiting Value) (windowMs now : Int)
    (awaiting : waiting.poller.outcome = none) :
    (waiting.whileOpen windowMs now).poller.outcome ≠ some .requestRetired := by
  rw [Waiting.whileOpen]
  split_ifs
  · rw [awaiting]
    simp
  · simp

/-- What a poll reads, when there is an answer. -/
theorem reads_eq (present : waiting.queue.files.hasAnswer = true) :
    poll.reads waiting.queue =
      (run fileEvent poll.afterLook waiting.queue).files.answered.map fun found =>
        ((run fileEvent poll.afterLook waiting.queue).submissions, found) :=
  if_pos present

/-- A poll that rejects counts the submission. -/
theorem poller_of_rejects (windowMs : Int) {submission : Nat}
    (rejects : poll.rejects validate waiting.queue = some submission) :
    ∃ outcome, (pollOnce validate windowMs poll waiting).poller =
      { waiting.poller.reject submission poll.now with outcome := outcome } := by
  rw [Poll.rejects] at rejects
  split at rejects
  · next number found reads =>
      have present : waiting.queue.files.hasAnswer = true := by
        by_contra absent
        rw [Poll.reads, if_neg absent] at reads
        cases reads
      rw [reads_eq present, Option.map_eq_some_iff] at reads
      obtain ⟨other, answered, same⟩ := reads
      obtain ⟨rfl, rfl⟩ := Prod.mk.inj same
      split at rejects
      · cases rejects
      · next issues invalid =>
          cases rejects
          simp only [pollOnce, present, if_true, answered, invalid]
          exact poller_whileOpen _ windowMs poll.now
  · cases rejects

/-- A poll that rejects nothing leaves the counters alone. -/
theorem poller_of_not_rejects (windowMs : Int)
    (rejects : poll.rejects validate waiting.queue = none) :
    ∃ outcome, (pollOnce validate windowMs poll waiting).poller =
      { waiting.poller with outcome := outcome } := by
  by_cases present : waiting.queue.files.hasAnswer = true
  · rw [Poll.rejects, reads_eq present] at rejects
    cases answered : (run fileEvent poll.afterLook waiting.queue).files.answered with
    | none =>
        simp only [pollOnce, present, if_true, answered]
        exact poller_whileOpen _ windowMs poll.now
    | some found =>
        simp only [answered, Option.map_some] at rejects
        cases valid : validate found.value with
        | error issues => simp only [valid, reduceCtorEq] at rejects
        | ok value =>
            simp only [pollOnce, present, if_true, answered, valid]
            exact ⟨some (.value value), rfl⟩
  · simp only [pollOnce, present, Bool.false_eq_true, if_false]
    split_ifs
    · exact poller_whileOpen _ windowMs poll.now
    · exact ⟨some .requestRetired, rfl⟩

/-- No file event brings a retired request back. -/
theorem hasPending_fileEvent {event : FileEvent} {queue : Queue}
    (gone : queue.files.hasPending = false) : (fileEvent event queue).files.hasPending = false := by
  cases event with
  | answer now submitted =>
      rw [fileEvent]
      split
      · next files accepted =>
          rw [(answer_ok accepted).1]
          exact gone
      · exact gone
  | claim submitted => exact gone
  | refusalFeedback code detail remediation now =>
      exact (hasPending_recordRefusalFeedback _ code detail remediation now).trans gone
  | retire => rw [fileEvent, RequestFiles.hasPending, pending_expirePending, Option.isSome_none]

theorem hasPending_fileEvents {queue : Queue} (gone : queue.files.hasPending = false)
    (events : List FileEvent) : (run fileEvent events queue).files.hasPending = false := by
  induction events generalizing queue with
  | nil => exact gone
  | cons event events inductionHypothesis =>
      exact inductionHypothesis (hasPending_fileEvent gone)

/-- A poll that finds the request retired and no answer raises. -/
theorem retired_of_absent (absent : waiting.queue.files.hasAnswer = false)
    (gone : waiting.queue.files.hasPending = false) :
    (pollOnce validate windowMs poll waiting).poller.outcome = some .requestRetired := by
  simp only [pollOnce, absent, hasPending_fileEvents gone, Bool.false_eq_true, if_false]

/-- A poll that finds an answer does not raise. -/
theorem not_retired_of_present (awaiting : waiting.poller.outcome = none)
    (present : waiting.queue.files.hasAnswer = true) :
    (pollOnce validate windowMs poll waiting).poller.outcome ≠ some .requestRetired := by
  simp only [pollOnce, present, if_true]
  split
  · exact outcome_whileOpen _ windowMs poll.now awaiting
  · split
    · simp
    · exact outcome_whileOpen _ windowMs poll.now awaiting

/-- A poll consumes a window if and only if it rejects and there are retries left. -/
theorem windowsConsumed_pollOnce_iff :
    (pollOnce validate windowMs poll waiting).poller.windowsConsumed =
        waiting.poller.windowsConsumed ↔
      ∀ submission, poll.rejects validate waiting.queue = some submission →
        MAX_REQUEUE_REFRESHES ≤ waiting.poller.invalidAnswers := by
  cases rejects : poll.rejects validate waiting.queue with
  | none =>
      obtain ⟨outcome, same⟩ := poller_of_not_rejects windowMs rejects
      simp [same]
  | some number =>
      obtain ⟨outcome, same⟩ := poller_of_rejects windowMs rejects
      rw [same]
      simp only [Poller.reject, Poller.refreshes, decide_eq_true_eq, Option.some.injEq,
        forall_eq']
      split_ifs <;> omega

/-- A submission that a poll rejects is new to it if it was not rejected before. -/
theorem seesNew_of_rejects {submission : Nat}
    (rejects : poll.rejects validate waiting.queue = some submission) :
    SeesNew waiting poll ↔ submission ∉ waiting.poller.rejected := by
  rw [Poll.rejects] at rejects
  split at rejects
  · next number found reads =>
      split at rejects
      · cases rejects
      · cases rejects
        rw [SeesNew, reads]
        simp
  · cases rejects

/-- One poll keeps to the claim if and only if it meets no leftover. -/
theorem pollAsClaimed_iff (waiting : Waiting Value) (op : TimelineOp) :
    PollAsClaimed validate windowMs waiting op ↔ NoLeftover validate waiting op := by
  cases op with
  | file event => exact Iff.rfl
  | poll poll =>
      refine imp_congr_right fun awaiting => and_congr ?_ ?_
      · rw [windowsConsumed_pollOnce_iff]
        constructor
        · intro claimed submission rejects
          by_cases new : SeesNew waiting poll
          · exact Or.inl ((seesNew_of_rejects rejects).mp new)
          · exact Or.inr (claimed new submission rejects)
        · intro fresh old submission rejects
          rcases fresh submission rejects with new | spent
          · exact absurd ((seesNew_of_rejects rejects).mpr new) old
          · exact spent
      · constructor
        · intro raises present invalid
          by_contra gone
          exact not_retired_of_present awaiting present
            (raises (Bool.eq_false_iff.mpr gone) invalid)
        · intro pending gone invalid
          refine retired_of_absent (Bool.eq_false_iff.mpr fun present => ?_) gone
          rw [pending present invalid] at gone
          cases gone

end Polls

section Timelines

variable {Value : Type} {validate : JsValue → Except (List Issue) Value} {windowMs : Int}

/-- The windows that the loop has consumed, and how they compare with what it has rejected. -/
structure Counted (waiting : Waiting Value) : Prop where
  consumed : waiting.poller.windowsConsumed =
    min waiting.poller.invalidAnswers MAX_REQUEUE_REFRESHES
  distinct : min waiting.poller.rejected.toFinset.card MAX_REQUEUE_REFRESHES =
    min waiting.poller.invalidAnswers MAX_REQUEUE_REFRESHES

theorem Counted.windowsMatch {waiting : Waiting Value} (counted : Counted waiting) :
    WindowsMatch waiting :=
  counted.consumed.trans counted.distinct.symm

theorem counted_dispatched (request : HarnessRequest) (now : Int) :
    Counted (dispatched windowMs request now : Waiting Value) := by
  obtain ⟨outcome, same⟩ := poller_whileOpen
    (⟨⟨⟨some request, none, none⟩, 0⟩, ⟨now, 0, none, 0, []⟩⟩ : Waiting Value) windowMs now
  constructor
  · rw [dispatched, same]
    rfl
  · rw [dispatched, same]
    rfl

/-- A submission that is rejected for the first time adds to both counts. -/
theorem Counted.reject {waiting : Waiting Value} (counted : Counted waiting) {submission : Nat}
    {now : Int} (fresh : submission ∉ waiting.poller.rejected ∨
      MAX_REQUEUE_REFRESHES ≤ waiting.poller.invalidAnswers) {poller : Poller Value}
    {outcome : Option (Outcome Value)} {queue : Queue}
    (same : poller = { waiting.poller.reject submission now with outcome := outcome }) :
    Counted ⟨queue, poller⟩ := by
  subst same
  have consumed := counted.consumed
  have distinct := counted.distinct
  constructor
  · simp only [Poller.reject, Poller.refreshes, decide_eq_true_eq]
    split_ifs <;> omega
  · simp only [Poller.reject, List.toFinset_cons]
    rcases fresh with new | spent
    · rw [Finset.card_insert_of_notMem (by rwa [List.mem_toFinset])]
      omega
    · have more := Finset.card_le_card
        (Finset.subset_insert submission waiting.poller.rejected.toFinset)
      omega

theorem Counted.step {waiting : Waiting Value} (counted : Counted waiting) {op : TimelineOp}
    (fresh : NoLeftover validate waiting op) :
    Counted (timelineStep validate windowMs op waiting) := by
  cases op with
  | file event => exact ⟨counted.consumed, counted.distinct⟩
  | poll poll =>
      rw [timelineStep]
      split_ifs with awaiting
      · have fresh := (fresh (Option.isNone_iff_eq_none.mp awaiting)).1
        cases rejects : poll.rejects validate waiting.queue with
        | none =>
            obtain ⟨outcome, same⟩ := poller_of_not_rejects windowMs rejects
            constructor
            · rw [same]
              exact counted.consumed
            · rw [same]
              exact counted.distinct
        | some submission =>
            obtain ⟨outcome, same⟩ := poller_of_rejects windowMs rejects
            exact counted.reject (fresh submission rejects) same
      · exact counted

/-- The loop consumes one window for each rejected submission and honours retirement if and only
if no poll meets an answer that is left over. -/
theorem pollsAsClaimed_iff (validate : JsValue → Except (List Issue) Value) (windowMs : Int)
    (request : HarnessRequest) (now : Int) (timeline : List TimelineOp) :
    PollsAsClaimed validate windowMs (dispatched windowMs request now) timeline ↔
      EveryStep (timelineStep validate windowMs) (NoLeftover validate) timeline
        (dispatched windowMs request now) := by
  rw [PollsAsClaimed, everyStep_congr pollAsClaimed_iff timeline]
  refine ⟨And.right, fun fresh => ⟨fun before part => ?_, fresh⟩⟩
  exact ((fresh.of_prefix part).invariant (counted_dispatched request now)
    fun _ _ step counted => counted.step step).windowsMatch

end Timelines

/-! ## An invalid answer that stays -/

def planRequest : HarnessRequest where
  id := js "planner-default-1"
  schemaName := js "plan"
  jsonSchema := .object [(js "type", .string (js "boolean"))]
  prompt := js "Plan."
  createdAt := 0
  expiresAt := some 2400000
  runId := some (js "run-1")
  lastError := none

def planAnswer (value : JsValue) (answeredAt : Int) : HarnessAnswer where
  id := js "planner-default-1"
  value := value
  answeredBy := none
  answeredAt := answeredAt
  rehearsedWith := none
  candidateId := none
  claimedFromRequest := none

def validateBoolean : JsValue → Except (List Issue) Bool
  | .bool value => .ok value
  | _ => .error [⟨[], js "expected boolean"⟩]

/-- One invalid answer, a poll, the end of the run, and a poll. -/
def leftoverTimeline : List TimelineOp :=
  [.file (.answer 500 (planAnswer (.string (js "yes")) 500)), .poll ⟨1000, [], []⟩,
    .file .retire, .poll ⟨2000, [], []⟩]

theorem not_pollsAsClaimed :
    ¬ PollsAsClaimed validateBoolean 2400000 (dispatched 2400000 planRequest 0)
      leftoverTimeline := by
  intro claimed
  have twice := claimed.1 leftoverTimeline List.prefix_rfl
  rw [WindowsMatch] at twice
  revert twice
  decide

/-- A corrected answer that is there before the next poll is taken. -/
example :
    (run (timelineStep validateBoolean 2400000)
      [.file (.answer 500 (planAnswer (.string (js "yes")) 500)), .poll ⟨1000, [], []⟩,
        .file (.answer 1500 (planAnswer (.bool true) 1500)), .poll ⟨2000, [], []⟩]
      (dispatched 2400000 planRequest 0)).poller.windowsConsumed = 1 := by
  decide

end SpecAsCode.Harness
