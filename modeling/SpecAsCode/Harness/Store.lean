import SpecAsCode.Js.Stringify

/-!
# The harness store

The files of one request: `pending/<id>.json`, `answered/<id>.json` and `stale/<id>.json`.
Deadlines are instants in milliseconds.
-/

namespace SpecAsCode.Harness

open SpecAsCode.Js

structure HarnessRequest where
  id : JsString
  schemaName : JsString
  jsonSchema : JsValue
  prompt : JsString
  createdAt : Int
  expiresAt : Option Int
  runId : Option JsString
  lastError : Option JsString

structure HarnessAnswer where
  id : JsString
  value : JsValue
  answeredBy : Option JsString
  answeredAt : Int
  rehearsedWith : Option JsString
  candidateId : Option JsString
  claimedFromRequest : Option JsString

structure RequestFiles where
  pending : Option HarnessRequest
  answered : Option HarnessAnswer
  stale : Option HarnessRequest

namespace RequestFiles

def hasAnswer (files : RequestFiles) : Bool :=
  files.answered.isSome

def hasPending (files : RequestFiles) : Bool :=
  files.pending.isSome

def writeRequest (files : RequestFiles) (request : HarnessRequest) : RequestFiles :=
  { files with pending := some request }

def writeAnswer (files : RequestFiles) (answer : HarnessAnswer) : RequestFiles :=
  { files with answered := some answer }

def clearPending (files : RequestFiles) : RequestFiles :=
  { files with pending := none }

/-- The pending file is moved to `stale/`, as `expirePending`, `expireForRun` and `sweepStale`
move it. -/
def expirePending (files : RequestFiles) : RequestFiles :=
  match files.pending with
  | some request => { files with pending := none, stale := some request }
  | none => files

end RequestFiles

/-- Why a submission is refused. -/
inductive AnswerRefusal where
  | noPendingRequest
  | requestWindowElapsed (expiresAt : Int)
  | requestAlreadyAnswered (answeredAt : Int)
  deriving DecidableEq

/-- `request.expiresAt !== undefined && Date.parse(request.expiresAt) <= now`. -/
def HarnessRequest.elapsed (request : HarnessRequest) (now : Int) : Option Int :=
  request.expiresAt.filter fun deadline => deadline ≤ now

/-- The empty text is falsy: feedback that is empty does not count as feedback. -/
def HarnessRequest.hasFeedback (request : HarnessRequest) : Bool :=
  request.lastError.any fun text => text ≠ []

/-- The guards of `answer`, in their order. -/
def answerRefusal (files : RequestFiles) (now : Int) : Option AnswerRefusal :=
  match files.pending with
  | none => some .noPendingRequest
  | some request =>
      match request.elapsed now, files.answered with
      | some deadline, _ => some (.requestWindowElapsed deadline)
      | none, some earlier =>
          if request.hasFeedback then none else some (.requestAlreadyAnswered earlier.answeredAt)
      | none, none => none

/-- `answer`, under the lock of the store. -/
def answer (files : RequestFiles) (now : Int) (submitted : HarnessAnswer) :
    Except AnswerRefusal RequestFiles :=
  match answerRefusal files now with
  | some refusal => .error refusal
  | none => .ok (files.writeAnswer submitted)

/-- The feedback on a request, with the answer that was found invalid. -/
def feedbackText (error : JsString) (answered : Option HarnessAnswer) : JsString :=
  match answered with
  | some answer =>
      error ++ js "\nPrior answer (invalid): " ++ answer.value.stringify.take 2000
  | none => error

/-- `request.lastError = …` and the refreshed deadline. -/
def HarnessRequest.withFeedback (request : HarnessRequest) (error : JsString)
    (answered : Option HarnessAnswer) (now : Int) (refreshWindowMs : Option Int) :
    HarnessRequest :=
  { request with
    lastError := some (feedbackText error answered)
    expiresAt :=
      match refreshWindowMs, request.expiresAt with
      | some window, some _ => some (now + window)
      | _, expiresAt => expiresAt }

/-- `requeueWithFeedback`, under the lock of the store. -/
def requeueWithFeedback (files : RequestFiles) (error : JsString) (now : Int)
    (refreshWindowMs : Option Int) : RequestFiles :=
  match files.pending with
  | some request =>
      files.writeRequest (request.withFeedback error files.answered now refreshWindowMs)
  | none => files

/-- The feedback of a gate of the command line: its code, the first line of its detail and what
to do about it. -/
def refusalFeedback (code detail remediation : JsString) : JsString :=
  (code ++ js ": " ++ detail.takeWhile (fun letter => letter ≠ unit '\n') ++ js " | " ++
    remediation).take 1500

def recordRefusalFeedback (files : RequestFiles) (code detail remediation : JsString)
    (now : Int) : RequestFiles :=
  if files.hasAnswer then
    files
  else
    requeueWithFeedback files (refusalFeedback code detail remediation) now none

section Frames

variable (files : RequestFiles) (request : HarnessRequest) (submitted : HarnessAnswer)
variable (error code detail remediation : JsString) (now : Int) (window : Option Int)

@[simp]
theorem pending_writeAnswer : (files.writeAnswer submitted).pending = files.pending := rfl

@[simp]
theorem answered_writeAnswer : (files.writeAnswer submitted).answered = some submitted := rfl

@[simp]
theorem pending_writeRequest : (files.writeRequest request).pending = some request := rfl

@[simp]
theorem answered_writeRequest : (files.writeRequest request).answered = files.answered := rfl

@[simp]
theorem pending_clearPending : files.clearPending.pending = none := rfl

@[simp]
theorem answered_clearPending : files.clearPending.answered = files.answered := rfl

@[simp]
theorem pending_expirePending : files.expirePending.pending = none := by
  rw [RequestFiles.expirePending]
  split
  · rfl
  · assumption

@[simp]
theorem answered_expirePending : files.expirePending.answered = files.answered := by
  rw [RequestFiles.expirePending]
  split <;> rfl

@[simp]
theorem answered_requeueWithFeedback :
    (requeueWithFeedback files error now window).answered = files.answered := by
  rw [requeueWithFeedback]
  split <;> rfl

/-- Feedback neither retires a request nor brings one back. -/
@[simp]
theorem hasPending_requeueWithFeedback :
    (requeueWithFeedback files error now window).hasPending = files.hasPending := by
  rw [requeueWithFeedback]
  split
  · next pending => rw [RequestFiles.hasPending, RequestFiles.hasPending, pending]; rfl
  · rfl

@[simp]
theorem answered_recordRefusalFeedback :
    (recordRefusalFeedback files code detail remediation now).answered = files.answered := by
  rw [recordRefusalFeedback]
  split_ifs
  · rfl
  · exact answered_requeueWithFeedback files _ now none

@[simp]
theorem hasPending_recordRefusalFeedback :
    (recordRefusalFeedback files code detail remediation now).hasPending = files.hasPending := by
  rw [recordRefusalFeedback]
  split_ifs
  · rfl
  · exact hasPending_requeueWithFeedback files _ now none

end Frames

/-- An accepted answer is written, and nothing else. -/
theorem answer_ok {files after : RequestFiles} {now : Int} {submitted : HarnessAnswer}
    (accepted : answer files now submitted = .ok after) :
    after = files.writeAnswer submitted ∧ answerRefusal files now = none := by
  rw [answer] at accepted
  split at accepted
  · cases accepted
  · exact ⟨(Except.ok.inj accepted).symm, by assumption⟩

/-- An answer is accepted for a pending request that has no answer, or that has feedback. -/
theorem of_answerRefusal_eq_none {files : RequestFiles} {now : Int}
    (accepted : answerRefusal files now = none) :
    ∃ request, files.pending = some request ∧ request.elapsed now = none ∧
      (files.answered = none ∨ request.hasFeedback = true) := by
  rw [answerRefusal] at accepted
  split at accepted
  · cases accepted
  · next request pending =>
      refine ⟨request, pending, ?_⟩
      split at accepted
      · cases accepted
      · next window _ =>
          refine ⟨window, Or.inr ?_⟩
          by_contra silent
          rw [if_neg silent] at accepted
          cases accepted
      · next window unanswered => exact ⟨window, Or.inl unanswered⟩

end SpecAsCode.Harness
