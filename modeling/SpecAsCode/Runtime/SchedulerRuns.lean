import Mathlib.Algebra.Order.BigOperators.Group.List
import SpecAsCode.Lib.Journal
import SpecAsCode.Runtime.ParallelFlights
import SpecAsCode.Runtime.Scheduler

/-!
# Runs of the sequential scheduler

The order in which tasks are executed, how often they are tried, and that the loop ends.
-/

namespace SpecAsCode.Runtime.Sequential

open SpecAsCode.Js
open SpecAsCode.Journal
open SpecAsCode.Schema
open SpecAsCode.Runtime.Parallel

/-! ## What the log shows -/

/-- What an event says of the log before it: a task is not executed or completed after it has
completed, its attempts are counted one by one, and without an amendment a failure is followed by
another attempt only while there are retries. -/
def Follows (config : SchedulerConfig) (log : List SchedulerEvent) : SchedulerEvent → Prop
  | .transition id .completed _ => ∀ attempt, .transition id .completed attempt ∉ log
  | .transition _ _ _ => True
  | .executed id attempt _ =>
      (∀ completed, .transition id .completed completed ∉ log) ∧
        ∀ before after earlier status, log = before ++ .executed id earlier status :: after →
          ((∀ other result, .executed id other result ∉ after) → attempt = earlier + 1) ∧
            (status = some .failed → .amended ∉ after → earlier ≤ config.maxTaskRetries)
  | .amended => True

/-- How the log and the states of the tasks fit together. -/
structure Recorded (config : SchedulerConfig) (log : List SchedulerEvent) (states : TaskStates) :
    Prop where
  completed : ∀ id attempt, .transition id .completed attempt ∈ log →
    (stateIn states id).status = .completed
  last : ∀ id before after attempt status, log = before ++ .executed id attempt status :: after →
    (∀ other result, .executed id other result ∉ after) → (stateIn states id).attempt = attempt
  exhausted : ∀ id before after attempt,
    log = before ++ .executed id attempt (some .failed) :: after → .amended ∉ after →
      config.maxTaskRetries < attempt → (stateIn states id).status = .failed

section Log

variable {config : SchedulerConfig} {log : List SchedulerEvent} {states next : TaskStates}

theorem recorded_nil (config : SchedulerConfig) (states : TaskStates) :
    Recorded config [] states where
  completed := by simp
  last := by simp
  exhausted := by simp

/-- A transition that leaves the attempts alone, and tasks that have completed or failed. -/
theorem Recorded.transition (recorded : Recorded config log states) {id : JsString}
    {status : TaskStatus} {attempt : Nat}
    (attempts : ∀ other, (stateIn next other).attempt = (stateIn states other).attempt)
    (kept : ∀ other, (stateIn states other).status = .completed ∨
      (stateIn states other).status = .failed →
        (stateIn next other).status = (stateIn states other).status)
    (completes : status = .completed → (stateIn next id).status = .completed) :
    Recorded config (log ++ [.transition id status attempt]) next := by
  constructor
  · intro other count member
    rcases List.mem_append.mp member with earlier | new
    · have before := recorded.completed other count earlier
      rw [kept other (Or.inl before), before]
    · cases List.mem_singleton.mp new
      exact completes rfl
  · intro other before after count result shape last
    obtain ⟨-, -, same⟩ | ⟨front, rfl, earlier⟩ := split_snoc shape
    · cases same
    · rw [attempts]
      exact recorded.last other before front count result earlier fun count result member =>
        last count result (List.mem_append_left _ member)
  · intro other before after count shape unamended finished
    obtain ⟨-, -, same⟩ | ⟨front, rfl, earlier⟩ := split_snoc shape
    · cases same
    · have failed := recorded.exhausted other before front count earlier
        (fun member => unamended (List.mem_append_left _ member)) finished
      rw [kept other (Or.inr failed), failed]

/-- The execution of a pending task. -/
theorem Recorded.executed (recorded : Recorded config log states) {id : JsString} {attempt : Nat}
    {result : Option OutcomeStatus} (pending : (stateIn states id).status = .pending)
    (others : ∀ other, other ≠ id → stateIn next other = stateIn states other)
    (counted : (stateIn next id).attempt = attempt)
    (exhausts : result = some .failed → config.maxTaskRetries < attempt →
      (stateIn next id).status = .failed) :
    Recorded config (log ++ [.executed id attempt result]) next := by
  have apart : ∀ other status, status ≠ .pending → (stateIn states other).status = status →
      stateIn next other = stateIn states other := by
    intro other status waits known
    refine others other fun same => ?_
    rw [same, pending] at known
    exact waits known.symm
  constructor
  · intro other count member
    rcases List.mem_append.mp member with earlier | new
    · have before := recorded.completed other count earlier
      rw [apart other _ TaskStatus.noConfusion before, before]
    · cases List.mem_singleton.mp new
  · intro other before after count status shape last
    obtain ⟨-, -, same⟩ | ⟨front, rfl, earlier⟩ := split_snoc shape
    · cases same
      exact counted
    · have different : other ≠ id := by
        rintro rfl
        exact last attempt result (List.mem_append_right _ List.mem_cons_self)
      rw [others other different]
      exact recorded.last other before front count status earlier fun count status member =>
        last count status (List.mem_append_left _ member)
  · intro other before after count shape unamended finished
    obtain ⟨-, -, same⟩ | ⟨front, rfl, earlier⟩ := split_snoc shape
    · cases same
      exact exhausts rfl finished
    · have failed := recorded.exhausted other before front count earlier
        (fun member => unamended (List.mem_append_left _ member)) finished
      rw [apart other _ TaskStatus.noConfusion failed, failed]

/-- An amendment lets failed tasks be tried again. -/
theorem Recorded.amended (recorded : Recorded config log states) (amendment : Amendment) :
    Recorded config (log ++ [.amended]) (amendment.states states) := by
  constructor
  · intro id attempt member
    rcases List.mem_append.mp member with earlier | new
    · exact amendment.completed states id (recorded.completed id attempt earlier)
    · cases List.mem_singleton.mp new
  · intro id before after attempt status shape last
    obtain ⟨-, -, same⟩ | ⟨front, rfl, earlier⟩ := split_snoc shape
    · cases same
    · rw [amendment.attempts]
      exact recorded.last id before front attempt status earlier fun count status member =>
        last count status (List.mem_append_left _ member)
  · intro id before after attempt shape unamended
    obtain ⟨-, -, same⟩ | ⟨front, rfl, -⟩ := split_snoc shape
    · cases same
    · exact absurd (List.mem_append_right _ List.mem_cons_self) unamended

/-- What the log shows before a task is executed or completes. -/
theorem Recorded.not_completed (recorded : Recorded config log states) {id : JsString}
    (pending : (stateIn states id).status = .pending) (attempt : Nat) :
    .transition id .completed attempt ∉ log := by
  intro member
  rw [recorded.completed id attempt member] at pending
  cases pending

theorem Recorded.follows_executed (recorded : Recorded config log states) {id : JsString}
    (pending : (stateIn states id).status = .pending) (result : Option OutcomeStatus) :
    Follows config log (.executed id ((stateIn states id).attempt + 1) result) := by
  refine ⟨recorded.not_completed pending, fun before after earlier status shape => ⟨?_, ?_⟩⟩
  · intro last
    rw [recorded.last id before after earlier status shape last]
  · rintro rfl unamended
    by_contra finished
    have failed := recorded.exhausted id before after earlier shape unamended (Nat.lt_of_not_le finished)
    rw [failed] at pending
    cases pending

/-- Entries that are not of a completed task do not mention its completion. -/
theorem follows_transition {id : JsString} {status : TaskStatus} {attempt : Nat}
    (completes : status = .completed → ∀ count, .transition id .completed count ∉ log) :
    Follows config log (.transition id status attempt) := by
  cases status with
  | completed => exact completes rfl
  | pending => trivial
  | ready => trivial
  | running => trivial
  | failed => trivial
  | blocked => trivial
  | needsReplan => trivial
  | skipped => trivial
  | cancelled => trivial

end Log

namespace SchedulerRun

/-- The log of a run is in order, and fits the states. -/
structure Ordered (config : SchedulerConfig) (run : SchedulerRun) : Prop where
  log : Throughout (Follows config) run.log
  recorded : Recorded config run.log run.states

variable {config : SchedulerConfig} {run after : SchedulerRun} {id other : JsString}

/-! ## States of tasks -/

theorem stateOf_setState (run : SchedulerRun) (id other : JsString) (state : TaskState) :
    (run.setState id state).stateOf other = if other = id then state else run.stateOf other := by
  show (Function.update run.states id (some state) other).getD _ = _
  split_ifs with same
  · rw [same, Function.update_self, Option.getD_some]
  · rw [Function.update_of_ne same]
    rfl

theorem stateOf_transition (run : SchedulerRun) (id other : JsString) (next : TaskState) :
    (run.transition id next).stateOf other =
      if other = id then ParallelRun.nextState (run.states id) next else run.stateOf other :=
  stateOf_setState run id other _

theorem transition_attempt (run : SchedulerRun) (id other : JsString) (next : TaskState) :
    ((run.transition id next).stateOf other).attempt =
      if other = id then next.attempt else (run.stateOf other).attempt := by
  rw [stateOf_transition]
  split_ifs <;> rfl

theorem transition_status (run : SchedulerRun) (id other : JsString) (next : TaskState) :
    ((run.transition id next).stateOf other).status =
      if other = id then next.status else (run.stateOf other).status := by
  rw [stateOf_transition]
  split_ifs <;> rfl

theorem statusIn_eq_some {status : TaskStatus} (known : run.statusIn id = some status) :
    id ∈ run.tasks.map Task.id ∧ (run.stateOf id).status = status := by
  rw [statusIn] at known
  split_ifs at known with member
  exact ⟨member, Option.some.inj known⟩

/-! ## The head of the loop -/

/-- The task waits, or was interrupted. -/
def isOpen (run : SchedulerRun) (id : JsString) : Bool :=
  (run.stateOf id).status == .pending || (run.stateOf id).status == .running

/-- What the transitions at the head of the loop keep, it keeps. -/
theorem refresh_induction {P : SchedulerRun → Prop} (initial : P run)
    (step : ∀ run id status, run.isOpen id = true → status = .pending ∨ status = .blocked →
      P run → P (run.transition id { run.stateOf id with status := status })) :
    P run.refresh := by
  have reset : ∀ run task, P run → P (run.resetRunning task) := by
    intro run task holds
    rw [resetRunning]
    split_ifs with running
    · refine step run task.id .pending ?_ (Or.inl rfl) holds
      rw [isOpen, (statusIn_eq_some running).2]
      rfl
    · exact holds
  have block : ∀ run task, P run → P (run.blockUnreachable task) := by
    intro run task holds
    rw [blockUnreachable]
    split_ifs with unreachable
    · refine step run task.id .blocked ?_ (Or.inr rfl) holds
      rw [isOpen, (statusIn_eq_some unreachable.1).2]
      rfl
    · exact holds
  have fold : ∀ (act : SchedulerRun → Task → SchedulerRun),
      (∀ run task, P run → P (act run task)) → ∀ (tasks : List Task) (run : SchedulerRun),
        P run → P (tasks.foldl act run) := by
    intro act keeps tasks
    induction tasks with
    | nil => exact fun run holds => holds
    | cons task tasks inductionHypothesis =>
        exact fun run holds => inductionHypothesis _ (keeps run task holds)
  exact fold _ block _ _ (fold _ reset _ _ initial)

/-- What the head of the loop leaves as it is. -/
structure Refreshed (run after : SchedulerRun) : Prop where
  tasks : after.tasks = run.tasks
  replans : after.replans = run.replans
  conclusion : after.conclusion = run.conclusion
  attempts : ∀ id, (after.stateOf id).attempt = (run.stateOf id).attempt
  closed : ∀ id, run.isOpen id = false → after.stateOf id = run.stateOf id

theorem refreshed (run : SchedulerRun) : Refreshed run run.refresh := by
  refine refresh_induction (P := Refreshed run) ⟨rfl, rfl, rfl, fun _ => rfl, fun _ _ => rfl⟩ ?_
  intro middle id status opened new kept
  refine ⟨kept.tasks, kept.replans, kept.conclusion, fun other => ?_, fun other closed => ?_⟩
  · rw [transition_attempt]
    split_ifs with same
    · rw [same]
      exact kept.attempts id
    · exact kept.attempts other
  · have apart : other ≠ id := by
      rintro rfl
      rw [isOpen, kept.closed other closed, ← isOpen, closed] at opened
      cases opened
    rw [stateOf_transition, if_neg apart]
    exact kept.closed other closed

theorem ordered_refresh (ordered : Ordered config run) : Ordered config run.refresh := by
  refine refresh_induction ordered fun run id status opened new ordered => ?_
  have unfinished : status ≠ .completed := by
    rintro rfl
    rcases new with same | same <;> cases same
  refine ⟨ordered.log.snoc (follows_transition fun same => absurd same unfinished),
    ordered.recorded.transition (fun other => ?_) (fun other finished => ?_)
      fun same => absurd same unfinished⟩
  · exact (transition_attempt run id other _).trans (by split_ifs with same <;> simp [same, stateOf])
  · refine (transition_status run id other _).trans (if_neg ?_)
    rintro rfl
    rw [isOpen, Bool.or_eq_true, beq_iff_eq, beq_iff_eq] at opened
    rcases opened with status | status <;> rcases finished with other | other <;>
      simp [stateOf, other] at status

/-! ## The execution of a task -/

/-- The loop goes on with a pending task whose dependencies have completed or were skipped. -/
theorem decide_execute {cancelled : Bool} {task : Task}
    (decided : run.decide cancelled = .execute task) :
    task ∈ run.tasks ∧ (run.stateOf task.id).status = .pending ∧
      ∀ dep ∈ task.dependencies, (run.stateOf dep).status = .completed ∨
        (run.stateOf dep).status = .skipped := by
  rw [decide] at decided
  by_cases none : run.pendingTasks = []
  · rw [if_pos none] at decided
    cases decided
  rw [if_neg none] at decided
  cases ready : run.readyTasks with
  | nil =>
      rw [ready] at decided
      cases decided
  | cons first rest =>
      rw [ready] at decided
      dsimp only at decided
      split_ifs at decided with stops
      cases decided
      have member : task ∈ run.readyTasks := by
        rw [ready]
        exact List.mem_cons_self
      rw [readyTasks, pendingTasks, List.mem_filter, List.mem_filter] at member
      obtain ⟨⟨planned, pending⟩, finished⟩ := member
      refine ⟨planned, (statusIn_eq_some (of_decide_eq_true pending)).2, fun dep needed => ?_⟩
      have done := List.all_eq_true.mp finished dep needed
      rw [isFinished, Bool.or_eq_true, decide_eq_true_iff, decide_eq_true_iff] at done
      exact done.imp (fun known => (statusIn_eq_some known).2) fun known => (statusIn_eq_some known).2

/-- The state of a task that the executor returns from. -/
def Executing (base run : SchedulerRun) (task : Task) (result : Option OutcomeStatus) : Prop :=
  run.tasks = base.tasks ∧ run.replans = base.replans ∧ run.conclusion = base.conclusion ∧
    run.log = base.log ++ [.transition task.id .running ((base.stateOf task.id).attempt + 1)] ++
      [.executed task.id ((base.stateOf task.id).attempt + 1) result] ∧
    (run.stateOf task.id).attempt = (base.stateOf task.id).attempt + 1 ∧
    ∀ other, other ≠ task.id → run.stateOf other = base.stateOf other

/-- The last transition of a task in a round. -/
structure Moves (config : SchedulerConfig) (base after : SchedulerRun) (task : Task)
    (result : OutcomeStatus) (status : TaskStatus) : Prop where
  tasks : after.tasks = base.tasks
  replans : after.replans = base.replans
  conclusion : after.conclusion = base.conclusion
  log : after.log = base.log ++
    [.transition task.id .running ((base.stateOf task.id).attempt + 1)] ++
    [.executed task.id ((base.stateOf task.id).attempt + 1) (some result)] ++
    [.transition task.id status ((base.stateOf task.id).attempt + 1)]
  others : ∀ other, other ≠ task.id → after.stateOf other = base.stateOf other
  status : (after.stateOf task.id).status = status
  attempt : (after.stateOf task.id).attempt = (base.stateOf task.id).attempt + 1

theorem executing_start (run : SchedulerRun) (task : Task) (now : JsString)
    (result : Option OutcomeStatus) :
    Executing run ((run.start task now).record
      (.executed task.id ((run.stateOf task.id).attempt + 1) result)) task result := by
  refine ⟨rfl, rfl, rfl, rfl, ?_, fun other different => ?_⟩
  · exact (transition_attempt run task.id task.id _).trans (if_pos rfl)
  · exact (stateOf_transition run task.id other _).trans (if_neg different)

theorem Executing.recordRevision {base : SchedulerRun} {task : Task} {result : Option OutcomeStatus}
    (executing : Executing base run task result) (revision : Option JsString) :
    Executing base (run.recordRevision task revision) task result := by
  obtain ⟨tasks, replans, conclusion, log, counted, others⟩ := executing
  cases revision with
  | none => exact ⟨tasks, replans, conclusion, log, counted, others⟩
  | some revision =>
      refine ⟨tasks, replans, conclusion, log, ?_, fun other different => ?_⟩
      · refine (congrArg TaskState.attempt (stateOf_setState run task.id task.id _)).trans ?_
        rw [if_pos rfl]
        exact counted
      · exact (stateOf_setState run task.id other _).trans ((if_neg different).trans
          (others other different))

theorem Executing.moves {base : SchedulerRun} {task : Task} {result : OutcomeStatus}
    (executing : Executing base run task (some result)) {next : TaskState}
    (attempt : next.attempt = (base.stateOf task.id).attempt + 1) :
    Moves config base (run.transition task.id next) task result next.status := by
  obtain ⟨tasks, replans, conclusion, log, -, others⟩ := executing
  refine ⟨tasks, replans, conclusion, ?_, fun other different => ?_, ?_, ?_⟩
  · show run.log ++ [_] = _
    rw [log, attempt]
  · rw [stateOf_transition, if_neg different]
    exact others other different
  · rw [transition_status, if_pos rfl]
  · rw [transition_attempt, if_pos rfl, attempt]

/-- How a round ends in which a task is executed: the executor throws, the task moves to a status
that its outcome gives, or it waits for a replan. -/
inductive Executes (config : SchedulerConfig) (base : SchedulerRun) (task : Task)
    (answer : Answer) : SchedulerRun → Prop
  | threw {run : SchedulerRun} (executing : Executing base run task none) :
      Executes config base task answer (run.stop .threw)
  | moves {after : SchedulerRun} {result : OutcomeStatus} {status : TaskStatus}
      (moves : Moves config base after task result status)
      (closes : status = .completed ∨ status = .failed ∨ status = .blocked ∨
        (status = .pending ∧ (base.stateOf task.id).attempt < config.maxTaskRetries))
      (failed : result = .failed → config.maxTaskRetries < (base.stateOf task.id).attempt + 1 →
        status = .failed)
      (blocked : status = .blocked → result = .blocked) :
      Executes config base task answer after
  | replans {run : SchedulerRun} {outcome : ExecutionOutcome} {revision : Option JsString}
      (returned : answer.executed = some (outcome, revision))
      (asks : outcome.status = .needsReplan)
      (moves : Moves config base run task .needsReplan .needsReplan) :
      Executes config base task answer (replan config run answer.replanned)

theorem executes (config : SchedulerConfig) (run : SchedulerRun) (task : Task) (answer : Answer) :
    Executes config run task answer (run.execute config task answer) := by
  rw [execute]
  rcases returned : answer.executed with - | ⟨outcome, revision⟩
  · exact .threw (executing_start run task answer.now none)
  · have executing := (executing_start run task answer.now (some outcome.status)).recordRevision
      revision
    dsimp only
    rw [settle]
    cases result : outcome.status with
    | completed =>
        rw [result] at executing
        exact .moves (executing.moves rfl) (Or.inl rfl)
          (fun same => OutcomeStatus.noConfusion same) (fun same => TaskStatus.noConfusion same)
    | failed =>
        rw [result] at executing
        dsimp only
        split_ifs with retries
        · exact .moves (executing.moves rfl)
            (Or.inr (Or.inr (Or.inr ⟨rfl, retries⟩)))
            (fun _ finished => absurd finished (Nat.not_lt_of_le retries))
            (fun same => TaskStatus.noConfusion same)
        · obtain ⟨tasks, replans, conclusion, log, others, status, attempt⟩ :=
            @Executing.moves config _ run task .failed executing
              { pendingState task.id with
                attempt := (run.stateOf task.id).attempt + 1
                status := .failed
                failure := some (outcome.failure.getD ⟨js "TASK_FAILED", outcome.summary⟩) } rfl
          exact .moves ⟨tasks, replans, conclusion, log, others, status, attempt⟩
            (Or.inr (Or.inl rfl)) (fun _ _ => rfl)
            (fun same => TaskStatus.noConfusion same)
    | blocked =>
        rw [result] at executing
        exact .moves (executing.moves rfl) (Or.inr (Or.inr (Or.inl rfl)))
          (fun same => OutcomeStatus.noConfusion same) (fun _ => rfl)
    | needsReplan =>
        rw [result] at executing
        exact .replans returned result (executing.moves rfl)

/-! ## The order of the log -/

/-- The run of a task is recorded before its outcome is known. -/
theorem Ordered.executing {base : SchedulerRun} (ordered : Ordered config base) {task : Task}
    (pending : (base.stateOf task.id).status = .pending) (result : Option OutcomeStatus) :
    Throughout (Follows config)
      (base.log ++ [.transition task.id .running ((base.stateOf task.id).attempt + 1)] ++
        [.executed task.id ((base.stateOf task.id).attempt + 1) result]) ∧
    Recorded config
      (base.log ++ [.transition task.id .running ((base.stateOf task.id).attempt + 1)])
      base.states := by
  have started : Recorded config
      (base.log ++ [.transition task.id .running ((base.stateOf task.id).attempt + 1)])
      base.states :=
    ordered.recorded.transition (fun _ => rfl) (fun _ _ => rfl) fun same => TaskStatus.noConfusion same
  refine ⟨(ordered.log.snoc (follows_transition fun same => TaskStatus.noConfusion same)).snoc ?_,
    started⟩
  exact started.follows_executed pending result

theorem Moves.ordered {base : SchedulerRun} (ordered : Ordered config base) {task : Task}
    {result : OutcomeStatus} {status : TaskStatus} (moves : Moves config base after task result status)
    (pending : (base.stateOf task.id).status = .pending)
    (failed : result = .failed → config.maxTaskRetries < (base.stateOf task.id).attempt + 1 →
      status = .failed) :
    Ordered config after := by
  obtain ⟨log, started⟩ := ordered.executing pending (some result)
  have exhausts : some result = some .failed →
      config.maxTaskRetries < (base.stateOf task.id).attempt + 1 →
        (stateIn after.states task.id).status = .failed :=
    fun same finished => moves.status.trans (failed (Option.some.inj same) finished)
  have executed := started.executed pending moves.others moves.attempt exhausts
  constructor
  · rw [moves.log]
    refine log.snoc (follows_transition fun _ attempt member => ?_)
    rcases List.mem_append.mp member with earlier | new
    · exact started.not_completed pending attempt earlier
    · cases List.mem_singleton.mp new
  · rw [moves.log]
    refine executed.transition (fun _ => rfl) (fun _ _ => rfl) fun completed => ?_
    exact moves.status.trans completed

theorem Executes.ordered {base : SchedulerRun} (ordered : Ordered config base) {task : Task}
    (pending : (base.stateOf task.id).status = .pending)
    {answer : Answer} (executes : Executes config base task answer after) : Ordered config after := by
  cases executes with
  | @threw run executing =>
      obtain ⟨log, started⟩ := ordered.executing pending none
      obtain ⟨-, -, -, shape, counted, others⟩ := executing
      refine ⟨shape ▸ log, ?_⟩
      show Recorded config run.log run.states
      rw [shape]
      exact started.executed pending others counted fun same => by cases same
  | moves moves closes failed blocked => exact moves.ordered ordered pending failed
  | @replans run outcome revision returned asks moves =>
      have parked := moves.ordered ordered pending fun same => OutcomeStatus.noConfusion same
      unfold replan
      split_ifs with spent
      · exact ⟨parked.log, parked.recorded⟩
      · cases answer.replanned with
        | threw => exact ⟨parked.log, parked.recorded⟩
        | failed => exact ⟨parked.log, parked.recorded⟩
        | amended amendment =>
            exact ⟨parked.log.snoc trivial, parked.recorded.amended amendment⟩

/-! ## Rounds -/

/-- What a round does when the run goes on. -/
theorem pass_cases (config : SchedulerConfig) (answer : Answer) (run : SchedulerRun) :
    (∃ outcome, run.pass config answer = run.refresh.stop (.returned outcome)) ∨
      ∃ task, run.refresh.decide answer.cancelled = .execute task ∧
        Executes config run.refresh task answer (run.pass config answer) := by
  rw [pass]
  cases decided : run.refresh.decide answer.cancelled with
  | conclude => exact Or.inl ⟨_, rfl⟩
  | stop outcome => exact Or.inl ⟨outcome, rfl⟩
  | execute task => exact Or.inr ⟨task, rfl, executes config run.refresh task answer⟩

theorem Ordered.act (ordered : Ordered config run) (answer : Answer) :
    Ordered config (run.act config answer) := by
  rw [SchedulerRun.act]
  split_ifs with finished
  · exact ordered
  · have head := ordered_refresh ordered
    obtain ⟨outcome, stopped⟩ | ⟨task, decided, executes⟩ := pass_cases config answer run
    · rw [stopped]
      exact ⟨head.log, head.recorded⟩
    · exact executes.ordered head (decide_execute decided).2.1

/-- How often a task may still be executed before the next amendment. -/
def triesLeft (config : SchedulerConfig) (run : SchedulerRun) (id : JsString) : Nat :=
  if run.isOpen id then config.maxTaskRetries + 1 - (run.stateOf id).attempt + 1 else 0

def workLeft (config : SchedulerConfig) (run : SchedulerRun) : Nat :=
  (run.tasks.map fun task => triesLeft config run task.id).sum

theorem triesLeft_of_eq (same : after.stateOf id = run.stateOf id) :
    triesLeft config after id = triesLeft config run id := by
  rw [triesLeft, triesLeft, isOpen, isOpen, same]

theorem workLeft_refresh (config : SchedulerConfig) (run : SchedulerRun) :
    workLeft config run.refresh ≤ workLeft config run := by
  have head := refreshed run
  rw [workLeft, workLeft, head.tasks]
  refine List.sum_le_sum fun task _ => ?_
  cases opened : run.isOpen task.id with
  | false => rw [triesLeft_of_eq (head.closed task.id opened)]
  | true =>
      rw [triesLeft, triesLeft, if_pos opened, head.attempts]
      split_ifs
      · exact le_rfl
      · exact Nat.zero_le _

theorem Moves.workLeft {base : SchedulerRun} {task : Task} {result : OutcomeStatus}
    {status : TaskStatus} (moves : Moves config base after task result status)
    (planned : task ∈ base.tasks) (pending : (base.stateOf task.id).status = .pending)
    (closes : status = .completed ∨ status = .failed ∨ status = .blocked ∨
      (status = .pending ∧ (base.stateOf task.id).attempt < config.maxTaskRetries)) :
    workLeft config after < workLeft config base := by
  have less : triesLeft config after task.id < triesLeft config base task.id := by
    rw [triesLeft, triesLeft, isOpen, isOpen, moves.status, moves.attempt, pending]
    rcases closes with rfl | rfl | rfl | ⟨rfl, retries⟩
    · exact Nat.succ_pos _
    · exact Nat.succ_pos _
    · exact Nat.succ_pos _
    · show config.maxTaskRetries + 1 - _ + 1 < config.maxTaskRetries + 1 - _ + 1
      omega
  rw [SchedulerRun.workLeft, SchedulerRun.workLeft, moves.tasks]
  refine List.sum_lt_sum _ _ (fun other _ => ?_) ⟨task, planned, less⟩
  by_cases same : other.id = task.id
  · rw [same]
    exact less.le
  · rw [triesLeft_of_eq (moves.others other.id same)]

/-- Amendments that may still be asked for, and executions before the next one. -/
def measure (config : SchedulerConfig) (run : SchedulerRun) : Nat × Nat :=
  (config.maxReplans - run.replans, workLeft config run)

/-- A round after which the run goes on uses up an amendment or an execution. -/
theorem measure_act (answer : Answer) (run : SchedulerRun)
    (goesOn : ¬ (run.act config answer).conclusion.isSome = true) :
    Prod.Lex (· < ·) (· < ·) (measure config (run.act config answer)) (measure config run) := by
  rw [act] at goesOn ⊢
  split_ifs at goesOn ⊢ with finished
  · exact absurd finished goesOn
  · have head := refreshed run
    obtain ⟨outcome, stopped⟩ | ⟨task, decided, executes⟩ := pass_cases config answer run
    · rw [stopped] at goesOn
      exact absurd rfl goesOn
    · obtain ⟨planned, pending, -⟩ := decide_execute decided
      generalize passed : run.pass config answer = after at goesOn executes
      rw [measure, measure]
      cases executes with
      | threw => exact absurd rfl goesOn
      | moves moves closes =>
          rw [moves.replans, head.replans]
          exact Prod.Lex.right _ ((moves.workLeft planned pending closes).trans_le
            (workLeft_refresh config run))
      | @replans parked outcome revision returned asks moves =>
          unfold replan at goesOn ⊢
          split_ifs at goesOn ⊢ with spent
          · exact absurd rfl goesOn
          · generalize answer.replanned = replanned at goesOn ⊢
            cases replanned with
            | threw => exact absurd rfl goesOn
            | failed => exact absurd rfl goesOn
            | amended amendment =>
                have unspent : run.replans < config.maxReplans := by
                  rw [← head.replans, ← moves.replans]
                  exact Nat.lt_of_not_le spent
                refine Prod.Lex.left _ _ ?_
                show config.maxReplans - (parked.replans + 1) < config.maxReplans - run.replans
                rw [moves.replans, head.replans]
                omega

/-- When the next round executes a task, what the task depends on has finished. -/
def DependenciesFirst (run : SchedulerRun) (answer : Answer) : Prop :=
  ∀ task, run.conclusion = none → run.refresh.decide answer.cancelled = .execute task →
    ∀ dep ∈ task.dependencies,
      ((run.refresh.start task answer.now).stateOf dep).status = .completed ∨
        ((run.refresh.start task answer.now).stateOf dep).status = .skipped

theorem dependenciesFirst (run : SchedulerRun) (answer : Answer) :
    run.DependenciesFirst answer := by
  intro task _ decided dep needed
  obtain ⟨-, pending, finished⟩ := decide_execute decided
  have apart : dep ≠ task.id := by
    rintro rfl
    rcases finished _ needed with status | status <;> rw [pending] at status <;> cases status
  rw [start, stateOf_transition, if_neg apart]
  exact finished dep needed

end SchedulerRun

/-! ## The amendments of the runtime -/

/-- A task that asked for a replan is to be done again. -/
def resetParked (state : TaskState) : TaskState :=
  if state.status = .needsReplan then { state with status := .pending } else state

theorem resetParked_resetParked (state : TaskState) :
    resetParked (resetParked state) = resetParked state := by
  rw [resetParked, resetParked]
  split_ifs with asked again
  · cases again
  · rfl
  · rfl

/-- The amendment that the runtime applies. -/
def runtimeAmendment (plan : ValidPlan) : Amendment where
  plan := plan
  states before id :=
    if id ∈ plan.tasks.map Task.id then some (resetParked (stateIn before id)) else before id
  completed before id completed := by
    rw [stateIn]
    split_ifs
    · rw [Option.getD_some, resetParked, if_neg (by rw [completed]; exact TaskStatus.noConfusion)]
      exact completed
    · exact completed
  attempts before id := by
    rw [stateIn]
    split_ifs
    · rw [Option.getD_some, resetParked]
      split_ifs <;> rfl
    · rfl

/-- What it makes of the states, when the tasks that it adds have none yet. -/
theorem stateIn_amend (run : ParallelRun) (amended : ValidPlan)
    (fresh : ∀ id ∈ amended.tasks.map Task.id, id ∉ run.plan.tasks.map Task.id →
      run.tasks id = none) (id : JsString) :
    stateIn (run.amend amended).tasks id =
      stateIn ((runtimeAmendment amended).states run.tasks) id := by
  have add : ∀ (added : List JsString) (run : ParallelRun),
      (∀ id ∈ added, run.stateOf id = pendingState id) →
        ∀ id, (added.foldl (fun run id => run.setTask id (pendingState id)) run).stateOf id =
          run.stateOf id := by
    intro added
    induction added with
    | nil => exact fun run _ id => rfl
    | cons first rest inductionHypothesis =>
        intro run unknown id
        have same : ∀ other, (run.setTask first (pendingState first)).stateOf other =
            run.stateOf other := by
          intro other
          by_cases here : other = first
          · rw [here, ParallelRun.stateOf_setTask_self, unknown first List.mem_cons_self]
          · exact ParallelRun.stateOf_setTask_ne run here _
        rw [List.foldl_cons, inductionHypothesis _ fun other member => ?_, same]
        rw [same]
        exact unknown other (List.mem_cons_of_mem _ member)
  have reset : ∀ (act : ParallelRun → Task → ParallelRun),
      (∀ run task, (act run task).stateOf id =
        if id = task.id then resetParked (run.stateOf id) else run.stateOf id) →
      ∀ (tasks : List Task) (run : ParallelRun), (tasks.foldl act run).stateOf id =
        if id ∈ tasks.map Task.id then resetParked (run.stateOf id) else run.stateOf id := by
    intro act one tasks
    induction tasks with
    | nil => simp
    | cons task rest inductionHypothesis =>
        intro run
        rw [List.foldl_cons, inductionHypothesis, one, List.map_cons]
        by_cases here : id = task.id
        · simp [here, resetParked_resetParked]
        · simp [here]
  have added : ∀ id ∈ (amended.tasks.map Task.id).filter fun id => id ∉ run.plan.tasks.map Task.id,
      run.stateOf id = pendingState id := by
    intro id member
    rw [List.mem_filter, decide_eq_true_iff] at member
    rw [ParallelRun.stateOf, fresh id member.1 member.2, Option.getD_none]
  have written : stateIn ((runtimeAmendment amended).states run.tasks) id =
      if id ∈ amended.tasks.map Task.id then resetParked (run.stateOf id) else run.stateOf id := by
    show (if id ∈ amended.tasks.map Task.id then _ else _ : Option TaskState).getD _ = _
    split_ifs <;> rfl
  rw [written, ← add _ run added]
  refine reset _ (fun run task => ?_) amended.tasks _
  cases known : run.tasks task.id with
  | none =>
      have pending : run.stateOf task.id = pendingState task.id := by
        rw [ParallelRun.stateOf, known, Option.getD_none]
      split_ifs with here
      · rw [here, pending]
        rfl
      · rfl
  | some prior =>
      have state : run.stateOf task.id = prior := by
        rw [ParallelRun.stateOf, known, Option.getD_some]
      by_cases here : id = task.id
      · rw [if_pos here, here, state, resetParked]
        dsimp only
        split_ifs
        · exact ParallelRun.stateOf_setTask_self run task.id _
        · exact state
      · rw [if_neg here]
        dsimp only
        split_ifs
        · exact ParallelRun.stateOf_setTask_ne run here _
        · rfl

end SpecAsCode.Runtime.Sequential
