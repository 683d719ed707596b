import Mathlib.Algebra.Order.BigOperators.Group.List
import Mathlib.Data.List.Find
import SpecAsCode.Runtime.ParallelFlights
import SpecAsCode.Runtime.WriteConflicts

/-!
# Waiting for tasks in flight

A task that asks for a replan waits until nothing is in flight, itself included.  Without such
tasks the drive loop always gets to its end.
-/

namespace SpecAsCode.Runtime.Parallel

open SpecAsCode.Js
open SpecAsCode.Core
open SpecAsCode.Schema
open SpecAsCode.Races
open SpecAsCode.History

/-- No task waits for promises of which one is its own. -/
def NoSelfWait (run : ParallelRun) : Prop :=
  ∀ flight ∈ run.inFlight, ∀ race, flight.phase = .draining race → flight.promise ∉ race.awaited

/-- The operation ends the execution of a task, and the task asks for a replan. -/
def AsksReplan (run : ParallelRun) (op : DriveOp) : Prop :=
  ∃ flight ∈ run.inFlight, flight.phase = .executing ∧ ∃ outcome patch applies now,
    op = .settle flight.promise (.returned outcome patch applies) now ∧
      outcome.status = .needsReplan

/-- Some step can be made. -/
def CanStep (config : DriveConfig) (run : ParallelRun) : Prop :=
  ∃ op, (run.step config op).isSome

section Waiting

variable {config : DriveConfig} {run after : ParallelRun}

/-! ## Tasks that do not ask for a replan -/

/-- What holds as long as no task has asked for a replan. -/
structure Unasked (run : ParallelRun) : Prop where
  phases : ∀ flight ∈ run.inFlight, flight.phase = .executing ∨ flight.phase = .rejected
  awaited : ∀ race, run.driver = .racing race →
    ∀ flight ∈ run.inFlight, flight.promise ∈ race.awaited
  waits : ∀ race, run.driver = .racing race → race.won = none →
    run.inFlight ≠ [] ∧ ∀ flight ∈ run.inFlight, flight.phase = .executing

theorem unasked_start (start : DriveStart) : Unasked start.run where
  phases := by simp [DriveStart.run]
  awaited := by simp [DriveStart.run]
  waits race racing := by cases racing

theorem Unasked.noSelfWait (unasked : Unasked run) : NoSelfWait run := by
  intro flight member race draining
  rcases unasked.phases flight member with phase | phase
  · rw [phase] at draining
    cases draining
  · rw [phase] at draining
    cases draining

/-- What the phases of the tasks in flight give for a new race. -/
theorem unasked_endPass
    (phases : ∀ flight ∈ run.inFlight, flight.phase = .executing ∨ flight.phase = .rejected)
    (deadlocked : Bool) : Unasked (run.endPass deadlocked) := by
  rw [ParallelRun.endPass]
  by_cases empty : run.inFlight = []
  · rw [if_pos empty]
    exact ⟨phases, fun race racing => DriverPhase.noConfusion racing,
      fun race racing => DriverPhase.noConfusion racing⟩
  · rw [if_neg empty]
    refine ⟨phases, fun race racing flight member => ?_, fun race racing won => ⟨empty, ?_⟩⟩
    · cases racing
      exact List.mem_map_of_mem member
    · cases racing
      intro flight member
      refine (phases flight member).resolve_right fun rejected => ?_
      have none : (run.inFlight.filter fun flight => flight.phase = .rejected) = [] := by
        rw [ParallelRun.race, Race.start] at won
        by_contra some
        rw [if_neg (by rwa [List.map_eq_nil_iff])] at won
        cases won
      exact List.ne_nil_of_mem (List.mem_filter.mpr ⟨member, by simpa using rejected⟩) none

theorem unasked_pass
    (phases : ∀ flight ∈ run.inFlight, flight.phase = .executing ∨ flight.phase = .rejected)
    (refused : JsString → Bool) (now : JsString) : Unasked (run.pass config refused now) := by
  have refreshed : ∀ flight ∈ run.refresh.inFlight,
      flight.phase = .executing ∨ flight.phase = .rejected := by
    refine (refresh_induction (P := fun run : ParallelRun => ∀ flight ∈ run.inFlight,
      flight.phase = .executing ∨ flight.phase = .rejected) phases (fun other task same => ?_)
      fun other task _ same => ?_).1
    · rw [ParallelRun.resetRunning]
      split_ifs <;> exact same
    · rw [ParallelRun.blockUnreachable]
      split_ifs <;> exact same
  rw [ParallelRun.pass]
  split_ifs
  · exact unasked_endPass refreshed false
  · refine unasked_endPass (launchReady_induction (P := fun run : ParallelRun =>
      ∀ flight ∈ run.inFlight, flight.phase = .executing ∨ flight.phase = .rejected) ?_
      (readyTasks_distinct _) (fun task member => launchable_of_ready member) refreshed) _
    intro other task _ _ holds flight member
    rcases List.mem_append.mp member with earlier | new
    · exact holds flight earlier
    · rw [List.mem_singleton.mp new]
      show (if _ then FlightPhase.rejected else _) = _ ∨ _
      cases refused task.id with
      | true => exact Or.inr rfl
      | false => exact Or.inl rfl

/-- A promise in flight settles. -/
theorem Unasked.close (unasked : Unasked run) {flight : Flight} (member : flight ∈ run.inFlight)
    (fulfilled : Bool) (inFlight : after.inFlight = (run.close flight.promise fulfilled).inFlight)
    (driver : after.driver = run.driver.settle flight.promise fulfilled) : Unasked after := by
  have earlier : ∀ other ∈ after.inFlight, ∃ before ∈ run.inFlight,
      other.promise = before.promise ∧
        other.phase = before.phase.settle flight.promise fulfilled := by
    intro other inAfter
    rw [inFlight] at inAfter
    obtain ⟨before, left, rfl⟩ := List.mem_map.mp inAfter
    exact ⟨before, List.mem_of_mem_filter left, rfl, rfl⟩
  have races : ∀ race, after.driver = .racing race → ∃ before, run.driver = .racing before ∧
      race = before.settle flight.promise fulfilled := by
    intro race racing
    rw [driver] at racing
    exact DriverPhase.of_settle_racing racing
  refine ⟨fun other inAfter => ?_, fun race racing other inAfter => ?_, fun race racing won => ?_⟩
  · obtain ⟨before, inRun, -, phase⟩ := earlier other inAfter
    rw [phase]
    rcases unasked.phases before inRun with same | same
    · rw [same]
      exact Or.inl rfl
    · rw [same]
      exact Or.inr rfl
  · obtain ⟨before, inRun, promise, -⟩ := earlier other inAfter
    obtain ⟨raced, wasRacing, rfl⟩ := races race racing
    rw [Race.awaited_settle, promise]
    exact unasked.awaited raced wasRacing before inRun
  · obtain ⟨raced, wasRacing, rfl⟩ := races race racing
    cases before : raced.won with
    | none =>
        rw [Race.won_settle before (unasked.awaited raced wasRacing flight member)] at won
        cases won
    | some outcome =>
        rw [Race.settle_won before, before] at won
        cases won

theorem Unasked.of_driver (unasked : Unasked run) {driver : DriverPhase}
    (rests : ∀ race, driver ≠ .racing race) : Unasked { run with driver := driver } :=
  ⟨unasked.phases, fun race racing => absurd racing (rests race),
    fun race racing => absurd racing (rests race)⟩

theorem Unasked.not_draining (unasked : Unasked run) {flight : Flight}
    (member : flight ∈ run.inFlight) {race : Race} : flight.phase ≠ .draining race := by
  intro draining
  rcases unasked.phases flight member with phase | phase
  · rw [phase] at draining
    cases draining
  · rw [phase] at draining
    cases draining

theorem Unasked.step (unasked : Unasked run) (sound : Sound config run) {op : DriveOp}
    (asks : ¬ AsksReplan run op) (steps : Steps config run op after) : Unasked after := by
  cases steps with
  | pass driver => exact unasked_pass unasked.phases _ _
  | fails driver won => exact unasked.of_driver fun race => DriverPhase.noConfusion
  | @settle flight settlement now member executing =>
      cases settlement with
      | threw => exact unasked.close member false rfl rfl
      | returned outcome patch applies =>
          obtain ⟨next, -, leaves⟩ := settle_spec sound member executing outcome patch applies now
          cases leaves with
          | closed stays outlasts inFlight driver => exact unasked.close member true inFlight driver
          | drains replan waits inFlight driver =>
              exact (asks ⟨flight, member, executing, outcome, patch, applies, now, rfl,
                replan⟩).elim
  | drain member draining won => exact (unasked.not_draining member draining).elim
  | abandon member draining won => exact (unasked.not_draining member draining).elim
  | replan member replanning => exact (sound.not_replanning member replanning).elim
  | finish driver => exact unasked.of_driver fun race => DriverPhase.noConfusion
  | release driver => exact unasked.of_driver fun race => DriverPhase.noConfusion

/-! ## Progress -/

theorem flight?_of_mem (sound : Sound config run) {flight : Flight}
    (member : flight ∈ run.inFlight) : run.flight? flight.promise = some flight := by
  rw [ParallelRun.flight?]
  cases found : run.inFlight.find? fun other => other.promise = flight.promise with
  | none =>
      have absent := List.find?_eq_none.mp found flight member
      simp at absent
  | some other =>
      have same := List.find?_some found
      rw [List.inj_on_of_nodup_map sound.promises (List.mem_of_find?_eq_some found) member
        (by simpa using same)]

/-- A task that is executed can settle. -/
theorem canStep_of_executing (sound : Sound config run) {flight : Flight}
    (member : flight ∈ run.inFlight) (executing : flight.phase = .executing) :
    CanStep config run := by
  refine ⟨.settle flight.promise .threw [], ?_⟩
  rw [ParallelRun.step, flight?_of_mem sound member, Option.bind_some, if_pos executing]
  rfl

theorem Unasked.canStep (unasked : Unasked run) (sound : Sound config run)
    (goesOn : run.driver ≠ .released) : CanStep config run := by
  cases driver : run.driver with
  | looping =>
      refine ⟨.wake (fun _ => false) [], ?_⟩
      rw [ParallelRun.step, ParallelRun.wake, driver]
      rfl
  | racing race =>
      cases won : race.won with
      | none =>
          obtain ⟨others, executing⟩ := unasked.waits race driver won
          obtain ⟨flight, member⟩ := List.exists_mem_of_ne_nil _ others
          exact canStep_of_executing sound member (executing flight member)
      | some fulfilled =>
          refine ⟨.wake (fun _ => false) [], ?_⟩
          rw [ParallelRun.step, ParallelRun.wake, driver]
          dsimp only
          rw [won]
          rfl
  | finishing =>
      refine ⟨.finish true, ?_⟩
      rw [ParallelRun.step, if_pos driver]
      rfl
  | settled returned =>
      refine ⟨.release, ?_⟩
      rw [ParallelRun.step, driver]
      rfl
  | released => exact absurd driver goesOn

/-! ## What is left to do -/

/-- How often a task may still settle and be tried again. -/
def attemptsLeft (config : DriveConfig) (run : ParallelRun) (task : Task) : Nat :=
  match run.inFlight.find? fun flight => flight.task.id = task.id with
  | some flight => 1 + (config.maxTaskRetries + 2 - flight.attempt)
  | none =>
      if (run.stateOf task.id).status = .running ∨ (run.stateOf task.id).status = .pending then
        1 + (config.maxTaskRetries + 1 - (run.stateOf task.id).attempt)
      else
        0

def workLeft (config : DriveConfig) (run : ParallelRun) : Nat :=
  (run.plan.tasks.map (attemptsLeft config run)).sum

/-- The driver can begin a pass without waiting. -/
def passLeft (run : ParallelRun) : Nat :=
  match run.driver with
  | .looping => 1
  | .racing race => if race.won = some true then 1 else 0
  | _ => 0

/-- How far the driver is from its end. -/
def stagesLeft (run : ParallelRun) : Nat :=
  match run.driver with
  | .looping | .racing _ => 3
  | .finishing => 2
  | .settled _ => 1
  | .released => 0

def executingCount (run : ParallelRun) : Nat :=
  (run.inFlight.filter fun flight => flight.phase = .executing).length

def stepsLeft (config : DriveConfig) (run : ParallelRun) : Nat :=
  (config.maxParallel + 2) * (workLeft config run + passLeft run) + executingCount run +
    stagesLeft run

theorem attemptsLeft_of_eq {task : Task} (inFlight : after.inFlight = run.inFlight)
    (state : after.stateOf task.id = run.stateOf task.id) :
    attemptsLeft config after task = attemptsLeft config run task := by
  rw [attemptsLeft, attemptsLeft, inFlight, state]

theorem workLeft_le (plan : after.plan = run.plan)
    (less : ∀ task ∈ run.plan.tasks, attemptsLeft config after task ≤ attemptsLeft config run task) :
    workLeft config after ≤ workLeft config run := by
  rw [workLeft, workLeft, plan]
  exact List.sum_le_sum less

/-- A task that is pending or running, and not in flight, has the same attempts left in both. -/
theorem attemptsLeft_transition (task other : Task) (next : TaskState) (summary : JsString)
    (fewer : (run.inFlight.find? fun flight => flight.task.id = other.id) = none →
      (next.status = .running ∨ next.status = .pending) →
        ((run.stateOf other.id).status = .running ∨ (run.stateOf other.id).status = .pending) ∧
          (run.stateOf other.id).attempt = next.attempt) :
    attemptsLeft config (run.transition other.id next summary) task ≤
      attemptsLeft config run task := by
  by_cases same : task.id = other.id
  · rw [attemptsLeft, attemptsLeft, same, ParallelRun.stateOf_transition_self]
    show (match run.inFlight.find? fun flight => flight.task.id = other.id with
      | some flight => _
      | none => _) ≤ _
    cases found : run.inFlight.find? fun flight => flight.task.id = other.id with
    | some flight => exact le_rfl
    | none =>
        dsimp only
        split_ifs with goesOn went
        · rw [(fewer found goesOn).2]
          exact le_rfl
        · exact absurd (fewer found goesOn).1 went
        · exact Nat.zero_le _
        · exact le_rfl
  · have unchanged := ParallelRun.stateOf_transition_ne run same next summary
    exact Eq.le (attemptsLeft_of_eq rfl unchanged)

theorem attemptsLeft_resetRunning (task other : Task) :
    attemptsLeft config (run.resetRunning other) task ≤ attemptsLeft config run task := by
  rw [ParallelRun.resetRunning]
  split_ifs with running
  · exact attemptsLeft_transition task other _ _ fun _ _ => ⟨Or.inl running, rfl⟩
  · exact le_rfl

theorem attemptsLeft_blockUnreachable (task other : Task) :
    attemptsLeft config (run.blockUnreachable other) task ≤ attemptsLeft config run task := by
  rw [ParallelRun.blockUnreachable]
  split_ifs
  · refine attemptsLeft_transition task other _ _ fun _ goesOn => ?_
    rcases goesOn with status | status <;> cases status
  · exact le_rfl

theorem find?_append_none {flights : List Flight} {task : Task} {flight : Flight}
    (absent : ∀ flight ∈ flights, flight.task.id ≠ task.id) (same : flight.task.id = task.id) :
    ((flights ++ [flight]).find? fun flight => flight.task.id = task.id) = some flight := by
  rw [List.find?_append, List.find?_eq_none.mpr fun other member => by simpa using absent other member,
    Option.none_or, List.find?_singleton, if_pos (by simpa using same)]

/-- The attempt that a launch counts is taken from the attempts left. -/
theorem attemptsLeft_launch {other : Task} (launchable : Launchable run other) (task : Task)
    (refused : Bool) (now : JsString) :
    attemptsLeft config (run.launch other refused now) task ≤ attemptsLeft config run task := by
  by_cases same : task.id = other.id
  · have absent : ∀ flight ∈ run.inFlight, flight.task.id ≠ task.id := by
      rw [same]
      exact launchable.absent
    have attempt : (run.stateOf other.id).attempt =
        ((run.tasks other.id).map TaskState.attempt).getD 0 := by
      rw [ParallelRun.stateOf]
      cases run.tasks other.id <;> rfl
    have before : (run.inFlight.find? fun flight : Flight => flight.task.id = task.id) = none :=
      List.find?_eq_none.mpr fun flight member => by simpa using absent flight member
    rw [attemptsLeft, attemptsLeft, before]
    show (match (run.inFlight ++ [_]).find? fun flight : Flight => flight.task.id = task.id with
      | some flight => _
      | none => _) ≤ _
    rw [find?_append_none absent same.symm]
    dsimp only
    rw [same, if_pos (Or.inr launchable.pending), attempt]
    have counted : ∀ retries attempt : Nat,
        1 + (retries + 2 - (attempt + 1)) ≤ 1 + (retries + 1 - attempt) := by omega
    exact counted _ _
  · refine (Eq.le ?_)
    rw [attemptsLeft, attemptsLeft,
      show (run.launch other refused now).stateOf task.id = run.stateOf task.id from
        ParallelRun.stateOf_transition_ne run same _ []]
    show (match (run.inFlight ++ [_]).find? fun flight : Flight => flight.task.id = task.id with
      | some flight => _
      | none => _) = _
    rw [List.find?_append, List.find?_singleton, if_neg (by simpa using Ne.symm same),
      Option.or_none]

/-- A pass leaves no more to do than there was. -/
theorem workLeft_pass (run : ParallelRun) (refused : JsString → Bool) (now : JsString) :
    workLeft config (run.pass config refused now) ≤ workLeft config run := by
  have refreshed : ∀ task, attemptsLeft config run.refresh task ≤ attemptsLeft config run task := by
    refine (refresh_induction (P := fun other => ∀ task, attemptsLeft config other task ≤
      attemptsLeft config run task) (fun _ => le_rfl) (fun other task holds before => ?_)
      fun other task _ holds before => ?_).1
    · exact (attemptsLeft_resetRunning before task).trans (holds before)
    · exact (attemptsLeft_blockUnreachable before task).trans (holds before)
  have plan : run.refresh.plan = run.plan :=
    (refresh_induction (P := fun _ => True) trivial (fun _ _ _ => trivial)
      fun _ _ _ _ => trivial).2
  have ends : ∀ (other : ParallelRun) deadlocked, other.plan = run.plan →
      (∀ task, attemptsLeft config other task ≤ attemptsLeft config run task) →
      workLeft config (other.endPass deadlocked) ≤ workLeft config run := by
    intro other deadlocked same less
    have bounded : ∀ driver outcome,
        workLeft config { other with driver := driver, outcome := outcome } ≤ workLeft config run :=
      fun driver outcome => workLeft_le same fun task _ => less task
    rw [ParallelRun.endPass]
    by_cases empty : other.inFlight = []
    · rw [if_pos empty]
      exact bounded _ _
    · rw [if_neg empty]
      exact bounded _ _
  rw [ParallelRun.pass]
  split_ifs
  · exact ends _ _ plan refreshed
  · have launched : ∀ other task, Launchable other task →
        other.inFlight.length < config.maxParallel →
        (other.plan = run.plan ∧ ∀ before, attemptsLeft config other before ≤
          attemptsLeft config run before) →
        (other.launch task (refused task.id) now).plan = run.plan ∧ ∀ before,
          attemptsLeft config (other.launch task (refused task.id) now) before ≤
            attemptsLeft config run before := fun other task launchable _ holds =>
      ⟨holds.1, fun before => (attemptsLeft_launch launchable before _ now).trans (holds.2 before)⟩
    obtain ⟨same, less⟩ := launchReady_induction launched (readyTasks_distinct run.refresh)
      (fun task member => launchable_of_ready member) ⟨plan, refreshed⟩
    exact ends _ _ same less

/-! ## The end of a task -/

theorem find?_close_ne (sound : Sound config run) {flight : Flight} (member : flight ∈ run.inFlight)
    {task : Task} (different : task.id ≠ flight.task.id) (fulfilled : Bool) :
    (((run.close flight.promise fulfilled).inFlight.find? fun other : Flight =>
        other.task.id = task.id).map Flight.attempt) =
      (run.inFlight.find? fun other : Flight => other.task.id = task.id).map Flight.attempt := by
  show (((run.inFlight.filter _).map _).find? _).map _ = _
  rw [List.find?_map, Option.map_map, List.find?_filter]
  refine congrArg (Option.map Flight.attempt) (List.find?_congr fun other inFlight => ?_)
  by_cases owns : other.task.id = task.id
  · have apart : other.promise ≠ flight.promise := by
      intro promise
      rw [List.inj_on_of_nodup_map sound.promises inFlight member promise] at owns
      exact different owns.symm
    simp [owns, apart]
  · simp [owns]

theorem find?_close_self (sound : Sound config run) {flight : Flight}
    (member : flight ∈ run.inFlight) (fulfilled : Bool) :
    ((run.close flight.promise fulfilled).inFlight.find? fun other : Flight =>
      other.task.id = flight.task.id) = none := by
  refine List.find?_eq_none.mpr fun other left => ?_
  obtain ⟨before, kept, rfl⟩ := List.mem_map.mp left
  rw [List.mem_filter, decide_eq_true_iff] at kept
  rw [decide_eq_true_iff]
  show ¬ before.task.id = flight.task.id
  exact sound.other_task member kept.1 kept.2

theorem find?_self (sound : Sound config run) {flight : Flight} (member : flight ∈ run.inFlight) :
    (run.inFlight.find? fun other : Flight => other.task.id = flight.task.id) = some flight := by
  cases found : run.inFlight.find? fun other : Flight => other.task.id = flight.task.id with
  | none =>
      have absent := List.find?_eq_none.mp found flight member
      simp at absent
  | some other =>
      have same := List.find?_some found
      rw [List.inj_on_of_nodup_map sound.alone (List.mem_of_find?_eq_some found) member
        (by simpa using same)]

theorem attemptsLeft_eq (task : Task) :
    attemptsLeft config run task =
      match (run.inFlight.find? fun flight : Flight => flight.task.id = task.id).map
        Flight.attempt with
      | some attempt => 1 + (config.maxTaskRetries + 2 - attempt)
      | none =>
          if (run.stateOf task.id).status = .running ∨ (run.stateOf task.id).status = .pending then
            1 + (config.maxTaskRetries + 1 - (run.stateOf task.id).attempt)
          else
            0 := by
  rw [attemptsLeft]
  cases run.inFlight.find? fun flight : Flight => flight.task.id = task.id <;> rfl

/-- The other tasks have the attempts left that they had. -/
theorem attemptsLeft_close_ne (sound : Sound config run) {flight : Flight}
    (member : flight ∈ run.inFlight) {task : Task} (different : task.id ≠ flight.task.id)
    {fulfilled : Bool}
    (inFlight : after.inFlight = (run.close flight.promise fulfilled).inFlight)
    (state : after.stateOf task.id = run.stateOf task.id) :
    attemptsLeft config after task = attemptsLeft config run task := by
  rw [attemptsLeft_eq, attemptsLeft_eq, inFlight, state, find?_close_ne sound member different]

theorem attemptsLeft_close_self (sound : Sound config run) {flight : Flight}
    (member : flight ∈ run.inFlight) {fulfilled : Bool}
    (inFlight : after.inFlight = (run.close flight.promise fulfilled).inFlight) :
    attemptsLeft config after flight.task =
      if (after.stateOf flight.task.id).status = .running ∨
          (after.stateOf flight.task.id).status = .pending then
        1 + (config.maxTaskRetries + 1 - (after.stateOf flight.task.id).attempt)
      else
        0 := by
  rw [attemptsLeft, inFlight, find?_close_self sound member]

/-- A task that settles without an exception takes an attempt from what is left. -/
theorem workLeft_closed (sound : Sound config run) {flight : Flight}
    (member : flight ∈ run.inFlight) {next : TaskState}
    (concludes : Concludes run after flight next) (outlasts : Outlasts config flight next)
    (inFlight : after.inFlight = (run.close flight.promise true).inFlight) :
    workLeft config after < workLeft config run := by
  have own : attemptsLeft config after flight.task < attemptsLeft config run flight.task := by
    rw [attemptsLeft_close_self sound member inFlight, attemptsLeft, find?_self sound member,
      concludes.states, if_pos rfl]
    rcases outlasts with status | status | status | ⟨status, attempt, retries⟩
    · rw [status, if_neg (by simp)]
      exact Nat.lt_add_right _ Nat.one_pos
    · rw [status, if_neg (by simp)]
      exact Nat.lt_add_right _ Nat.one_pos
    · rw [status, if_neg (by simp)]
      exact Nat.lt_add_right _ Nat.one_pos
    · rw [if_pos (Or.inr status), attempt]
      have counted : ∀ limit tried : Nat, tried - 1 < limit →
          1 + (limit + 1 - tried) < 1 + (limit + 2 - tried) := by omega
      exact counted _ _ retries
  rw [workLeft, workLeft, concludes.plan]
  refine List.sum_lt_sum _ _ (fun task planned => ?_)
    ⟨flight.task, sound.planned flight member, own⟩
  by_cases same : task.id = flight.task.id
  · rw [ValidPlan.eq_of_id planned (sound.planned flight member) same]
    exact own.le
  · refine (attemptsLeft_close_ne sound member same inFlight ?_).le
    rw [concludes.states, if_neg same]

/-- A task that throws has no more attempts left than before. -/
theorem workLeft_threw (sound : Sound config run) {flight : Flight} (member : flight ∈ run.inFlight)
    (executing : flight.phase = .executing) :
    workLeft config (run.close flight.promise false) ≤ workLeft config run := by
  refine workLeft_le rfl fun task planned => ?_
  by_cases same : task.id = flight.task.id
  · obtain rfl : task = flight.task := ValidPlan.eq_of_id planned (sound.planned flight member) same
    have fits := sound.fits flight member
    rw [executing] at fits
    have state : (run.close flight.promise false).stateOf flight.task.id =
        run.stateOf flight.task.id := rfl
    have counted : ∀ limit tried : Nat,
        1 + (limit + 1 - tried) ≤ 1 + (limit + 2 - tried) := by omega
    rw [attemptsLeft_close_self sound member rfl, attemptsLeft, find?_self sound member, state,
      if_pos fits.1, fits.2.1]
    exact counted _ _
  · exact (attemptsLeft_close_ne sound member same rfl rfl).le

/-! ## The drive ends -/

theorem executingCount_close {flight : Flight} (member : flight ∈ run.inFlight)
    (executing : flight.phase = .executing) {fulfilled : Bool}
    (inFlight : after.inFlight = (run.close flight.promise fulfilled).inFlight) :
    executingCount after < executingCount run := by
  have kept : executingCount after = ((run.inFlight.filter fun other => other.phase = .executing).filter
      fun other => other.promise ≠ flight.promise).length := by
    rw [executingCount, inFlight]
    show (((run.inFlight.filter _).map _).filter _).length = _
    rw [List.filter_map, List.length_map, List.filter_filter, List.filter_filter]
    refine congrArg List.length (List.filter_congr fun other _ => ?_)
    cases phase : other.phase <;> simp [phase, FlightPhase.settle]
  rw [kept, executingCount]
  exact List.length_filter_lt_length_iff_exists.mpr
    ⟨flight, List.mem_filter.mpr ⟨member, by simpa using executing⟩, by simp⟩

theorem executingCount_le (run : ParallelRun) : executingCount run ≤ run.inFlight.length :=
  List.length_filter_le _ _

theorem stagesLeft_settle {promise : Nat} {fulfilled : Bool}
    (settled : after.driver = run.driver.settle promise fulfilled) :
    stagesLeft after = stagesLeft run := by
  rw [stagesLeft, stagesLeft, settled]
  cases run.driver <;> rfl

theorem passLeft_settle {promise : Nat} {fulfilled : Bool}
    (settled : after.driver = run.driver.settle promise fulfilled) :
    passLeft after ≤ passLeft run + fulfilled.toNat := by
  rw [passLeft, passLeft, settled]
  cases driver : run.driver with
  | racing race =>
      show (if (race.settle promise fulfilled).won = some true then 1 else 0) ≤
        (if race.won = some true then 1 else 0) + _
      split_ifs with after before
      · exact Nat.le_add_right _ _
      · rcases Race.of_won_settle after with won | fulfills
        · exact absurd won before
        · rw [← fulfills]
          exact le_rfl
      · exact Nat.zero_le _
      · exact Nat.zero_le _
  | looping => exact Nat.le_add_right _ _
  | finishing => exact Nat.zero_le _
  | settled returned => exact Nat.zero_le _
  | released => exact Nat.zero_le _

theorem endPass_left (run : ParallelRun) (deadlocked : Bool) :
    passLeft (run.endPass deadlocked) = 0 ∧ stagesLeft (run.endPass deadlocked) ≤ 3 := by
  rw [ParallelRun.endPass]
  by_cases empty : run.inFlight = []
  · rw [if_pos empty]
    exact ⟨rfl, Nat.le_succ 2⟩
  · rw [if_neg empty]
    refine ⟨if_neg ?_, le_rfl⟩
    rw [ParallelRun.race, Race.start]
    split_ifs <;> simp

theorem stepsLeft_lt_of (passes : workLeft config after + passLeft after ≤
      workLeft config run + passLeft run)
    (rest : executingCount after + stagesLeft after < executingCount run + stagesLeft run) :
    stepsLeft config after < stepsLeft config run := by
  rw [stepsLeft, stepsLeft, add_assoc, add_assoc]
  exact add_lt_add_of_le_of_lt (Nat.mul_le_mul_left _ passes) rest

theorem stepsLeft_pass (sound : Sound config run) (refused : JsString → Bool) (now : JsString)
    (driver : run.driver = .looping ∨ ∃ race, run.driver = .racing race ∧ race.won = some true) :
    stepsLeft config (run.pass config refused now) < stepsLeft config run := by
  have before : passLeft run = 1 ∧ stagesLeft run = 3 := by
    rcases driver with looping | ⟨race, racing, won⟩
    · rw [passLeft, stagesLeft, looping]
      exact ⟨rfl, rfl⟩
    · rw [passLeft, stagesLeft, racing]
      exact ⟨if_pos won, rfl⟩
  have ends : passLeft (run.pass config refused now) = 0 ∧
      stagesLeft (run.pass config refused now) ≤ 3 := by
    rw [ParallelRun.pass]
    split_ifs <;> exact endPass_left _ _
  have launched : executingCount (run.pass config refused now) ≤ config.maxParallel :=
    (executingCount_le _).trans (sound.pass refused now).room
  have work := Nat.mul_le_mul_left (config.maxParallel + 2)
    (@workLeft_pass config run refused now)
  rw [stepsLeft, stepsLeft, ends.1, before.1, before.2, Nat.mul_succ,
    Nat.add_zero (workLeft _ _)]
  omega

theorem stepsLeft_close {flight : Flight} (member : flight ∈ run.inFlight)
    (executing : flight.phase = .executing) {fulfilled : Bool}
    (work : workLeft config after + fulfilled.toNat ≤ workLeft config run)
    (inFlight : after.inFlight = (run.close flight.promise fulfilled).inFlight)
    (driver : after.driver = run.driver.settle flight.promise fulfilled) :
    stepsLeft config after < stepsLeft config run := by
  have passes := passLeft_settle driver
  have fewer := executingCount_close member executing inFlight
  refine stepsLeft_lt_of (by omega) ?_
  rw [stagesLeft_settle driver]
  omega

theorem stepsLeft_driver {driver : DriverPhase} (passes : passLeft { run with driver := driver } = 0)
    (stages : stagesLeft { run with driver := driver } < stagesLeft run) :
    stepsLeft config { run with driver := driver } < stepsLeft config run := by
  refine stepsLeft_lt_of ?_ (Nat.add_lt_add_left stages _)
  rw [passes]
  exact Nat.le_add_right _ _

/-- Every step leaves less to do. -/
theorem stepsLeft_lt (unasked : Unasked run) (sound : Sound config run) {op : DriveOp}
    (asks : ¬ AsksReplan run op) (steps : Steps config run op after) :
    stepsLeft config after < stepsLeft config run := by
  cases steps with
  | pass driver => exact stepsLeft_pass sound _ _ driver
  | fails driver won =>
      refine stepsLeft_driver rfl ?_
      rw [stagesLeft, stagesLeft, driver]
      exact Nat.one_lt_succ_succ 1
  | @settle flight settlement now member executing =>
      cases settlement with
      | threw =>
          exact @stepsLeft_close config run _ flight member executing false
            (workLeft_threw sound member executing) rfl rfl
      | returned outcome patch applies =>
          obtain ⟨next, concludes, leaves⟩ :=
            settle_spec sound member executing outcome patch applies now
          cases leaves with
          | closed stays outlasts inFlight driver =>
              exact @stepsLeft_close config run _ flight member executing true
                (workLeft_closed sound member concludes outlasts inFlight) inFlight driver
          | drains replan waits inFlight driver =>
              exact (asks ⟨flight, member, executing, outcome, patch, applies, now, rfl,
                replan⟩).elim
  | drain member draining won => exact (unasked.not_draining member draining).elim
  | abandon member draining won => exact (unasked.not_draining member draining).elim
  | replan member replanning => exact (sound.not_replanning member replanning).elim
  | finish driver =>
      refine stepsLeft_driver rfl ?_
      rw [stagesLeft, stagesLeft, driver]
      exact Nat.one_lt_two
  | release driver =>
      refine stepsLeft_driver rfl ?_
      rw [stagesLeft, stagesLeft, driver]
      exact Nat.one_pos

/-! ## A replan waits for itself -/

/-- A task that asks for a replan waits for its own promise. -/
theorem selfWait_of_asks (sound : Sound config run) {op : DriveOp} (asks : AsksReplan run op) :
    ¬ NoSelfWait (run.act config op) := by
  obtain ⟨flight, member, executing, outcome, patch, applies, now, rfl, replan⟩ := asks
  have stepped : run.act config (.settle flight.promise (.returned outcome patch applies) now) =
      run.settle config flight (.returned outcome patch applies) now := by
    rw [ParallelRun.act, ParallelRun.step, flight?_of_mem sound member, Option.bind_some,
      if_pos executing]
    rfl
  rw [stepped]
  intro apart
  obtain ⟨next, -, leaves⟩ := settle_spec sound member executing outcome patch applies now
  cases leaves with
  | closed stays outlasts inFlight driver => exact stays replan
  | drains asked waits inFlight driver =>
      have waiting : { flight with phase := .draining run.race } ∈
          (run.settle config flight (.returned outcome patch applies) now).inFlight := by
        rw [inFlight]
        exact List.mem_map.mpr ⟨flight, member, if_pos rfl⟩
      have own : flight.promise ∈ run.race.awaited := List.mem_map_of_mem member
      exact apart _ waiting run.race rfl own

end Waiting

/-! ## The whole drive -/

/-- No task waits for itself, and a step is possible while a task is in flight, and until the
lock is released. -/
structure Drives (config : DriveConfig) (run : ParallelRun) : Prop where
  noSelfWait : NoSelfWait run
  inFlight : (∃ flight ∈ run.inFlight, flight.phase ≠ .rejected) → CanStep config run
  goesOn : run.driver ≠ .released → CanStep config run

section Drive

variable {config : DriveConfig} {run : ParallelRun}

theorem drives_of_unasked (unasked : Unasked run) (sound : Sound config run) :
    Drives config run where
  noSelfWait := unasked.noSelfWait
  inFlight := by
    rintro ⟨flight, member, pending⟩
    exact canStep_of_executing sound member ((unasked.phases flight member).resolve_right pending)
  goesOn := unasked.canStep sound

theorem unasked_act (invariant : Sound config run ∧ Unasked run) {op : DriveOp}
    (asks : ¬ AsksReplan run op) :
    Sound config (run.act config op) ∧ Unasked (run.act config op) :=
  act_induction (P := fun after => Sound config after ∧ Unasked after)
    (fun _ steps => ⟨invariant.1.step steps, invariant.2.step invariant.1 asks steps⟩) invariant

/-- A step that can be made leaves less to do. -/
theorem stepsLeft_act (invariant : Sound config run ∧ Unasked run) {op : DriveOp}
    (asks : ¬ AsksReplan run op) (possible : (run.step config op).isSome) :
    stepsLeft config (run.act config op) < stepsLeft config run := by
  obtain ⟨after, stepped⟩ := Option.isSome_iff_exists.mp possible
  rw [ParallelRun.act, stepped]
  exact stepsLeft_lt invariant.2 invariant.1 asks (steps_of_step stepped)

end Drive

/-- Along a history of a drive no task waits for itself, a step is possible as long as it has
not ended, and the number of steps is bounded, if and only if no task asks for a replan. -/
theorem drive_ends_iff (config : DriveConfig) (start : DriveStart) (ops : List DriveOp) :
    ((∀ before, before <+: ops →
        Drives config (History.run (ParallelRun.act config) before start.run)) ∧
      (EveryStep (ParallelRun.act config) (fun run op => (run.step config op).isSome) ops start.run →
        ops.length ≤ stepsLeft config start.run)) ↔
      EveryStep (ParallelRun.act config) (fun run op => ¬ AsksReplan run op) ops start.run := by
  have initial : Sound config start.run ∧ Unasked start.run :=
    ⟨ParallelRun.sound_start config start, unasked_start start⟩
  constructor
  · rintro ⟨drives, -⟩
    by_contra asked
    obtain ⟨before, op, after, rfl, earlier, asks⟩ := exists_first_failure asked
    have sound := (earlier.invariant initial fun _ _ quiet invariant =>
      unasked_act invariant quiet).1
    refine selfWait_of_asks sound (not_not.mp asks) ?_
    have upTo := (drives (before ++ [op]) ⟨after, by simp⟩).noSelfWait
    rwa [run_append] at upTo
  · intro quiet
    refine ⟨fun before part => ?_, fun possible => ?_⟩
    · obtain ⟨sound, unasked⟩ := (quiet.of_prefix part).invariant initial fun _ _ asks invariant =>
        unasked_act invariant asks
      exact drives_of_unasked unasked sound
    · exact (possible.and quiet).length_le initial fun run op holds invariant =>
        ⟨unasked_act invariant holds.2, stepsLeft_act invariant holds.2 holds.1⟩

/-! ## The failing run -/

theorem writerPlan_accepted :
    planAccepted { writersPlan (js "src/a.ts") (js "src/b.ts") with
      tasks := [writer (js "first") (js "src/a.ts")] } emptySpec none = true := by
  decide +kernel

/-- A plan of one task. -/
def oneWriter : ValidPlan where
  plan := { writersPlan (js "src/a.ts") (js "src/b.ts") with
    tasks := [writer (js "first") (js "src/a.ts")] }
  ir := emptySpec
  isDirectory := none
  accepted := writerPlan_accepted

/-- The task is launched, and asks for a replan. -/
def replanHistory : List DriveOp :=
  [.wake (fun _ => false) [],
    .settle 0 (.returned ⟨.needsReplan, js "needs a replan", false, none⟩ none false) []]

/-- Nothing happens any more when the only task waits for itself. -/
theorem step_eq_none {config : DriveConfig} {run : ParallelRun} {flight : Flight} {race : Race}
    (inFlight : run.inFlight = [flight]) (draining : flight.phase = .draining race)
    (driver : run.driver = .racing race) (won : race.won = none) (op : DriveOp) :
    run.step config op = none := by
  have found : ∀ promise other, run.flight? promise = some other → other = flight := by
    intro promise other found
    have member := (flight?_spec found).1
    rw [inFlight] at member
    exact List.mem_singleton.mp member
  refine Option.eq_none_iff_forall_ne_some.mpr fun after stepped => ?_
  cases steps_of_step stepped with
  | pass waits =>
      rcases waits with looping | ⟨other, racing, fulfilled⟩
      · rw [driver] at looping
        cases looping
      · rw [driver] at racing
        cases racing
        rw [won] at fulfilled
        cases fulfilled
  | fails racing rejected =>
      rw [driver] at racing
      cases racing
      rw [won] at rejected
      cases rejected
  | settle member executing =>
      rw [inFlight, List.mem_singleton] at member
      rw [member, draining] at executing
      cases executing
  | drain member waits fulfilled =>
      rw [inFlight, List.mem_singleton] at member
      rw [member, draining] at waits
      cases waits
      rw [won] at fulfilled
      cases fulfilled
  | abandon member waits rejected =>
      rw [inFlight, List.mem_singleton] at member
      rw [member, draining] at waits
      cases waits
      rw [won] at rejected
      cases rejected
  | replan member replanning =>
      rw [inFlight, List.mem_singleton] at member
      rw [member, draining] at replanning
      cases replanning
  | finish finishing =>
      rw [driver] at finishing
      cases finishing
  | release settled =>
      rw [driver] at settled
      cases settled

theorem replanHistory_inFlight :
    (History.run (ParallelRun.act ⟨2, 1⟩) replanHistory (DriveStart.fresh oneWriter).run).inFlight =
      [⟨0, writer (js "first") (js "src/a.ts"), 1, [], .draining ⟨[0], none⟩⟩] := by
  decide +kernel

theorem replanHistory_driver :
    (History.run (ParallelRun.act ⟨2, 1⟩) replanHistory (DriveStart.fresh oneWriter).run).driver =
      .racing ⟨[0], none⟩ := by
  decide +kernel

/-- A replan drains the tasks in flight while it is one of them: it waits for itself, and no step
is possible. -/
theorem not_drive_ends :
    (¬ ∀ config start ops, NoSelfWait (History.run (ParallelRun.act config) ops
      (DriveStart.run start))) ∧
    ¬ ∀ config start ops,
      (∃ flight ∈ (History.run (ParallelRun.act config) ops (DriveStart.run start)).inFlight,
        flight.phase ≠ .rejected) →
          CanStep config (History.run (ParallelRun.act config) ops (DriveStart.run start)) := by
  refine ⟨fun apart => ?_, fun goesOn => ?_⟩
  · have waits := apart ⟨2, 1⟩ (DriveStart.fresh oneWriter) replanHistory
    rw [NoSelfWait, replanHistory_inFlight] at waits
    exact waits _ List.mem_cons_self _ rfl List.mem_cons_self
  · obtain ⟨op, possible⟩ := goesOn ⟨2, 1⟩ (DriveStart.fresh oneWriter) replanHistory (by
      rw [replanHistory_inFlight]
      exact ⟨_, List.mem_cons_self, FlightPhase.noConfusion⟩)
    rw [step_eq_none replanHistory_inFlight rfl replanHistory_driver rfl] at possible
    cases possible

end SpecAsCode.Runtime.Parallel
