import SpecAsCode.Runtime.ParallelDriver

/-!
# Tasks in flight

What every step of the parallel driver keeps: how the entries of `inFlight`, the statuses of
the tasks and the integration branch fit together.
-/

namespace SpecAsCode.Runtime.Parallel

open SpecAsCode.Js
open SpecAsCode.Core
open SpecAsCode.Schema
open SpecAsCode.Races
open SpecAsCode.History

/-! ## Valid plans -/

theorem duplicateIds_eq_nil {known : List JsString} {tasks : List Task}
    (clean : duplicateIds known tasks = []) :
    (tasks.map Task.id).Nodup ∧ ∀ task ∈ tasks, task.id ∉ known := by
  induction tasks generalizing known with
  | nil => simp
  | cons task rest inductionHypothesis =>
      rw [duplicateIds, List.append_eq_nil_iff] at clean
      obtain ⟨fresh, later⟩ := clean
      have unknown : task.id ∉ known := by
        intro member
        rw [if_pos member] at fresh
        cases fresh
      obtain ⟨distinct, apart⟩ := inductionHypothesis later
      rw [List.map_cons, List.nodup_cons, List.forall_mem_cons]
      refine ⟨⟨fun member => ?_, distinct⟩, unknown, fun other inRest member => ?_⟩
      · obtain ⟨other, inRest, same⟩ := List.mem_map.mp member
        exact apart other inRest (by simp [same])
      · exact apart other inRest (List.mem_append_left _ member)

/-- The tasks of a valid plan have distinct identifiers. -/
theorem ValidPlan.distinct (valid : ValidPlan) : (valid.tasks.map Task.id).Nodup := by
  have clean : duplicateIds [] valid.plan.tasks = [] := by
    cases reported : duplicateIds [] valid.plan.tasks with
    | nil => rfl
    | cons diagnostic rest =>
        have severe : ∀ known tasks, ∀ diagnostic ∈ duplicateIds known tasks,
            diagnostic.severity = .error := by
          intro known tasks
          induction tasks generalizing known with
          | nil => simp [duplicateIds]
          | cons task tasks inductionHypothesis =>
              intro diagnostic member
              rw [duplicateIds, List.mem_append] at member
              rcases member with here | later
              · split_ifs at here with repeated
                · rw [List.mem_singleton.mp here]
                  rfl
                · cases here
              · exact inductionHypothesis _ diagnostic later
        have member : diagnostic ∈ duplicateIds [] valid.plan.tasks := by
          rw [reported]
          exact List.mem_cons_self
        have refused : hasErrors (validatePlan valid.plan valid.ir valid.isDirectory) = true := by
          rw [hasErrors, List.any_eq_true]
          refine ⟨diagnostic, ?_, by rw [severe _ _ _ member]; rfl⟩
          simp [validatePlan, reported]
        have accepted := valid.accepted
        rw [planAccepted, refused] at accepted
        cases accepted
  exact (duplicateIds_eq_nil clean).1

theorem ValidPlan.eq_of_id {valid : ValidPlan} {task other : Task} (member : task ∈ valid.tasks)
    (otherMember : other ∈ valid.tasks) (same : task.id = other.id) : task = other :=
  List.inj_on_of_nodup_map valid.distinct member otherMember same

namespace ParallelRun

variable {config : DriveConfig} {run : ParallelRun}

/-! ## States of tasks -/

@[simp]
theorem stateOf_setTask_self (run : ParallelRun) (id : JsString) (state : TaskState) :
    (run.setTask id state).stateOf id = state := by
  show (Function.update run.tasks id (some state) id).getD _ = state
  rw [Function.update_self, Option.getD_some]

theorem stateOf_setTask_ne (run : ParallelRun) {id other : JsString} (different : other ≠ id)
    (state : TaskState) : (run.setTask id state).stateOf other = run.stateOf other := by
  show (Function.update run.tasks id (some state) other).getD _ = _
  rw [Function.update_of_ne different]
  rfl

@[simp]
theorem stateOf_transition_self (run : ParallelRun) (id : JsString) (next : TaskState)
    (summary : JsString) :
    (run.transition id next summary).stateOf id = nextState (run.tasks id) next :=
  stateOf_setTask_self run id _

theorem stateOf_transition_ne (run : ParallelRun) {id other : JsString} (different : other ≠ id)
    (next : TaskState) (summary : JsString) :
    (run.transition id next summary).stateOf other = run.stateOf other :=
  stateOf_setTask_ne run different _

theorem isFinished_iff {id : JsString} :
    run.isFinished id = true ↔
      (run.stateOf id).status = .completed ∨ (run.stateOf id).status = .skipped := by
  simp [isFinished]

end ParallelRun

/-! ## Merged patches -/

/-- The patches that were merged, with the tasks they are from. -/
def merges (events : List DriveEvent) : List (JsString × JsString) :=
  events.filterMap fun event =>
    match event with
    | .patchMerged taskId revision => some (taskId, revision)
    | _ => none

theorem merges_append (events more : List DriveEvent) :
    merges (events ++ more) = merges events ++ merges more :=
  List.filterMap_append

@[simp]
theorem merges_transitionEvents (taskId : JsString) (next : TaskState) (summary : JsString) :
    merges (ParallelRun.transitionEvents taskId next summary) = [] := by
  rw [ParallelRun.transitionEvents]
  split <;> rfl

/-! ## The invariant -/

/-- The state of a task whose promise is in the given phase. -/
def FlightPhase.Fits (attempt : Nat) (state : TaskState) : FlightPhase → Prop
  | .executing | .rejected =>
      (state.status = .running ∨ state.status = .pending) ∧ state.attempt = attempt ∧
        state.revision = none
  | .draining _ => state.status = .needsReplan
  | .replanning => False

theorem FlightPhase.Fits.unfinished {attempt : Nat} {state : TaskState} {phase : FlightPhase}
    (fits : phase.Fits attempt state) : ¬ (state.status = .completed ∨ state.status = .skipped) := by
  cases phase with
  | executing => rcases fits.1 with status | status <;> simp [status]
  | rejected => rcases fits.1 with status | status <;> simp [status]
  | draining race =>
      rw [show state.status = .needsReplan from fits]
      simp
  | replanning => exact fits.elim

/-- How the parts of the state of a run fit together. -/
structure Sound (config : DriveConfig) (run : ParallelRun) : Prop where
  promises : (run.inFlight.map Flight.promise).Nodup
  numbered : ∀ flight ∈ run.inFlight, flight.promise < run.launched
  alone : (run.inFlight.map fun flight => flight.task.id).Nodup
  planned : ∀ flight ∈ run.inFlight, flight.task ∈ run.plan.tasks
  room : run.inFlight.length ≤ config.maxParallel
  fits : ∀ flight ∈ run.inFlight, flight.phase.Fits flight.attempt (run.stateOf flight.task.id)
  finished : ∀ flight ∈ run.inFlight, ∀ dep ∈ flight.task.dependencies, run.isFinished dep = true
  prepared : ∀ flight ∈ run.inFlight, ∀ dep ∈ flight.task.dependencies, ∀ revision,
    (run.stateOf dep).status = .completed → (run.stateOf dep).revision = some revision →
      revision ∈ flight.startPoint
  startPoint : ∀ flight ∈ run.inFlight, flight.startPoint <+: run.branch
  recorded : ∀ id revision, (run.stateOf id).status = .completed →
    (run.stateOf id).revision = some revision → revision ∈ run.branch
  merged : ∀ id revision, (id, revision) ∈ merges run.events →
    (run.stateOf id).status = .completed ∧ (run.stateOf id).revision = some revision
  once : ((merges run.events).map Prod.fst).Nodup

namespace ParallelRun

variable {config : DriveConfig} {run after : ParallelRun}

theorem sound_start (config : DriveConfig) (start : DriveStart) : Sound config start.run where
  promises := List.nodup_nil
  numbered := by simp [DriveStart.run]
  alone := List.nodup_nil
  planned := by simp [DriveStart.run]
  room := Nat.zero_le _
  fits := by simp [DriveStart.run]
  finished := by simp [DriveStart.run]
  prepared := by simp [DriveStart.run]
  startPoint := by simp [DriveStart.run]
  recorded := by
    intro id revision completed kept
    have found : start.run.stateOf id = (start.tasks id).getD (pendingState id) := rfl
    rw [found] at completed kept
    cases known : start.tasks id with
    | none =>
        rw [known] at completed
        cases completed
    | some state =>
        rw [known] at completed kept
        exact start.recorded id state revision known completed kept
  merged := by simp [DriveStart.run, merges]
  once := List.nodup_nil

end ParallelRun

/-- What a step may do: tasks that have finished stay as they are, and a patch is merged with the
completion of its task. -/
structure Advance (run after : ParallelRun) : Prop where
  kept : ∀ id, run.isFinished id = true → after.stateOf id = run.stateOf id
  plan : after.plan = run.plan
  launched : run.launched ≤ after.launched
  branch : run.branch <+: after.branch
  recorded : ∀ id revision, run.isFinished id = false → (after.stateOf id).status = .completed →
    (after.stateOf id).revision = some revision → revision ∈ after.branch
  merged : merges after.events = merges run.events ∨ ∃ id revision, run.isFinished id = false ∧
    merges after.events = merges run.events ++ [(id, revision)] ∧
      (after.stateOf id).status = .completed ∧ (after.stateOf id).revision = some revision

/-- A step that leaves the tasks alone. -/
theorem Advance.of_tasks {run after : ParallelRun} (tasks : after.tasks = run.tasks)
    (plan : after.plan = run.plan) (launched : run.launched ≤ after.launched)
    (branch : after.branch = run.branch) (events : merges after.events = merges run.events) :
    Advance run after where
  kept id _ := by rw [ParallelRun.stateOf, ParallelRun.stateOf, tasks]
  plan := plan
  launched := launched
  branch := by rw [branch]
  recorded id revision unfinished completed := by
    rw [ParallelRun.stateOf, tasks] at completed
    rw [ParallelRun.isFinished, ParallelRun.stateOf, completed] at unfinished
    cases unfinished
  merged := Or.inl events

section Steps

variable {config : DriveConfig} {run after : ParallelRun}

/-- A merged patch is of a finished task. -/
theorem Sound.merged_ne (sound : Sound config run) {id other revision : JsString}
    (unfinished : run.isFinished id = false) (member : (other, revision) ∈ merges run.events) :
    other ≠ id := by
  rintro rfl
  rw [ParallelRun.isFinished, (sound.merged _ _ member).1] at unfinished
  cases unfinished

/-- A step that drops promises, or lets them wait for something else. -/
theorem Sound.advance (sound : Sound config run) (advance : Advance run after)
    {left : List Flight} {phase : Flight → FlightPhase} (sublist : left.Sublist run.inFlight)
    (inFlight : after.inFlight = left.map fun flight => { flight with phase := phase flight })
    (fits : ∀ flight ∈ left, (phase flight).Fits flight.attempt (after.stateOf flight.task.id)) :
    Sound config after := by
  have forall_iff : ∀ P : Flight → Prop, (∀ flight ∈ after.inFlight, P flight) ↔
      ∀ flight ∈ left, P { flight with phase := phase flight } := fun P => by
    rw [inFlight, List.forall_mem_map]
  have done : ∀ flight ∈ left, ∀ dep ∈ flight.task.dependencies, run.isFinished dep = true :=
    fun flight member => sound.finished flight (sublist.subset member)
  constructor
  · rw [inFlight, List.map_map]
    exact (sublist.map _).nodup sound.promises
  · rw [forall_iff]
    exact fun flight member =>
      (sound.numbered flight (sublist.subset member)).trans_le advance.launched
  · rw [inFlight, List.map_map]
    exact (sublist.map fun flight => flight.task.id).nodup sound.alone
  · rw [forall_iff, advance.plan]
    exact fun flight member => sound.planned flight (sublist.subset member)
  · rw [inFlight, List.length_map]
    exact sublist.length_le.trans sound.room
  · rw [forall_iff]
    exact fits
  · rw [forall_iff]
    intro flight member dep needed
    rw [ParallelRun.isFinished, advance.kept dep (done flight member dep needed)]
    exact done flight member dep needed
  · rw [forall_iff]
    intro flight member dep needed revision
    rw [advance.kept dep (done flight member dep needed)]
    exact sound.prepared flight (sublist.subset member) dep needed revision
  · rw [forall_iff]
    exact fun flight member =>
      (sound.startPoint flight (sublist.subset member)).trans advance.branch
  · intro id revision completed recorded
    cases finished : run.isFinished id with
    | false => exact advance.recorded id revision finished completed recorded
    | true =>
        rw [advance.kept id finished] at completed recorded
        exact advance.branch.subset (sound.recorded id revision completed recorded)
  · have earlier : ∀ id revision, (id, revision) ∈ merges run.events →
        (after.stateOf id).status = .completed ∧ (after.stateOf id).revision = some revision := by
      intro id revision member
      have known := sound.merged id revision member
      rw [advance.kept id (ParallelRun.isFinished_iff.mpr (Or.inl known.1))]
      exact known
    intro id revision member
    rcases advance.merged with same | ⟨task, patch, -, added, completed, recorded⟩
    · rw [same] at member
      exact earlier id revision member
    · rw [added, List.mem_append, List.mem_singleton] at member
      rcases member with before | here
      · exact earlier id revision before
      · cases here
        exact ⟨completed, recorded⟩
  · rcases advance.merged with same | ⟨task, patch, unfinished, added, -, -⟩
    · rw [same]
      exact sound.once
    · rw [added, List.map_append, List.map_singleton, ← List.concat_eq_append, List.nodup_concat]
      refine ⟨fun member => ?_, sound.once⟩
      obtain ⟨⟨other, revision⟩, before, same⟩ := List.mem_map.mp member
      exact sound.merged_ne unfinished before same

/-- A step that leaves the promises alone. -/
theorem Sound.advance_same (sound : Sound config run) (advance : Advance run after)
    (inFlight : after.inFlight = run.inFlight)
    (fits : ∀ flight ∈ run.inFlight,
      flight.phase.Fits flight.attempt (after.stateOf flight.task.id)) : Sound config after :=
  sound.advance advance (List.Sublist.refl _) (by rw [inFlight]; exact (List.map_id _).symm) fits

theorem FlightPhase.Fits.settle {attempt : Nat} {state : TaskState} {phase : FlightPhase}
    (fits : phase.Fits attempt state) (promise : Nat) (fulfilled : Bool) :
    (phase.settle promise fulfilled).Fits attempt state := by
  cases phase with
  | executing => exact fits
  | draining race => exact fits
  | replanning => exact fits
  | rejected => exact fits

theorem Sound.close (sound : Sound config run) (promise : Nat) (fulfilled : Bool) :
    Sound config (run.close promise fulfilled) := by
  refine sound.advance (Advance.of_tasks rfl rfl le_rfl rfl rfl) List.filter_sublist rfl
    fun flight member => ?_
  exact (sound.fits flight (List.mem_of_mem_filter member)).settle promise fulfilled

theorem setPhase_inFlight (run : ParallelRun) (promise : Nat) (phase : FlightPhase) :
    (run.setPhase promise phase).inFlight = run.inFlight.map fun flight =>
      { flight with phase := if flight.promise = promise then phase else flight.phase } := by
  refine List.map_congr_left fun flight member => ?_
  by_cases same : flight.promise = promise
  · rw [if_pos same, if_pos same]
  · rw [if_neg same, if_neg same]

theorem Sound.setPhase (sound : Sound config run) {promise : Nat} {phase : FlightPhase}
    (fits : ∀ flight ∈ run.inFlight, flight.promise = promise →
      phase.Fits flight.attempt (run.stateOf flight.task.id)) :
    Sound config (run.setPhase promise phase) := by
  refine sound.advance (Advance.of_tasks rfl rfl le_rfl rfl rfl) (List.Sublist.refl _)
    (setPhase_inFlight run promise phase) fun flight member => ?_
  split_ifs with same
  · exact fits flight member same
  · exact sound.fits flight member

/-! ## A pass -/

theorem Advance.transition {id : JsString} {next : TaskState} (unfinished : run.isFinished id = false)
    (goesOn : next.status ≠ .completed) (summary : JsString) :
    Advance run (run.transition id next summary) where
  kept other finished := by
    refine ParallelRun.stateOf_setTask_ne run (fun same => ?_) _
    rw [same, unfinished] at finished
    cases finished
  plan := rfl
  launched := le_rfl
  branch := List.prefix_rfl
  recorded other revision open_ completed := by
    by_cases same : other = id
    · subst same
      rw [ParallelRun.stateOf_transition_self] at completed
      exact absurd completed goesOn
    · rw [ParallelRun.stateOf_transition_ne run same] at completed
      rw [ParallelRun.isFinished, completed] at open_
      cases open_
  merged := Or.inl (by
    rw [ParallelRun.transition, ParallelRun.append, merges_append, merges_transitionEvents,
      List.append_nil]
    rfl)

theorem Sound.resetRunning (sound : Sound config run) (task : Task) :
    Sound config (run.resetRunning task) := by
  rw [ParallelRun.resetRunning]
  split_ifs with running
  · have unfinished : run.isFinished task.id = false := by
      rw [ParallelRun.isFinished, running]
      rfl
    refine sound.advance_same (Advance.transition unfinished TaskStatus.noConfusion _) rfl
      fun flight member => ?_
    have fits := sound.fits flight member
    by_cases same : flight.task.id = task.id
    · rw [same, ParallelRun.stateOf_transition_self]
      rw [same] at fits
      cases phase : flight.phase with
      | executing =>
          rw [phase] at fits
          exact ⟨Or.inr rfl, fits.2⟩
      | draining race =>
          rw [phase, FlightPhase.Fits, running] at fits
          cases fits
      | replanning =>
          rw [phase] at fits
          exact fits.elim
      | rejected =>
          rw [phase] at fits
          exact ⟨Or.inr rfl, fits.2⟩
    · rw [ParallelRun.stateOf_transition_ne run same]
      exact fits
  · exact sound

theorem isBlocking_of_finished {id : JsString} (finished : run.isFinished id = true) :
    ParallelRun.isBlocking (run.stateOf id).status = false := by
  rcases ParallelRun.isFinished_iff.mp finished with status | status
  · rw [status]
    rfl
  · rw [status]
    rfl

theorem Sound.blockUnreachable (sound : Sound config run) {task : Task}
    (planned : task ∈ run.plan.tasks) : Sound config (run.blockUnreachable task) := by
  rw [ParallelRun.blockUnreachable]
  split_ifs with unreachable
  · obtain ⟨pending, blocked⟩ := unreachable
    have unfinished : run.isFinished task.id = false := by
      rw [ParallelRun.isFinished, pending]
      rfl
    refine sound.advance_same (Advance.transition unfinished TaskStatus.noConfusion _) rfl
      fun flight member => ?_
    -- a task in flight has no dependency that blocks it
    have other : flight.task.id ≠ task.id := by
      intro same
      obtain ⟨dep, needed, blocks⟩ := List.any_eq_true.mp blocked
      rw [← ValidPlan.eq_of_id (sound.planned flight member) planned same] at needed
      rw [isBlocking_of_finished (sound.finished flight member dep needed)] at blocks
      cases blocks
    rw [ParallelRun.stateOf_transition_ne run other]
    exact sound.fits flight member
  · exact sound

@[simp]
theorem resetRunning_plan (run : ParallelRun) (task : Task) :
    (run.resetRunning task).plan = run.plan := by
  rw [ParallelRun.resetRunning]
  split_ifs <;> rfl

@[simp]
theorem blockUnreachable_plan (run : ParallelRun) (task : Task) :
    (run.blockUnreachable task).plan = run.plan := by
  rw [ParallelRun.blockUnreachable]
  split_ifs <;> rfl

/-- What both loops over the tasks keep, the head of a pass keeps. -/
theorem refresh_induction {P : ParallelRun → Prop} (initial : P run)
    (reset : ∀ run task, P run → P (run.resetRunning task))
    (block : ∀ run task, task ∈ run.plan.tasks → P run → P (run.blockUnreachable task)) :
    P run.refresh ∧ run.refresh.plan = run.plan := by
  have first : ∀ (tasks : List Task) (run : ParallelRun), P run →
      P (tasks.foldl ParallelRun.resetRunning run) ∧
        (tasks.foldl ParallelRun.resetRunning run).plan = run.plan := by
    intro tasks
    induction tasks with
    | nil => exact fun run holds => ⟨holds, rfl⟩
    | cons task tasks inductionHypothesis =>
        intro run holds
        obtain ⟨kept, plan⟩ := inductionHypothesis _ (reset run task holds)
        exact ⟨kept, plan.trans (resetRunning_plan run task)⟩
  have second : ∀ (tasks : List Task) (run : ParallelRun), (∀ task ∈ tasks, task ∈ run.plan.tasks) →
      P run → P (tasks.foldl ParallelRun.blockUnreachable run) ∧
        (tasks.foldl ParallelRun.blockUnreachable run).plan = run.plan := by
    intro tasks
    induction tasks with
    | nil => exact fun run _ holds => ⟨holds, rfl⟩
    | cons task tasks inductionHypothesis =>
        intro run planned holds
        rw [List.forall_mem_cons] at planned
        have plan := blockUnreachable_plan run task
        obtain ⟨kept, same⟩ := inductionHypothesis (run.blockUnreachable task)
          (by rw [plan]; exact planned.2) (block run task planned.1 holds)
        exact ⟨kept, same.trans plan⟩
  obtain ⟨kept, plan⟩ := first run.plan.tasks run initial
  obtain ⟨refreshed, same⟩ := second run.plan.tasks _ (by rw [plan]; exact fun _ member => member) kept
  exact ⟨refreshed, same.trans plan⟩

theorem Sound.refresh (sound : Sound config run) : Sound config run.refresh :=
  (refresh_induction sound (fun _ task holds => holds.resetRunning task)
    fun _ _ planned holds => holds.blockUnreachable planned).1

/-- A task that may be launched. -/
structure Launchable (run : ParallelRun) (task : Task) : Prop where
  planned : task ∈ run.plan.tasks
  pending : (run.stateOf task.id).status = .pending
  absent : ∀ flight ∈ run.inFlight, flight.task.id ≠ task.id
  ready : ∀ dep ∈ task.dependencies, run.isFinished dep = true

theorem Launchable.unfinished {task : Task} (launchable : Launchable run task) :
    run.isFinished task.id = false := by
  rw [ParallelRun.isFinished, launchable.pending]
  rfl

theorem launchable_of_ready {task : Task} (member : task ∈ run.readyTasks) :
    Launchable run task := by
  rw [ParallelRun.readyTasks, List.mem_filter, List.mem_filter] at member
  obtain ⟨⟨planned, pending⟩, ready⟩ := member
  rw [ParallelRun.isPending, Bool.and_eq_true, beq_iff_eq, List.all_eq_true] at pending
  refine ⟨planned, pending.1, fun flight inFlight => ?_, List.all_eq_true.mp ready⟩
  simpa using pending.2 flight inFlight

theorem Sound.launch (sound : Sound config run) {task : Task} (launchable : Launchable run task)
    (room : run.inFlight.length < config.maxParallel) (refused : Bool) (now : JsString) :
    Sound config (run.launch task refused now) := by
  have other : ∀ dep ∈ task.dependencies, dep ≠ task.id := by
    intro dep needed same
    have finished := launchable.ready dep needed
    rw [same, launchable.unfinished] at finished
    cases finished
  -- the run with the task marked running
  set next : TaskState := { pendingState task.id with
    status := .running
    attempt := ((run.tasks task.id).map TaskState.attempt).getD 0 + 1
    startedAt := some now
    failure := (run.tasks task.id).bind TaskState.failure } with running
  have started : Sound config (run.transition task.id next []) := by
    refine sound.advance_same (Advance.transition launchable.unfinished TaskStatus.noConfusion _)
      rfl fun flight member => ?_
    rw [ParallelRun.stateOf_transition_ne run (launchable.absent flight member)]
    exact sound.fits flight member
  have unchanged : ∀ dep ∈ task.dependencies,
      (run.transition task.id next []).stateOf dep = run.stateOf dep := fun dep needed =>
    ParallelRun.stateOf_transition_ne run (other dep needed) _ _
  constructor
  · show ((run.inFlight ++ [_]).map Flight.promise).Nodup
    rw [List.map_append, List.map_singleton, ← List.concat_eq_append, List.nodup_concat]
    refine ⟨fun member => ?_, sound.promises⟩
    obtain ⟨flight, inFlight, same⟩ := List.mem_map.mp member
    exact absurd (sound.numbered flight inFlight) (same ▸ lt_irrefl _)
  · show ∀ flight ∈ run.inFlight ++ [_], flight.promise < run.launched + 1
    rw [List.forall_mem_append, List.forall_mem_singleton]
    exact ⟨fun flight member => Nat.lt_succ_of_lt (sound.numbered flight member),
      Nat.lt_succ_self _⟩
  · show ((run.inFlight ++ [_]).map fun flight : Flight => flight.task.id).Nodup
    rw [List.map_append, List.map_singleton, ← List.concat_eq_append, List.nodup_concat]
    refine ⟨fun member => ?_, sound.alone⟩
    obtain ⟨flight, inFlight, same⟩ := List.mem_map.mp member
    exact launchable.absent flight inFlight same
  · show ∀ flight ∈ run.inFlight ++ [_], flight.task ∈ run.plan.tasks
    rw [List.forall_mem_append, List.forall_mem_singleton]
    exact ⟨sound.planned, launchable.planned⟩
  · show (run.inFlight ++ [_]).length ≤ config.maxParallel
    rw [List.length_append]
    exact room
  · show ∀ flight ∈ run.inFlight ++ [_], flight.phase.Fits flight.attempt
      ((run.transition task.id next []).stateOf flight.task.id)
    rw [List.forall_mem_append, List.forall_mem_singleton]
    refine ⟨started.fits, ?_⟩
    rw [ParallelRun.stateOf_transition_self]
    cases refused with
    | true => exact ⟨Or.inl rfl, rfl, rfl⟩
    | false => exact ⟨Or.inl rfl, rfl, rfl⟩
  · show ∀ flight ∈ run.inFlight ++ [_], ∀ dep ∈ flight.task.dependencies,
      (run.transition task.id next []).isFinished dep = true
    rw [List.forall_mem_append, List.forall_mem_singleton]
    refine ⟨started.finished, fun dep needed => ?_⟩
    rw [ParallelRun.isFinished, unchanged dep needed]
    exact launchable.ready dep needed
  · show ∀ flight ∈ run.inFlight ++ [_], ∀ dep ∈ flight.task.dependencies, ∀ revision,
      ((run.transition task.id next []).stateOf dep).status = .completed →
        ((run.transition task.id next []).stateOf dep).revision = some revision →
          revision ∈ flight.startPoint
    rw [List.forall_mem_append, List.forall_mem_singleton]
    refine ⟨started.prepared, fun dep needed revision => ?_⟩
    rw [unchanged dep needed]
    exact sound.recorded dep revision
  · show ∀ flight ∈ run.inFlight ++ [_], flight.startPoint <+: run.branch
    rw [List.forall_mem_append, List.forall_mem_singleton]
    exact ⟨sound.startPoint, List.prefix_rfl⟩
  · exact started.recorded
  · exact started.merged
  · exact started.once

/-- A launch leaves the other tasks as they are. -/
theorem Launchable.launch {task other : Task} (launchable : Launchable run task)
    (waits : Launchable run other) (different : other.id ≠ task.id) (refused : Bool)
    (now : JsString) : Launchable (run.launch task refused now) other where
  planned := waits.planned
  pending := by
    rw [show (run.launch task refused now).stateOf other.id = run.stateOf other.id from
      ParallelRun.stateOf_transition_ne run different _ []]
    exact waits.pending
  absent := by
    show ∀ flight ∈ run.inFlight ++ [_], flight.task.id ≠ other.id
    rw [List.forall_mem_append, List.forall_mem_singleton]
    exact ⟨waits.absent, different.symm⟩
  ready dep needed := by
    have apart : dep ≠ task.id := by
      intro same
      have finished := waits.ready dep needed
      rw [same, launchable.unfinished] at finished
      cases finished
    rw [ParallelRun.isFinished,
      show (run.launch task refused now).stateOf dep = run.stateOf dep from
        ParallelRun.stateOf_transition_ne run apart _ []]
    exact waits.ready dep needed

/-- What a launch keeps, the loop over the ready tasks keeps. -/
theorem launchReady_induction {P : ParallelRun → Prop} {refused : JsString → Bool} {now : JsString}
    (launch : ∀ run task, Launchable run task → run.inFlight.length < config.maxParallel → P run →
      P (run.launch task (refused task.id) now))
    {tasks : List Task} (distinct : (tasks.map Task.id).Nodup)
    (launchable : ∀ task ∈ tasks, Launchable run task) (initial : P run) :
    P (ParallelRun.launchReady config refused now tasks run) := by
  induction tasks generalizing run with
  | nil => exact initial
  | cons task rest inductionHypothesis =>
      rw [List.map_cons, List.nodup_cons] at distinct
      rw [List.forall_mem_cons] at launchable
      rw [ParallelRun.launchReady]
      split_ifs with full overlap
      · exact initial
      · exact inductionHypothesis distinct.2 launchable.2 initial
      · refine inductionHypothesis distinct.2 (fun other member => ?_)
          (launch run task launchable.1 (Nat.lt_of_not_le full) initial)
        refine launchable.1.launch (launchable.2 other member) (fun same => ?_) _ now
        exact distinct.1 (same ▸ List.mem_map_of_mem member)

theorem readyTasks_distinct (run : ParallelRun) : (run.readyTasks.map Task.id).Nodup :=
  ((List.filter_sublist.trans List.filter_sublist).map _).nodup run.plan.distinct

theorem Sound.endPass (sound : Sound config run) (deadlocked : Bool) :
    Sound config (run.endPass deadlocked) := by
  rw [ParallelRun.endPass]
  by_cases empty : run.inFlight = []
  · rw [if_pos empty]
    exact sound.advance_same (Advance.of_tasks rfl rfl le_rfl rfl rfl) rfl sound.fits
  · rw [if_neg empty]
    exact sound.advance_same (Advance.of_tasks rfl rfl le_rfl rfl rfl) rfl sound.fits

theorem Sound.pass (sound : Sound config run) (refused : JsString → Bool) (now : JsString) :
    Sound config (run.pass config refused now) := by
  have refreshed := sound.refresh
  rw [ParallelRun.pass]
  split_ifs
  · exact refreshed.endPass false
  · refine Sound.endPass (launchReady_induction ?_ (readyTasks_distinct _)
      (fun task member => launchable_of_ready member) refreshed) _
    exact fun run task launchable room holds => holds.launch launchable room _ now

/-! ## The end of a task -/

/-- The promises that are left when one settles are of other tasks. -/
theorem Sound.other_task (sound : Sound config run) {flight other : Flight}
    (member : flight ∈ run.inFlight) (otherMember : other ∈ run.inFlight)
    (different : other.promise ≠ flight.promise) : other.task.id ≠ flight.task.id := by
  intro same
  have equal := List.inj_on_of_nodup_map sound.alone otherMember member same
  exact different (by rw [equal])

/-- A task that settles: its state, its patch, and what becomes of its promise. -/
theorem Sound.conclude_task (sound : Sound config run) {flight : Flight}
    (member : flight ∈ run.inFlight) {next : TaskState} {left : List Flight}
    {phase : Flight → FlightPhase} (sublist : left.Sublist run.inFlight)
    (inFlight : after.inFlight = left.map fun flight => { flight with phase := phase flight })
    (others : ∀ other ∈ left, other.promise ≠ flight.promise →
      (phase other).Fits other.attempt (run.stateOf other.task.id))
    (own : flight ∈ left → (phase flight).Fits flight.attempt next)
    (states : ∀ id, after.stateOf id = if id = flight.task.id then next else run.stateOf id)
    (plan : after.plan = run.plan) (launched : after.launched = run.launched)
    (branch : run.branch <+: after.branch)
    (patch : merges after.events = merges run.events ∧ next.revision = none ∨ ∃ revision,
      merges after.events = merges run.events ++ [(flight.task.id, revision)] ∧
        next.status = .completed ∧ next.revision = some revision ∧ revision ∈ after.branch) :
    Sound config after := by
  have unfinished : run.isFinished flight.task.id = false := by
    rw [← Bool.not_eq_true, ParallelRun.isFinished_iff]
    exact (sound.fits flight member).unfinished
  have own_state : after.stateOf flight.task.id = next := by rw [states, if_pos rfl]
  refine sound.advance ⟨fun id finished => ?_, plan, launched.ge, branch, ?_, ?_⟩ sublist inFlight ?_
  · rw [states, if_neg]
    rintro rfl
    rw [unfinished] at finished
    cases finished
  · intro id revision goesOn
    rw [states]
    split_ifs with same
    · intro completed kept
      rcases patch with ⟨-, none⟩ | ⟨merged, -, -, recorded, inBranch⟩
      · rw [none] at kept
        cases kept
      · rw [recorded] at kept
        cases kept
        exact inBranch
    · intro completed
      rw [ParallelRun.isFinished, completed] at goesOn
      cases goesOn
  · rcases patch with ⟨same, -⟩ | ⟨revision, added, completed, recorded, -⟩
    · exact Or.inl same
    · exact Or.inr ⟨_, revision, unfinished, added, by rw [own_state]; exact completed,
        by rw [own_state]; exact recorded⟩
  · intro other inLeft
    by_cases same : other.promise = flight.promise
    · obtain rfl : other = flight :=
        List.inj_on_of_nodup_map sound.promises (sublist.subset inLeft) member same
      rw [own_state]
      exact own inLeft
    · rw [states, if_neg (sound.other_task member (sublist.subset inLeft) same)]
      exact others other inLeft same

theorem bind_revision (run : ParallelRun) (id : JsString) :
    (run.tasks id).bind TaskState.revision = (run.stateOf id).revision := by
  rw [ParallelRun.stateOf]
  cases run.tasks id <;> rfl

/-- What the end of a task does to its own state and to nothing else. -/
structure Concludes (run after : ParallelRun) (flight : Flight) (next : TaskState) : Prop where
  states : ∀ id, after.stateOf id = if id = flight.task.id then next else run.stateOf id
  plan : after.plan = run.plan
  launched : after.launched = run.launched
  branch : run.branch <+: after.branch
  patch : merges after.events = merges run.events ∧ next.revision = none ∨ ∃ revision,
    merges after.events = merges run.events ++ [(flight.task.id, revision)] ∧
      next.status = .completed ∧ next.revision = some revision ∧ revision ∈ after.branch

/-- The status of a task whose promise was fulfilled without a replan. -/
def Outlasts (config : DriveConfig) (flight : Flight) (next : TaskState) : Prop :=
  next.status = .completed ∨ next.status = .failed ∨ next.status = .blocked ∨
    (next.status = .pending ∧ next.attempt = flight.attempt ∧
      flight.attempt - 1 < config.maxTaskRetries)

/-- A transition of the task that settles. -/
theorem concludes_transition (flight : Flight) {next : TaskState} (summary : JsString)
    (unrevised : (ParallelRun.nextState (run.tasks flight.task.id) next).revision = none) :
    Concludes run (run.transition flight.task.id next summary) flight
      (ParallelRun.nextState (run.tasks flight.task.id) next) where
  states id := by
    split_ifs with same
    · rw [same, ParallelRun.stateOf_transition_self]
    · exact ParallelRun.stateOf_transition_ne run same next summary
  plan := rfl
  launched := rfl
  branch := List.prefix_rfl
  patch := Or.inl ⟨by
    rw [ParallelRun.transition, ParallelRun.append, merges_append, merges_transitionEvents,
      List.append_nil]
    rfl, unrevised⟩

/-- The settled task stays in the map only while it waits for the others. -/
inductive Leaves (config : DriveConfig) (run after : ParallelRun) (flight : Flight)
    (status : OutcomeStatus) (next : TaskState) : Prop where
  | closed (stays : status ≠ .needsReplan) (outlasts : Outlasts config flight next)
      (inFlight : after.inFlight = (run.close flight.promise true).inFlight)
      (driver : after.driver = run.driver.settle flight.promise true)
  | drains (replan : status = .needsReplan) (waits : next.status = .needsReplan)
      (inFlight : after.inFlight = (run.setPhase flight.promise (.draining run.race)).inFlight)
      (driver : after.driver = run.driver)

theorem drain_of_ne_nil {run : ParallelRun} (flight : Flight) (others : run.inFlight ≠ []) :
    run.drain flight = run.setPhase flight.promise (.draining run.race) :=
  if_neg others

theorem conclude_spec (flight : Flight) (member : flight ∈ run.inFlight)
    (outcome : ExecutionOutcome) (now : JsString) (goesOn : outcome.status ≠ .completed) :
    ∃ next, Concludes run (run.conclude config flight outcome now) flight next ∧
      Leaves config run (run.conclude config flight outcome now) flight outcome.status next := by
  rw [ParallelRun.conclude]
  cases status : outcome.status with
  | completed => exact absurd status goesOn
  | failed =>
      dsimp only
      split_ifs with retries
      · obtain ⟨states, plan, launched, branch, patch⟩ :=
          @concludes_transition run flight { pendingState flight.task.id with
            attempt := flight.attempt
            failure := some (outcome.failure.getD ⟨js "TASK_FAILED", outcome.summary⟩) } [] rfl
        exact ⟨_, ⟨states, plan, launched, branch, patch⟩,
          .closed OutcomeStatus.noConfusion (Or.inr (Or.inr (Or.inr ⟨rfl, rfl, retries⟩))) rfl rfl⟩
      · obtain ⟨states, plan, launched, branch, patch⟩ :=
          @concludes_transition run flight { pendingState flight.task.id with
            attempt := flight.attempt
            status := .failed
            failure := some (outcome.failure.getD ⟨js "TASK_FAILED", outcome.summary⟩) } [] rfl
        exact ⟨_, ⟨states, plan, launched, branch, patch⟩,
          .closed OutcomeStatus.noConfusion (Or.inr (Or.inl rfl)) rfl rfl⟩
  | blocked =>
      obtain ⟨states, plan, launched, branch, patch⟩ :=
        @concludes_transition run flight { pendingState flight.task.id with
          attempt := flight.attempt
          status := .blocked
          failure := some (outcome.failure.getD ⟨js "TASK_BLOCKED", outcome.summary⟩) } [] rfl
      exact ⟨_, ⟨states, plan, launched, branch, patch⟩,
        .closed OutcomeStatus.noConfusion (Or.inr (Or.inr (Or.inl rfl))) rfl rfl⟩
  | needsReplan =>
      obtain ⟨states, plan, launched, branch, patch⟩ :=
        @concludes_transition run flight { pendingState flight.task.id with
          attempt := flight.attempt
          status := .needsReplan } [] rfl
      have others : (run.transition flight.task.id { pendingState flight.task.id with
          attempt := flight.attempt
          status := .needsReplan } []).inFlight ≠ [] := List.ne_nil_of_mem member
      dsimp only
      rw [drain_of_ne_nil flight others]
      exact ⟨_, ⟨states, plan, launched, branch, patch⟩, .drains rfl rfl rfl rfl⟩

/-- A run that differs only in what the end of a task does not look at. -/
structure Resembles (base run : ParallelRun) : Prop where
  tasks : base.tasks = run.tasks
  plan : base.plan = run.plan
  launched : base.launched = run.launched
  branch : base.branch = run.branch
  merges : merges base.events = merges run.events
  inFlight : base.inFlight = run.inFlight
  driver : base.driver = run.driver

theorem Concludes.of_resembles {base : ParallelRun} {flight : Flight} {next : TaskState}
    (concludes : Concludes base after flight next) (same : Resembles base run) :
    Concludes run after flight next where
  states id := by
    rw [concludes.states, ParallelRun.stateOf, ParallelRun.stateOf, same.tasks]
  plan := concludes.plan.trans same.plan
  launched := concludes.launched.trans same.launched
  branch := same.branch ▸ concludes.branch
  patch := by
    rw [← same.merges]
    exact concludes.patch

theorem Leaves.of_resembles {base : ParallelRun} {flight : Flight} {status : OutcomeStatus}
    {next : TaskState} (leaves : Leaves config base after flight status next)
    (same : Resembles base run) : Leaves config run after flight status next := by
  cases leaves with
  | closed stays outlasts inFlight driver =>
      refine .closed stays outlasts ?_ (by rw [driver, same.driver])
      rw [inFlight, ParallelRun.close, ParallelRun.close, same.inFlight]
  | drains replan waits inFlight driver =>
      refine .drains replan waits ?_ (driver.trans same.driver)
      rw [inFlight, setPhase_inFlight, setPhase_inFlight, ParallelRun.race, ParallelRun.race,
        same.inFlight]

theorem conclude_completed (flight : Flight) {outcome : ExecutionOutcome}
    (completed : outcome.status = .completed) (now : JsString) :
    run.conclude config flight outcome now =
      (run.transition flight.task.id (run.completedState flight outcome now)
        outcome.summary).close flight.promise true := by
  rw [ParallelRun.conclude, completed]

/-- A revision survives the completion. -/
theorem completed_revision (flight : Flight) (outcome : ExecutionOutcome) (now : JsString) :
    (ParallelRun.nextState (run.tasks flight.task.id)
      (run.completedState flight outcome now)).revision = (run.stateOf flight.task.id).revision := by
  rw [← bind_revision]
  exact Option.or_none

/-- The patch of a task may have been merged before the task completes. -/
structure Merges (run base : ParallelRun) (flight : Flight) : Prop where
  others : ∀ id, id ≠ flight.task.id → base.stateOf id = run.stateOf id
  plan : base.plan = run.plan
  launched : base.launched = run.launched
  inFlight : base.inFlight = run.inFlight
  driver : base.driver = run.driver
  branch : run.branch <+: base.branch
  patch : merges base.events = merges run.events ∧
      (base.stateOf flight.task.id).revision = none ∨ ∃ revision,
    merges base.events = merges run.events ++ [(flight.task.id, revision)] ∧
      (base.stateOf flight.task.id).revision = some revision ∧ revision ∈ base.branch

theorem concludes_completed {base : ParallelRun} {flight : Flight} (merged : Merges run base flight)
    {outcome : ExecutionOutcome} (completed : outcome.status = .completed) (now : JsString) :
    ∃ next, Concludes run (base.conclude config flight outcome now) flight next ∧
      Leaves config run (base.conclude config flight outcome now) flight outcome.status next := by
  rw [conclude_completed flight completed]
  set next := ParallelRun.nextState (base.tasks flight.task.id)
    (base.completedState flight outcome now) with settled
  have revision : next.revision = (base.stateOf flight.task.id).revision :=
    completed_revision flight outcome now
  have events : merges ((base.transition flight.task.id (base.completedState flight outcome now)
      outcome.summary).close flight.promise true).events = merges base.events := by
    show merges (base.events ++ ParallelRun.transitionEvents flight.task.id next _) = _
    rw [merges_append, merges_transitionEvents, List.append_nil]
  refine ⟨next, ⟨fun id => ?_, merged.plan, merged.launched, merged.branch, ?_⟩,
    .closed (by rw [completed]; exact OutcomeStatus.noConfusion) (Or.inl rfl) ?_ ?_⟩
  · split_ifs with same
    · rw [same]
      exact ParallelRun.stateOf_transition_self base flight.task.id _ outcome.summary
    · exact (ParallelRun.stateOf_transition_ne base same _ outcome.summary).trans
        (merged.others id same)
  · rw [events, revision]
    rcases merged.patch with unchanged | ⟨sha, added, recorded, inBranch⟩
    · exact Or.inl unchanged
    · exact Or.inr ⟨sha, added, rfl, recorded, inBranch⟩
  · show (base.inFlight.filter _).map _ = (run.inFlight.filter _).map _
    rw [merged.inFlight]
  · show base.driver.settle _ _ = _
    rw [merged.driver]

theorem Leaves.mono {flight : Flight} {status other : OutcomeStatus} {next : TaskState}
    (leaves : Leaves config run after flight status next)
    (replan : status = .needsReplan ↔ other = .needsReplan) :
    Leaves config run after flight other next := by
  cases leaves with
  | closed stays outlasts inFlight driver =>
      exact .closed (fun same => stays (replan.mpr same)) outlasts inFlight driver
  | drains same waits inFlight driver => exact .drains (replan.mp same) waits inFlight driver

/-- Only the patch of a completed task is merged, and a patch that does not apply fails its
task. -/
theorem merge_spec (flight : Flight) (outcome : ExecutionOutcome) (patch : Option JsString)
    (applies : Bool) (unrevised : (run.stateOf flight.task.id).revision = none) :
    (outcome.status = .completed ∧ (run.merge flight outcome patch applies).2 = outcome ∧
      Merges run (run.merge flight outcome patch applies).1 flight) ∨
    ((run.merge flight outcome patch applies).2.status ≠ .completed ∧
      ((run.merge flight outcome patch applies).2.status = .needsReplan ↔
        outcome.status = .needsReplan) ∧
      Resembles (run.merge flight outcome patch applies).1 run) := by
  rw [ParallelRun.merge]
  by_cases completed : outcome.status = .completed
  · rw [if_pos completed]
    cases patch with
    | none =>
        exact Or.inl ⟨completed, rfl, fun _ _ => rfl, rfl, rfl, rfl, rfl, List.prefix_rfl,
          Or.inl ⟨rfl, unrevised⟩⟩
    | some sha =>
        cases applies with
        | true =>
            refine Or.inl ⟨completed, rfl, fun id different => ?_, rfl, rfl, rfl, rfl, ?_,
              Or.inr ⟨sha, ?_, ?_, ?_⟩⟩
            · exact ParallelRun.stateOf_setTask_ne _ different _
            · exact List.prefix_append _ _
            · exact merges_append _ _
            · exact congrArg TaskState.revision (ParallelRun.stateOf_setTask_self _ _ _)
            · exact List.mem_append_right _ List.mem_cons_self
        | false =>
            refine Or.inr ⟨OutcomeStatus.noConfusion, ?_, rfl, rfl, rfl, rfl, ?_, rfl, rfl⟩
            · rw [completed]
              exact ⟨OutcomeStatus.noConfusion, OutcomeStatus.noConfusion⟩
            · exact (merges_append _ _).trans (List.append_nil _)
  · rw [if_neg completed]
    exact Or.inr ⟨completed, Iff.rfl, rfl, rfl, rfl, rfl, rfl, rfl, rfl⟩

/-- What `runOne` does after a task was executed. -/
theorem settle_spec (sound : Sound config run) {flight : Flight} (member : flight ∈ run.inFlight)
    (executing : flight.phase = .executing) (outcome : ExecutionOutcome) (patch : Option JsString)
    (applies : Bool) (now : JsString) :
    ∃ next, Concludes run (run.settle config flight (.returned outcome patch applies) now) flight
        next ∧
      Leaves config run (run.settle config flight (.returned outcome patch applies) now) flight
        outcome.status next := by
  have unrevised : (run.stateOf flight.task.id).revision = none := by
    have fits := sound.fits flight member
    rw [executing] at fits
    exact fits.2.2
  rw [ParallelRun.settle]
  obtain ⟨completed, same, merged⟩ | ⟨goesOn, replan, resembles⟩ :=
    merge_spec flight outcome patch applies unrevised
  · rw [same]
    refine concludes_completed ?_ completed now
    exact ⟨merged.others, merged.plan, merged.launched, merged.inFlight, merged.driver,
      merged.branch, merged.patch⟩
  · have same : Resembles ((run.merge flight outcome patch applies).1.observeCancellation
        (run.merge flight outcome patch applies).2) run :=
      ⟨resembles.tasks, resembles.plan, resembles.launched, resembles.branch, resembles.merges,
        resembles.inFlight, resembles.driver⟩
    obtain ⟨next, concludes, leaves⟩ := @conclude_spec config _ flight
      (by rw [same.inFlight]; exact member) (run.merge flight outcome patch applies).2 now goesOn
    exact ⟨next, concludes.of_resembles same, (leaves.of_resembles same).mono replan⟩

/-! ## Every step -/

/-- What a step does, and when it can be made. -/
inductive Steps (config : DriveConfig) (run : ParallelRun) : DriveOp → ParallelRun → Prop where
  | pass {refused : JsString → Bool} {now : JsString}
      (driver : run.driver = .looping ∨ ∃ race, run.driver = .racing race ∧ race.won = some true) :
      Steps config run (.wake refused now) (run.pass config refused now)
  | fails {refused : JsString → Bool} {now : JsString} {race : Race}
      (driver : run.driver = .racing race) (won : race.won = some false) :
      Steps config run (.wake refused now) { run with driver := .settled false }
  | settle {flight : Flight} {settlement : Settlement} {now : JsString}
      (member : flight ∈ run.inFlight) (executing : flight.phase = .executing) :
      Steps config run (.settle flight.promise settlement now)
        (run.settle config flight settlement now)
  | drain {flight : Flight} {race : Race} (member : flight ∈ run.inFlight)
      (draining : flight.phase = .draining race) (won : race.won = some true) :
      Steps config run (.resume flight.promise) (run.drain flight)
  | abandon {flight : Flight} {race : Race} (member : flight ∈ run.inFlight)
      (draining : flight.phase = .draining race) (won : race.won = some false) :
      Steps config run (.resume flight.promise) (run.close flight.promise false)
  | replan {flight : Flight} {amended : Option ValidPlan} (member : flight ∈ run.inFlight)
      (replanning : flight.phase = .replanning) :
      Steps config run (.replan flight.promise amended) (run.replanned flight amended)
  | finish {returned : Bool} (driver : run.driver = .finishing) :
      Steps config run (.finish returned) { run with driver := .settled returned }
  | release {returned : Bool} (driver : run.driver = .settled returned) :
      Steps config run .release { run with driver := .released }

theorem flight?_spec {promise : Nat} {flight : Flight}
    (found : run.flight? promise = some flight) :
    flight ∈ run.inFlight ∧ promise = flight.promise := by
  have same := List.find?_some found
  exact ⟨List.mem_of_find?_eq_some found, by simpa using Eq.symm (by simpa using same)⟩

theorem steps_of_wake {refused : JsString → Bool} {now : JsString}
    (woken : run.wake config refused now = some after) :
    Steps config run (.wake refused now) after := by
  rw [ParallelRun.wake] at woken
  cases driver : run.driver with
  | looping =>
      rw [driver] at woken
      cases woken
      exact .pass (Or.inl driver)
  | racing race =>
      rw [driver] at woken
      obtain ⟨fulfilled, won, rfl⟩ := Option.map_eq_some_iff.mp woken
      cases fulfilled with
      | true => exact .pass (Or.inr ⟨race, driver, won⟩)
      | false => exact .fails driver won
  | finishing =>
      rw [driver] at woken
      cases woken
  | settled returned =>
      rw [driver] at woken
      cases woken
  | released =>
      rw [driver] at woken
      cases woken

theorem steps_of_resume {flight : Flight} (member : flight ∈ run.inFlight)
    (resumed : run.resume flight = some after) :
    Steps config run (.resume flight.promise) after := by
  rw [ParallelRun.resume] at resumed
  cases phase : flight.phase with
  | draining race =>
      rw [phase] at resumed
      obtain ⟨fulfilled, won, rfl⟩ := Option.map_eq_some_iff.mp resumed
      cases fulfilled with
      | true => exact .drain member phase won
      | false => exact .abandon member phase won
  | executing =>
      rw [phase] at resumed
      cases resumed
  | replanning =>
      rw [phase] at resumed
      cases resumed
  | rejected =>
      rw [phase] at resumed
      cases resumed

theorem steps_of_step {op : DriveOp} (stepped : run.step config op = some after) :
    Steps config run op after := by
  cases op with
  | wake refused now => exact steps_of_wake stepped
  | settle promise settlement now =>
      obtain ⟨flight, found, settled⟩ := Option.bind_eq_some_iff.mp stepped
      obtain ⟨member, rfl⟩ := flight?_spec found
      split_ifs at settled with executing
      cases settled
      exact .settle member executing
  | resume promise =>
      obtain ⟨flight, found, resumed⟩ := Option.bind_eq_some_iff.mp stepped
      obtain ⟨member, rfl⟩ := flight?_spec found
      exact steps_of_resume member resumed
  | replan promise amended =>
      obtain ⟨flight, found, replanned⟩ := Option.bind_eq_some_iff.mp stepped
      obtain ⟨member, rfl⟩ := flight?_spec found
      split_ifs at replanned with replanning
      cases replanned
      exact .replan member replanning
  | finish returned =>
      rw [ParallelRun.step] at stepped
      split_ifs at stepped with driver
      cases stepped
      exact .finish driver
  | release =>
      rw [ParallelRun.step] at stepped
      cases driver : run.driver with
      | settled returned =>
          rw [driver] at stepped
          cases stepped
          exact .release driver
      | looping =>
          rw [driver] at stepped
          cases stepped
      | racing race =>
          rw [driver] at stepped
          cases stepped
      | finishing =>
          rw [driver] at stepped
          cases stepped
      | released =>
          rw [driver] at stepped
          cases stepped

/-- What steps keep, a run keeps. -/
theorem act_induction {P : ParallelRun → Prop} {op : DriveOp}
    (steps : ∀ after, Steps config run op after → P after) (holds : P run) :
    P (run.act config op) := by
  rw [ParallelRun.act]
  cases stepped : run.step config op with
  | none => exact holds
  | some after => exact steps after (steps_of_step stepped)

theorem Sound.settle (sound : Sound config run) {flight : Flight} (member : flight ∈ run.inFlight)
    (executing : flight.phase = .executing) (settlement : Settlement) (now : JsString) :
    Sound config (run.settle config flight settlement now) := by
  cases settlement with
  | threw => exact sound.close flight.promise false
  | returned outcome patch applies =>
      obtain ⟨next, concludes, leaves⟩ := settle_spec sound member executing outcome patch applies now
      cases leaves with
      | closed stays outlasts inFlight driver =>
          refine sound.conclude_task member List.filter_sublist inFlight (fun other inLeft _ => ?_)
            (fun inLeft => ?_) concludes.states concludes.plan concludes.launched concludes.branch
            concludes.patch
          · exact (sound.fits other (List.mem_of_mem_filter inLeft)).settle _ _
          · have apart := (List.mem_filter.mp inLeft).2
            simp at apart
      | drains replan waits inFlight driver =>
          rw [setPhase_inFlight] at inFlight
          refine sound.conclude_task member (List.Sublist.refl _) inFlight
            (fun other inLeft different => ?_) (fun _ => ?_) concludes.states concludes.plan
            concludes.launched concludes.branch concludes.patch
          · rw [if_neg different]
            exact sound.fits other inLeft
          · rw [if_pos rfl]
            exact waits

theorem Sound.drain (sound : Sound config run) {flight : Flight} (member : flight ∈ run.inFlight)
    {race : Race} (draining : flight.phase = .draining race) : Sound config (run.drain flight) := by
  rw [drain_of_ne_nil flight (List.ne_nil_of_mem member)]
  refine sound.setPhase fun other inFlight same => ?_
  have fits := sound.fits flight member
  rw [draining] at fits
  rw [List.inj_on_of_nodup_map sound.promises inFlight member same]
  exact fits

theorem Sound.setDriver (sound : Sound config run) (driver : DriverPhase) :
    Sound config { run with driver := driver } :=
  sound.advance_same (Advance.of_tasks rfl rfl le_rfl rfl rfl) rfl sound.fits

/-- No task gets to an amendment: it would have to wait until it is not in flight itself. -/
theorem Sound.not_replanning (sound : Sound config run) {flight : Flight}
    (member : flight ∈ run.inFlight) : flight.phase ≠ .replanning := by
  intro replanning
  have fits := sound.fits flight member
  rw [replanning] at fits
  exact fits

/-- Every step keeps the parts of the state together. -/
theorem Sound.step (sound : Sound config run) {op : DriveOp} (steps : Steps config run op after) :
    Sound config after := by
  cases steps with
  | pass driver => exact sound.pass _ _
  | fails driver won => exact sound.setDriver _
  | settle member executing => exact sound.settle member executing _ _
  | drain member draining won => exact sound.drain member draining
  | abandon member draining won => exact sound.close _ false
  | replan member replanning => exact (sound.not_replanning member replanning).elim
  | finish driver => exact sound.setDriver _
  | release driver => exact sound.setDriver _

theorem Sound.act (sound : Sound config run) (op : DriveOp) : Sound config (run.act config op) :=
  act_induction (fun _ steps => sound.step steps) sound

end Steps

end SpecAsCode.Runtime.Parallel
