import SpecAsCode.Executor.Patch
import SpecAsCode.Lib.History
import SpecAsCode.Planner.ExecutablePlans
import SpecAsCode.Runtime.ParallelIsolation
import SpecAsCode.Runtime.SchedulerRuns

/-!
# Schedules that agree

The tasks of a plan are executed one after another or in parallel.  Both drivers finish a task
only after all that it depends on, so the same work leads to the same tree.
-/

namespace SpecAsCode.Runtime

open SpecAsCode.Js
open SpecAsCode.Core
open SpecAsCode.Commuting
open SpecAsCode.Executor
open SpecAsCode.Schema
open SpecAsCode.Text (Octet)
open SpecAsCode.Runtime.Parallel

/-! ## The parallel driver -/

namespace Parallel

variable {config : DriveConfig} {run after : ParallelRun} {plan : ValidPlan}

/-- The edges of the plan's tasks. -/
def Needs (plan : ValidPlan) : JsString → JsString → Prop :=
  Edge (dependencyEdges plan.tasks)

theorem needs_of_dependencies {task : Task} (planned : task ∈ plan.tasks)
    {P : JsString → Prop} (ready : ∀ dep ∈ task.dependencies, P dep) (other : JsString)
    (edge : Needs plan task.id other) : P other := by
  obtain ⟨found, among, same, depends⟩ := (Planner.mem_dependencyEdges plan.distinct).mp edge
  rw [plan.eq_of_id among planned same] at depends
  exact ready other depends

/-- The tasks whose patches were merged, in the order of the merges. -/
def mergedTasks (events : List DriveEvent) : List JsString :=
  (merges events).map Prod.fst

/-- The patches were merged in the order of the dependencies. -/
structure MergesInOrder (plan : ValidPlan) (run : ParallelRun) : Prop where
  same : run.plan = plan
  finished : Finished (Needs plan) run.isFinished (mergedTasks run.events)
  planned : ∀ id ∈ mergedTasks run.events, id ∈ ids plan.tasks

/-- The step leaves the plan, the finished tasks and the merged patches alone. -/
structure Idle (run after : ParallelRun) : Prop where
  plan : after.plan = run.plan
  finished : ∀ id, after.isFinished id = run.isFinished id
  merged : mergedTasks after.events = mergedTasks run.events

theorem Idle.refl (run : ParallelRun) : Idle run run :=
  ⟨rfl, fun _ => rfl, rfl⟩

theorem Idle.trans {between : ParallelRun} (first : Idle run between)
    (second : Idle between after) : Idle run after :=
  ⟨second.plan.trans first.plan, fun id => (second.finished id).trans (first.finished id),
    second.merged.trans first.merged⟩

theorem MergesInOrder.idle (inOrder : MergesInOrder plan run) (idle : Idle run after) :
    MergesInOrder plan after where
  same := idle.plan.trans inOrder.same
  finished := by
    rw [idle.merged]
    exact inOrder.finished.congr idle.finished
  planned := by
    rw [idle.merged]
    exact inOrder.planned

/-- A transition between statuses of a task that has not finished. -/
theorem idle_transition {id : JsString} {next : TaskState} (summary : JsString)
    (unfinished : run.isFinished id = false) (open_ : next.status ≠ .completed)
    (unskipped : next.status ≠ .skipped) : Idle run (run.transition id next summary) := by
  refine ⟨rfl, fun other => ?_, ?_⟩
  · by_cases same : other = id
    · subst same
      rw [unfinished, ParallelRun.isFinished, ParallelRun.stateOf_transition_self]
      have completed : (next.status == .completed) = false := beq_false_of_ne open_
      have skipped : (next.status == .skipped) = false := beq_false_of_ne unskipped
      exact Bool.or_eq_false_iff.mpr ⟨completed, skipped⟩
    · rw [ParallelRun.isFinished, ParallelRun.stateOf_transition_ne run same]
      rfl
  · rw [mergedTasks, mergedTasks, ParallelRun.transition, ParallelRun.append, merges_append,
      merges_transitionEvents, List.append_nil]
    rfl

theorem unfinished_of_status {id : JsString} {status : TaskStatus}
    (known : (run.stateOf id).status = status) (open_ : status ≠ .completed)
    (unskipped : status ≠ .skipped) : run.isFinished id = false := by
  rw [ParallelRun.isFinished, known, beq_false_of_ne open_, beq_false_of_ne unskipped]
  rfl

theorem idle_refresh (run : ParallelRun) : Idle run run.refresh := by
  refine (refresh_induction (P := Idle run) (Idle.refl run) ?_ ?_).1
  · intro middle task idle
    apply idle.trans
    rw [ParallelRun.resetRunning]
    split_ifs with running
    · have unfinished := unfinished_of_status running (by decide) (by decide)
      exact idle_transition [] unfinished TaskStatus.noConfusion TaskStatus.noConfusion
    · exact Idle.refl middle
  · intro middle task _ idle
    apply idle.trans
    rw [ParallelRun.blockUnreachable]
    split_ifs with unreachable
    · have unfinished := unfinished_of_status unreachable.1 (by decide) (by decide)
      exact idle_transition [] unfinished TaskStatus.noConfusion TaskStatus.noConfusion
    · exact Idle.refl middle

theorem idle_launch {task : Task} (launchable : Launchable run task) (refused : Bool)
    (now : JsString) : Idle run (run.launch task refused now) := by
  have started : Idle run (run.transition task.id
      { pendingState task.id with
        status := .running
        attempt := ((run.tasks task.id).map TaskState.attempt).getD 0 + 1
        startedAt := some now
        failure := (run.tasks task.id).bind TaskState.failure } []) :=
    idle_transition [] launchable.unfinished TaskStatus.noConfusion TaskStatus.noConfusion
  exact ⟨started.plan, started.finished, started.merged⟩

theorem idle_endPass (run : ParallelRun) (deadlocked : Bool) :
    Idle run (run.endPass deadlocked) := by
  rw [ParallelRun.endPass]
  by_cases empty : run.inFlight = []
  · rw [if_pos empty]
    exact ⟨rfl, fun _ => rfl, rfl⟩
  · rw [if_neg empty]
    exact ⟨rfl, fun _ => rfl, rfl⟩

theorem idle_pass (run : ParallelRun) (refused : JsString → Bool) (now : JsString) :
    Idle run (run.pass config refused now) := by
  have head := idle_refresh run
  rw [ParallelRun.pass]
  split_ifs
  · exact head.trans (idle_endPass _ _)
  · refine head.trans (Idle.trans ?_ (idle_endPass _ _))
    refine launchReady_induction (P := Idle run.refresh) ?_ (readyTasks_distinct _)
      (fun task member => launchable_of_ready member) (Idle.refl _)
    intro middle task launchable _ idle
    exact idle.trans (idle_launch launchable _ now)

/-- A task that settles may finish, after all that it needs. -/
theorem MergesInOrder.settle (inOrder : MergesInOrder plan run) (sound : Sound config run)
    {flight : Flight} (member : flight ∈ run.inFlight) (executing : flight.phase = .executing)
    (outcome : ExecutionOutcome) (patch : Option JsString) (applies : Bool) (now : JsString) :
    MergesInOrder plan (run.settle config flight (.returned outcome patch applies) now) := by
  obtain ⟨next, concludes, -⟩ := settle_spec sound member executing outcome patch applies now
  have planned : flight.task ∈ plan.tasks := by
    have known := sound.planned flight member
    rwa [inOrder.same] at known
  have waits : run.isFinished flight.task.id = false := by
    have open_ := (sound.fits flight member).unfinished
    rw [← ParallelRun.isFinished_iff, Bool.not_eq_true] at open_
    exact open_
  have ready : ∀ other, Needs plan flight.task.id other → run.isFinished other = true :=
    needs_of_dependencies planned (sound.finished flight member)
  have others : ∀ other, other ≠ flight.task.id →
      (run.settle config flight (.returned outcome patch applies) now).isFinished other =
        run.isFinished other := by
    intro other different
    rw [ParallelRun.isFinished, concludes.states, if_neg different]
    rfl
  have added : mergedTasks (run.settle config flight (.returned outcome patch applies) now).events =
        mergedTasks run.events ∨
      mergedTasks (run.settle config flight (.returned outcome patch applies) now).events =
          mergedTasks run.events ++ [flight.task.id] ∧
        (run.settle config flight (.returned outcome patch applies) now).isFinished flight.task.id =
          true := by
    rcases concludes.patch with ⟨unchanged, -⟩ | ⟨revision, more, completed, -⟩
    · exact Or.inl (congrArg (List.map Prod.fst) unchanged)
    · refine Or.inr ⟨?_, ?_⟩
      · rw [mergedTasks, more, List.map_append]
        rfl
      · rw [ParallelRun.isFinished, concludes.states, if_pos rfl, completed]
        rfl
  refine ⟨concludes.plan.trans inOrder.same, inOrder.finished.step waits ready others added, ?_⟩
  intro id merged
  rcases added with unchanged | ⟨more, -⟩
  · rw [unchanged] at merged
    exact inOrder.planned id merged
  · rw [more, List.mem_append, List.mem_singleton] at merged
    rcases merged with old | rfl
    · exact inOrder.planned id old
    · exact List.mem_map_of_mem planned

theorem MergesInOrder.step (inOrder : MergesInOrder plan run) (sound : Sound config run)
    {op : DriveOp} (steps : Steps config run op after) : MergesInOrder plan after := by
  cases steps with
  | pass driver => exact inOrder.idle (idle_pass run _ _)
  | fails driver won => exact inOrder.idle ⟨rfl, fun _ => rfl, rfl⟩
  | @settle flight settlement now member executing =>
      cases settlement with
      | threw => exact inOrder.idle ⟨rfl, fun _ => rfl, rfl⟩
      | returned outcome patch applies =>
          exact inOrder.settle sound member executing outcome patch applies now
  | drain member draining won =>
      rw [drain_of_ne_nil _ (List.ne_nil_of_mem member)]
      exact inOrder.idle ⟨rfl, fun _ => rfl, rfl⟩
  | abandon member draining won => exact inOrder.idle ⟨rfl, fun _ => rfl, rfl⟩
  | replan member replanning => exact (sound.not_replanning member replanning).elim
  | finish driver => exact inOrder.idle ⟨rfl, fun _ => rfl, rfl⟩
  | release driver => exact inOrder.idle ⟨rfl, fun _ => rfl, rfl⟩

theorem mergesInOrder_fresh (plan : ValidPlan) :
    MergesInOrder plan (DriveStart.fresh plan).run where
  same := rfl
  finished := .nil fun _ => rfl
  planned id member := by cases member

/-- Whatever the order of the steps, patches are merged in the order of the dependencies. -/
theorem mergesInOrder_run (config : DriveConfig) (plan : ValidPlan) (ops : List DriveOp) :
    MergesInOrder plan (History.run (ParallelRun.act config) ops (DriveStart.fresh plan).run) := by
  have keeps : ∀ (run : ParallelRun) (op : DriveOp), True →
      Sound config run ∧ MergesInOrder plan run →
        Sound config (run.act config op) ∧ MergesInOrder plan (run.act config op) := by
    intro run op _ held
    refine act_induction (P := fun after => Sound config after ∧ MergesInOrder plan after)
      (fun after steps => ?_) held
    exact ⟨held.1.step steps, held.2.step held.1 steps⟩
  have every : History.EveryStep (ParallelRun.act config) (fun _ _ => True) ops
      (DriveStart.fresh plan).run :=
    History.everyStep_of_forall (P := fun _ => True) (fun _ _ => trivial) _
  exact (every.invariant
    ⟨ParallelRun.sound_start config (DriveStart.fresh plan), mergesInOrder_fresh plan⟩ keeps).2

end Parallel

/-! ## The sequential scheduler -/

namespace Sequential

variable {config : SchedulerConfig} {run after : SchedulerRun} {plan : ValidPlan}

/-- The tasks that completed, in the order of their last transitions. -/
def completions (log : List SchedulerEvent) : List JsString :=
  log.filterMap fun event =>
    match event with
    | .transition taskId .completed _ => some taskId
    | _ => none

theorem completions_append (log more : List SchedulerEvent) :
    completions (log ++ more) = completions log ++ completions more :=
  List.filterMap_append

theorem of_mem_completions {log : List SchedulerEvent} {id : JsString}
    (member : id ∈ completions log) : ∃ attempt, .transition id .completed attempt ∈ log := by
  obtain ⟨event, logged, named⟩ := List.mem_filterMap.mp member
  cases event with
  | transition taskId status attempt =>
      cases status with
      | completed =>
          cases named
          exact ⟨attempt, logged⟩
      | pending => cases named
      | ready => cases named
      | running => cases named
      | failed => cases named
      | blocked => cases named
      | needsReplan => cases named
      | skipped => cases named
      | cancelled => cases named
  | executed taskId attempt status => cases named
  | amended => cases named

theorem completions_transition {status : TaskStatus} (open_ : status ≠ .completed) (id : JsString)
    (attempt : Nat) : completions [.transition id status attempt] = [] := by
  cases status with
  | completed => exact absurd rfl open_
  | pending => rfl
  | ready => rfl
  | running => rfl
  | failed => rfl
  | blocked => rfl
  | needsReplan => rfl
  | skipped => rfl
  | cancelled => rfl

/-- The status of the task is final and lets its dependents go on. -/
def hasFinished (run : SchedulerRun) (id : JsString) : Bool :=
  (run.stateOf id).status == .completed || (run.stateOf id).status == .skipped

theorem hasFinished_congr {id : JsString}
    (same : (after.stateOf id).status = (run.stateOf id).status) :
    hasFinished after id = hasFinished run id := by
  rw [hasFinished, same, hasFinished]

theorem hasFinished_of_status {id : JsString} {status : TaskStatus}
    (known : (run.stateOf id).status = status) (open_ : status ≠ .completed)
    (unskipped : status ≠ .skipped) : hasFinished run id = false := by
  rw [hasFinished, known, beq_false_of_ne open_, beq_false_of_ne unskipped]
  rfl

/-- The tasks completed in the order of their dependencies, and no others did. -/
structure CompletesInOrder (plan : ValidPlan) (run : SchedulerRun) : Prop where
  tasks : run.tasks = plan.tasks
  finished : Finished (Needs plan) (hasFinished run) (completions run.log)
  listed : run.conclusion ≠ some .threw →
    ∀ id, (run.stateOf id).status = .completed → id ∈ completions run.log
  planned : ∀ id ∈ completions run.log, id ∈ ids plan.tasks

theorem CompletesInOrder.stop (inOrder : CompletesInOrder plan run)
    (goesOn : run.conclusion ≠ some .threw) (conclusion : Conclusion) :
    CompletesInOrder plan (run.stop conclusion) where
  tasks := inOrder.tasks
  finished := inOrder.finished.congr fun _ => rfl
  listed _ := inOrder.listed goesOn
  planned := inOrder.planned

/-- A transition of a task that is open, and stays so. -/
theorem CompletesInOrder.transition (inOrder : CompletesInOrder plan run) {id : JsString}
    (waits : hasFinished run id = false) {next : TaskState} (open_ : next.status ≠ .completed)
    (unskipped : next.status ≠ .skipped) : CompletesInOrder plan (run.transition id next) := by
  have unchanged : completions (run.transition id next).log = completions run.log := by
    have appended : (run.transition id next).log =
        run.log ++ [.transition id next.status next.attempt] := rfl
    rw [appended, completions_append, completions_transition open_, List.append_nil]
  have same : ∀ other, hasFinished (run.transition id next) other = hasFinished run other := by
    intro other
    by_cases here : other = id
    · subst here
      rw [waits]
      apply hasFinished_of_status _ open_ unskipped
      rw [SchedulerRun.transition_status, if_pos rfl]
    · apply hasFinished_congr
      rw [SchedulerRun.transition_status, if_neg here]
  refine ⟨inOrder.tasks, ?_, ?_, ?_⟩
  · rw [unchanged]
    exact inOrder.finished.congr same
  · intro goesOn other completed
    rw [unchanged]
    apply inOrder.listed goesOn
    rw [SchedulerRun.transition_status] at completed
    split_ifs at completed with here
    · exact absurd completed open_
    · exact completed
  · rw [unchanged]
    exact inOrder.planned

theorem CompletesInOrder.refresh (inOrder : CompletesInOrder plan run) :
    CompletesInOrder plan run.refresh := by
  refine SchedulerRun.refresh_induction inOrder fun middle id status opened new held => ?_
  have waits : hasFinished middle id = false := by
    rw [SchedulerRun.isOpen, Bool.or_eq_true, beq_iff_eq, beq_iff_eq] at opened
    rcases opened with pending | running
    · exact hasFinished_of_status pending TaskStatus.noConfusion TaskStatus.noConfusion
    · exact hasFinished_of_status running TaskStatus.noConfusion TaskStatus.noConfusion
  rcases new with rfl | rfl
  · exact held.transition waits TaskStatus.noConfusion TaskStatus.noConfusion
  · exact held.transition waits TaskStatus.noConfusion TaskStatus.noConfusion

/-- What the log of a round says of completions. -/
theorem completions_moves {base : SchedulerRun} {task : Task} {result : OutcomeStatus}
    {status : TaskStatus} (moves : SchedulerRun.Moves config base after task result status) :
    completions after.log =
      completions base.log ++ if status = .completed then [task.id] else [] := by
  have executed :
      completions [.executed task.id ((base.stateOf task.id).attempt + 1) (some result)] = [] := rfl
  have started : completions
      [.transition task.id .running ((base.stateOf task.id).attempt + 1)] = [] := rfl
  rw [moves.log, completions_append, completions_append, completions_append, executed, started,
    List.append_nil, List.append_nil]
  split_ifs with completed
  · rw [completed]
    rfl
  · rw [completions_transition completed]

theorem CompletesInOrder.moves {base : SchedulerRun} (inOrder : CompletesInOrder plan base)
    {task : Task} {result : OutcomeStatus} {status : TaskStatus}
    (moves : SchedulerRun.Moves config base after task result status) (planned : task ∈ plan.tasks)
    (pending : (base.stateOf task.id).status = .pending)
    (ready : ∀ dep ∈ task.dependencies, hasFinished base dep = true) :
    CompletesInOrder plan after := by
  have waits := hasFinished_of_status pending TaskStatus.noConfusion TaskStatus.noConfusion
  have needed := needs_of_dependencies planned ready
  have others : ∀ other, other ≠ task.id → hasFinished after other = hasFinished base other := by
    intro other different
    apply hasFinished_congr
    rw [moves.others other different]
  have log := completions_moves moves
  by_cases completed : status = .completed
  · rw [if_pos completed] at log
    have done : hasFinished after task.id = true := by
      rw [hasFinished, moves.status, completed]
      rfl
    refine ⟨moves.tasks.trans inOrder.tasks,
      inOrder.finished.step waits needed others (Or.inr ⟨log, done⟩), ?_, ?_⟩
    · intro goesOn id known
      rw [log, List.mem_append, List.mem_singleton]
      by_cases here : id = task.id
      · exact Or.inr here
      · rw [moves.others id here] at known
        exact Or.inl (inOrder.listed (moves.conclusion ▸ goesOn) id known)
    · intro id member
      rw [log, List.mem_append, List.mem_singleton] at member
      rcases member with old | rfl
      · exact inOrder.planned id old
      · exact List.mem_map_of_mem planned
  · rw [if_neg completed, List.append_nil] at log
    refine ⟨moves.tasks.trans inOrder.tasks,
      inOrder.finished.step waits needed others (Or.inl log), ?_, ?_⟩
    · intro goesOn id known
      rw [log]
      by_cases here : id = task.id
      · subst here
        exact absurd (moves.status.symm.trans known) completed
      · rw [moves.others id here] at known
        exact inOrder.listed (moves.conclusion ▸ goesOn) id known
    · rw [log]
      exact inOrder.planned

/-- The replanner gives up or throws. -/
def Answer.Unamended (answer : Answer) : Prop :=
  ∀ amendment, answer.replanned ≠ .amended amendment

/-- The end of a round in which a task is executed. -/
theorem CompletesInOrder.executes {base : SchedulerRun} (inOrder : CompletesInOrder plan base)
    (goesOn : base.conclusion ≠ some .threw) {task : Task} {answer : Answer}
    (executes : SchedulerRun.Executes config base task answer after)
    (unamended : answer.Unamended) (planned : task ∈ plan.tasks)
    (pending : (base.stateOf task.id).status = .pending)
    (ready : ∀ dep ∈ task.dependencies, hasFinished base dep = true) :
    CompletesInOrder plan after := by
  cases executes with
  | @threw thrown executing =>
      obtain ⟨tasks, -, -, log, -, others⟩ := executing
      have unchanged : completions thrown.log = completions base.log := by
        rw [log, completions_append, completions_append]
        exact (List.append_nil _).trans (List.append_nil _)
      have waits := hasFinished_of_status pending TaskStatus.noConfusion TaskStatus.noConfusion
      have apart : ∀ other, other ≠ task.id →
          hasFinished thrown other = hasFinished base other := by
        intro other different
        apply hasFinished_congr
        rw [others other different]
      have needed := needs_of_dependencies planned ready
      have finished := inOrder.finished.step waits needed apart (Or.inl unchanged)
      refine ⟨tasks.trans inOrder.tasks, finished.congr fun _ => rfl, ?_, ?_⟩
      · intro threw
        exact absurd rfl threw
      · intro id member
        exact inOrder.planned id (unchanged ▸ member)
  | moves moves closes failed blocked => exact inOrder.moves moves planned pending ready
  | @replans parked outcome revision returned asks moves =>
      have waiting := inOrder.moves moves planned pending ready
      have quiet : parked.conclusion ≠ some .threw := moves.conclusion ▸ goesOn
      unfold SchedulerRun.replan
      split_ifs with spent
      · exact waiting.stop quiet _
      · cases replanned : answer.replanned with
        | threw => exact waiting.stop quiet _
        | failed => exact waiting.stop quiet _
        | amended amendment => exact absurd replanned (unamended amendment)

theorem CompletesInOrder.act (inOrder : CompletesInOrder plan run) {answer : Answer}
    (unamended : answer.Unamended) : CompletesInOrder plan (run.act config answer) := by
  rw [SchedulerRun.act]
  by_cases concluded : run.conclusion.isSome = true
  · rw [if_pos concluded]
    exact inOrder
  rw [if_neg concluded]
  have head := inOrder.refresh
  have goesOn : run.refresh.conclusion ≠ some .threw := by
    rw [(SchedulerRun.refreshed run).conclusion, Option.not_isSome_iff_eq_none.mp concluded]
    exact (Option.some_ne_none _).symm
  rcases SchedulerRun.pass_cases config answer run with
    ⟨outcome, stopped⟩ | ⟨task, decided, executes⟩
  · rw [stopped]
    exact head.stop goesOn _
  · have decision := SchedulerRun.decide_execute decided
    have planned : task ∈ plan.tasks := head.tasks ▸ decision.1
    apply head.executes goesOn executes unamended planned decision.2.1
    intro dep depends
    rw [hasFinished, Bool.or_eq_true, beq_iff_eq, beq_iff_eq]
    exact decision.2.2 dep depends

theorem completesInOrder_start (plan : ValidPlan) (replans : Nat) :
    CompletesInOrder plan (schedulerStart plan.tasks (fun _ => none) replans) where
  tasks := rfl
  finished := .nil fun _ => rfl
  listed _ id completed := by cases completed
  planned id member := by cases member

/-- After every number of rounds the tasks have completed in the order of their dependencies. -/
theorem completesInOrder_after (config : SchedulerConfig) (plan : ValidPlan) (replans : Nat)
    {answers : Nat → Answer} (unamended : ∀ round, (answers round).Unamended) (rounds : Nat) :
    CompletesInOrder plan (SchedulerRun.after config answers
      (schedulerStart plan.tasks (fun _ => none) replans) rounds) := by
  induction rounds with
  | zero => exact completesInOrder_start plan replans
  | succ rounds inductionHypothesis => exact inductionHypothesis.act (unamended rounds)

end Sequential

/-! ## The work of the tasks -/

/-- What a task changes: at some paths a file is written, or removed. -/
abbrev Changes := JsString → Option (Option (List Octet))

def applyChanges (tree : Tree) (changes : Changes) : Tree :=
  fun path => (changes path).getD (tree path)

/-- Changes of different paths may be applied in either order. -/
theorem commute_applyChanges {first second : Changes}
    (apart : ∀ path, first path = none ∨ second path = none) :
    Commute applyChanges first second := by
  intro tree
  funext path
  rw [applyChanges, applyChanges, applyChanges, applyChanges]
  rcases apart path with untouched | untouched
  · rw [untouched, Option.getD_none, Option.getD_none]
  · rw [untouched, Option.getD_none, Option.getD_none]

/-- The changes of each task of a plan, below the write targets of the task. -/
structure TaskWork (plan : ValidPlan) where
  changes : JsString → Changes
  inside : ∀ task ∈ plan.tasks, ∀ path, changes task.id path ≠ none →
    isSafeRelativePath path = true ∧ Writable task path

/-- The plan's tasks that may run together have no path in common to write to. -/
def Independent (plan : ValidPlan) : Prop :=
  ∀ first second, Unordered plan.plan first second → AllDetected first.writes second.writes

theorem TaskWork.commute {plan : ValidPlan} (work : TaskWork plan) (independent : Independent plan)
    {one other : JsString} (named : one ∈ ids plan.tasks) (namedToo : other ∈ ids plan.tasks)
    (different : one ≠ other) (forwards : ¬ Relation.TransGen (Needs plan) one other)
    (backwards : ¬ Relation.TransGen (Needs plan) other one) :
    Commute applyChanges (work.changes one) (work.changes other) := by
  obtain ⟨first, member, rfl⟩ := mem_ids.mp named
  obtain ⟨second, among, rfl⟩ := mem_ids.mp namedToo
  have unordered : Unordered plan.plan first second :=
    ⟨member, among, fun same => different (congrArg Task.id same), forwards, backwards⟩
  have silent := writesOverlap_of_unordered plan.accepted unordered
  have unshared := (not_writeShare_iff silent).mpr (independent first second unordered)
  apply commute_applyChanges
  intro path
  by_contra both
  rw [not_or] at both
  obtain ⟨safe, pattern, writes, matched⟩ := work.inside first member path both.1
  obtain ⟨-, target, targets, matchedToo⟩ := work.inside second among path both.2
  apply unshared
  refine ⟨path, safe, ?_, ?_⟩
  · exact List.any_eq_true.mpr ⟨pattern, writes, matched⟩
  · exact List.any_eq_true.mpr ⟨target, targets, matchedToo⟩

/-- An order in which tasks were finished, with those apart that changed nothing. -/
structure Accomplishes (plan : ValidPlan) (work : TaskWork plan) (completed : JsString → Prop)
    (order : List JsString) : Prop where
  finished : ∃ finished, Finished (Needs plan) finished order
  planned : ∀ id ∈ order, id ∈ ids plan.tasks
  ended : ∀ id ∈ order, completed id
  silent : ∀ id ∈ ids plan.tasks, completed id → id ∉ order → work.changes id = fun _ => none

open Classical in
/-- Two orders in which the same tasks were finished lead to the same tree. -/
theorem Accomplishes.agree {plan : ValidPlan} {work : TaskWork plan} {completed : JsString → Prop}
    {first second : List JsString} (one : Accomplishes plan work completed first)
    (other : Accomplishes plan work completed second) (independent : Independent plan)
    (tree : Tree) :
    first.foldl (fun tree id => applyChanges tree (work.changes id)) tree =
      second.foldl (fun tree id => applyChanges tree (work.changes id)) tree := by
  let busy : JsString → Bool := fun id => decide (work.changes id ≠ fun _ => none)
  have idle : ∀ (order : List JsString), ∀ id ∈ order, busy id = false →
      ∀ state, applyChanges state (work.changes id) = state := by
    intro order id _ quiet state
    have nothing : work.changes id = fun _ => none := by simpa [busy] using quiet
    rw [nothing]
    rfl
  have among : ∀ {order others : List JsString}, Accomplishes plan work completed order →
      Accomplishes plan work completed others →
        ∀ id, id ∈ order.filter busy → id ∈ others.filter busy := by
    intro order others here there id member
    obtain ⟨listed, works⟩ := List.mem_filter.mp member
    refine List.mem_filter.mpr ⟨?_, works⟩
    by_contra absent
    have nothing := there.silent id (here.planned id listed) (here.ended id listed) absent
    exact of_decide_eq_true works nothing
  obtain ⟨finished, held⟩ := one.finished
  obtain ⟨finishedToo, heldToo⟩ := other.finished
  have left := held.filter busy
  have right := heldToo.filter busy
  have perm : (first.filter busy).Perm (second.filter busy) := by
    apply (List.perm_ext_iff_of_nodup left.distinct right.distinct).mpr
    exact fun id => ⟨among one other id, among other one id⟩
  rw [← foldl_filter_idle (idle first) tree, ← foldl_filter_idle (idle second) tree]
  refine @foldl_eq_of_respects _ _ _
    (fun later earlier => Relation.TransGen (Needs plan) earlier later) _ _ perm left.respects
    right.respects ?_ left.distinct tree
  intro id member otherId memberToo different forwards backwards
  have named := one.planned id (List.mem_of_mem_filter member)
  have namedToo := one.planned otherId (List.mem_of_mem_filter memberToo)
  exact fun state => work.commute independent named namedToo different backwards forwards state

/-! ## Agreement -/

/-- A drive of a new run, whose merged patches are the work of their tasks.  A task without a
patch has changed nothing. -/
structure Drive (plan : ValidPlan) (work : TaskWork plan) where
  config : DriveConfig
  ops : List DriveOp
  contents : JsString → Changes
  patches : ∀ id revision,
    (id, revision) ∈
        merges (History.run (ParallelRun.act config) ops (DriveStart.fresh plan).run).events →
      contents revision = work.changes id
  silent : ∀ id ∈ ids plan.tasks,
    ((History.run (ParallelRun.act config) ops (DriveStart.fresh plan).run).stateOf id).status =
        .completed →
      id ∉ mergedTasks
          (History.run (ParallelRun.act config) ops (DriveStart.fresh plan).run).events →
        work.changes id = fun _ => none

/-- Rounds of the scheduler for a new run, without an amendment. -/
structure Schedule where
  config : Sequential.SchedulerConfig
  answers : Nat → Sequential.Answer
  rounds : Nat
  unamended : ∀ round, (answers round).Unamended

section Agreement

variable {plan : ValidPlan} {work : TaskWork plan}

def Drive.run (drive : Drive plan work) : ParallelRun :=
  History.run (ParallelRun.act drive.config) drive.ops (DriveStart.fresh plan).run

/-- The tree of the integration branch. -/
def Drive.tree (drive : Drive plan work) (tree : Tree) : Tree :=
  drive.run.branch.foldl (fun tree revision => applyChanges tree (drive.contents revision)) tree

def Schedule.run (schedule : Schedule) (plan : ValidPlan) : Sequential.SchedulerRun :=
  (Sequential.schedulerStart plan.tasks (fun _ => none) 0).after schedule.config schedule.answers
    schedule.rounds

/-- The tree after the work of the completed tasks, one after another. -/
def Schedule.tree (schedule : Schedule) (work : TaskWork plan) (tree : Tree) : Tree :=
  (Sequential.completions (schedule.run plan).log).foldl
    (fun tree id => applyChanges tree (work.changes id)) tree

theorem Drive.inOrder (drive : Drive plan work) : MergesInOrder plan drive.run :=
  mergesInOrder_run drive.config plan drive.ops

/-- The tree of the integration branch is the work of the tasks in the order of the merges. -/
theorem Drive.tree_eq (drive : Drive plan work) (tree : Tree) :
    drive.tree tree = (mergedTasks drive.run.events).foldl
      (fun tree id => applyChanges tree (work.changes id)) tree := by
  have branch : drive.run.branch = (merges drive.run.events).map Prod.snd :=
    (sound_run drive.config (.fresh plan) drive.ops).2
  have contents := drive.patches
  rw [Drive.tree, branch, mergedTasks, List.foldl_map, List.foldl_map]
  have same : ∀ (entries : List (JsString × JsString)) (tree : Tree),
      (∀ entry ∈ entries, drive.contents entry.2 = work.changes entry.1) →
        entries.foldl (fun tree entry => applyChanges tree (drive.contents entry.2)) tree =
          entries.foldl (fun tree entry => applyChanges tree (work.changes entry.1)) tree := by
    intro entries
    induction entries with
    | nil => exact fun tree _ => rfl
    | cons entry entries inductionHypothesis =>
        intro tree each
        rw [List.foldl_cons, List.foldl_cons, each entry List.mem_cons_self]
        exact inductionHypothesis _ fun other member => each other (List.mem_cons_of_mem _ member)
  exact same _ tree fun entry member => contents entry.1 entry.2 member

theorem Drive.accomplishes (drive : Drive plan work) :
    Accomplishes plan work (fun id => (drive.run.stateOf id).status = .completed)
      (mergedTasks drive.run.events) where
  finished := ⟨_, drive.inOrder.finished⟩
  planned := drive.inOrder.planned
  ended id member := by
    obtain ⟨⟨other, revision⟩, merged, rfl⟩ := List.mem_map.mp member
    exact ((sound_run drive.config (.fresh plan) drive.ops).1.merged other revision merged).1
  silent := drive.silent

theorem Accomplishes.congr {completed others : JsString → Prop} {order : List JsString}
    (held : Accomplishes plan work completed order)
    (same : ∀ id ∈ ids plan.tasks, completed id ↔ others id) :
    Accomplishes plan work others order where
  finished := held.finished
  planned := held.planned
  ended id member := (same id (held.planned id member)).mp (held.ended id member)
  silent id named ended := held.silent id named ((same id named).mpr ended)

theorem Schedule.accomplishes (schedule : Schedule)
    (returned : (schedule.run plan).conclusion ≠ some .threw) :
    Accomplishes plan work (fun id => ((schedule.run plan).stateOf id).status = .completed)
      (Sequential.completions (schedule.run plan).log) := by
  have inOrder := Sequential.completesInOrder_after schedule.config plan 0 schedule.unamended
    schedule.rounds
  refine ⟨⟨_, inOrder.finished⟩, inOrder.planned, ?_, ?_⟩
  · intro id member
    obtain ⟨attempt, logged⟩ := Sequential.of_mem_completions member
    have start : Sequential.SchedulerRun.Ordered schedule.config
        (Sequential.schedulerStart plan.tasks (fun _ => none) 0) :=
      ⟨Journal.throughout_nil, Sequential.recorded_nil schedule.config _⟩
    have ordered := Rounds.after_invariant start
      (fun number run ordered => ordered.act (schedule.answers number)) schedule.rounds
    exact ordered.recorded.completed id attempt logged
  · intro id _ completed absent
    exact absurd (inOrder.listed returned id completed) absent

end Agreement

/-- Two tasks that write to a file each. -/
def twoFiles : ValidPlan where
  plan := writersPlan (js "src/a.ts") (js "src/b.ts")
  ir := emptySpec
  isDirectory := none
  accepted := by decide +kernel

def createFile (file : JsString) : Changes :=
  fun path => if path = file then some (some []) else none

theorem createFile_ne_none {file path : JsString} (changed : createFile file path ≠ none) :
    path = file := by
  by_contra different
  exact changed (if_neg different)

def twoFilesWork : TaskWork twoFiles where
  changes id :=
    if id = js "first" then createFile (js "src/a.ts")
    else if id = js "second" then createFile (js "src/b.ts")
    else fun _ => none
  inside := by
    intro task member path changed
    rcases List.mem_cons.mp member with rfl | rest
    · have first : createFile (js "src/a.ts") path ≠ none := changed
      rw [createFile_ne_none first]
      exact ⟨by decide +kernel, js "src/a.ts", List.mem_cons_self, by decide +kernel⟩
    · rw [List.mem_singleton.mp rest] at changed ⊢
      have second : createFile (js "src/b.ts") path ≠ none := changed
      rw [createFile_ne_none second]
      exact ⟨by decide +kernel, js "src/b.ts", List.mem_cons_self, by decide +kernel⟩

def finishedOutcome : ExecutionOutcome :=
  ⟨.completed, [], true, none⟩

/-- Both tasks are in flight, and the later one settles first. -/
def reversedOps : List DriveOp :=
  [.wake (fun _ => false) [], .settle 1 (.returned finishedOutcome (some (js "r2")) true) [],
    .settle 0 (.returned finishedOutcome (some (js "r1")) true) []]

theorem merges_reversed :
    merges
        (History.run (ParallelRun.act ⟨2, 0⟩) reversedOps (DriveStart.fresh twoFiles).run).events =
      [(js "second", js "r2"), (js "first", js "r1")] := by
  decide +kernel

def reversedDrive : Drive twoFiles twoFilesWork where
  config := ⟨2, 0⟩
  ops := reversedOps
  contents revision :=
    if revision = js "r1" then createFile (js "src/a.ts") else createFile (js "src/b.ts")
  patches := by
    intro id revision merged
    rw [merges_reversed] at merged
    rcases List.mem_cons.mp merged with same | rest
    · cases same
      rfl
    · cases List.mem_singleton.mp rest
      rfl
  silent := by
    intro id named _ absent
    rw [mergedTasks, merges_reversed] at absent
    rcases List.mem_cons.mp named with rfl | rest
    · exact absurd (by decide +kernel) absent
    · rw [List.mem_singleton.mp rest] at absent
      exact absurd (by decide +kernel) absent

/-- Every task completes when it is tried. -/
def forwardSchedule : Schedule where
  config := ⟨0, 0⟩
  answers _ := ⟨false, [], some (finishedOutcome, none), .failed⟩
  rounds := 3
  unamended _ amendment same := by cases same

end SpecAsCode.Runtime
