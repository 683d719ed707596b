import SpecAsCode.Runtime.ParallelFlights

/-!
# Order and isolation of parallel tasks

When a task is launched, what is running together, and which patches get to the integration
branch.
-/

namespace SpecAsCode.Runtime.Parallel

open SpecAsCode.Js
open SpecAsCode.Core
open SpecAsCode.Schema
open SpecAsCode.Races
open SpecAsCode.History

/-! ## The integration branch -/

/-- The branch is what it was at the start, and the patches that were merged since. -/
def Accounted (base : List JsString) (run : ParallelRun) : Prop :=
  run.branch = base ++ (merges run.events).map Prod.snd

section Branch

variable {config : DriveConfig} {run after : ParallelRun} {base : List JsString}

theorem Accounted.of_eq (accounted : Accounted base run) (branch : after.branch = run.branch)
    (events : merges after.events = merges run.events) : Accounted base after := by
  rw [Accounted, branch, events]
  exact accounted

theorem Accounted.transition (accounted : Accounted base run) (id : JsString) (next : TaskState)
    (summary : JsString) : Accounted base (run.transition id next summary) := by
  refine accounted.of_eq rfl ?_
  show merges (run.events ++ ParallelRun.transitionEvents _ _ _) = _
  rw [merges_append, merges_transitionEvents, List.append_nil]

theorem Accounted.resetRunning (accounted : Accounted base run) (task : Task) :
    Accounted base (run.resetRunning task) := by
  rw [ParallelRun.resetRunning]
  split_ifs
  · exact accounted.transition _ _ _
  · exact accounted

theorem Accounted.blockUnreachable (accounted : Accounted base run) (task : Task) :
    Accounted base (run.blockUnreachable task) := by
  rw [ParallelRun.blockUnreachable]
  split_ifs
  · exact accounted.transition _ _ _
  · exact accounted

theorem Accounted.launch (accounted : Accounted base run) (task : Task) (refused : Bool)
    (now : JsString) : Accounted base (run.launch task refused now) :=
  (accounted.transition task.id _ []).of_eq rfl rfl

theorem Accounted.endPass (accounted : Accounted base run) (deadlocked : Bool) :
    Accounted base (run.endPass deadlocked) := by
  rw [ParallelRun.endPass]
  split_ifs <;> exact accounted.of_eq rfl rfl

theorem Accounted.refresh (accounted : Accounted base run) : Accounted base run.refresh :=
  (refresh_induction accounted (fun _ task holds => holds.resetRunning task)
    fun _ task _ holds => holds.blockUnreachable task).1

theorem Accounted.pass (accounted : Accounted base run) (refused : JsString → Bool)
    (now : JsString) : Accounted base (run.pass config refused now) := by
  rw [ParallelRun.pass]
  split_ifs
  · exact accounted.refresh.endPass false
  · refine Accounted.endPass (launchReady_induction ?_ (readyTasks_distinct _)
      (fun task member => launchable_of_ready member) accounted.refresh) _
    exact fun run task _ _ holds => holds.launch task _ now

theorem Accounted.close (accounted : Accounted base run) (promise : Nat) (fulfilled : Bool) :
    Accounted base (run.close promise fulfilled) :=
  accounted.of_eq rfl rfl

theorem Accounted.drain (accounted : Accounted base run) (flight : Flight) :
    Accounted base (run.drain flight) := by
  rw [ParallelRun.drain]
  split_ifs
  · exact accounted.of_eq rfl ((merges_append _ _).trans (List.append_nil _))
  · exact accounted.of_eq rfl rfl

/-- The events of a merged patch are appended with the patch. -/
theorem Accounted.merge (accounted : Accounted base run) (flight : Flight)
    (outcome : ExecutionOutcome) (patch : Option JsString) (applies : Bool) :
    Accounted base (run.merge flight outcome patch applies).1 := by
  rw [ParallelRun.merge]
  cases if outcome.status = .completed then patch else none with
  | none => exact accounted
  | some sha =>
      cases applies with
      | true =>
          show run.branch ++ [sha] = base ++ (merges (run.events ++ _)).map Prod.snd
          rw [merges_append, List.map_append, ← List.append_assoc,
            show run.branch = base ++ (merges run.events).map Prod.snd from accounted]
          rfl
      | false => exact accounted.of_eq rfl ((merges_append _ _).trans (List.append_nil _))

theorem Accounted.conclude (accounted : Accounted base run) (flight : Flight)
    (outcome : ExecutionOutcome) (now : JsString) :
    Accounted base (run.conclude config flight outcome now) := by
  rw [ParallelRun.conclude]
  cases outcome.status with
  | completed => exact (accounted.transition _ _ _).close _ _
  | failed =>
      dsimp only
      split_ifs
      · exact (accounted.transition _ _ _).close _ _
      · exact (accounted.transition flight.task.id _ []).of_eq rfl rfl
  | blocked => exact (accounted.transition _ _ _).close _ _
  | needsReplan => exact (accounted.transition _ _ _).drain flight

theorem Accounted.settle (accounted : Accounted base run) (flight : Flight)
    (settlement : Settlement) (now : JsString) :
    Accounted base (run.settle config flight settlement now) := by
  cases settlement with
  | threw => exact accounted.close _ _
  | returned outcome patch applies =>
      rw [ParallelRun.settle]
      refine Accounted.conclude ?_ flight _ now
      exact (accounted.merge flight outcome patch applies).of_eq rfl rfl

theorem Accounted.step (accounted : Accounted base run) (sound : Sound config run) {op : DriveOp}
    (steps : Steps config run op after) : Accounted base after := by
  cases steps with
  | pass driver => exact accounted.pass _ _
  | fails driver won => exact accounted.of_eq rfl rfl
  | settle member executing => exact accounted.settle _ _ _
  | drain member draining won => exact accounted.drain _
  | abandon member draining won => exact accounted.close _ _
  | replan member replanning => exact (sound.not_replanning member replanning).elim
  | finish driver => exact accounted.of_eq rfl rfl
  | release driver => exact accounted.of_eq rfl rfl

/-! ## Launches -/

/-- The tasks that a step launches start from the branch as it is after the step. -/
def StartsFresh (run after : ParallelRun) : Prop :=
  ∀ flight ∈ after.inFlight, run.launched ≤ flight.promise → flight.startPoint = after.branch

theorem StartsFresh.of_promises (sound : Sound config run)
    (promises : ∀ flight ∈ after.inFlight, flight.promise ∈ run.inFlight.map Flight.promise) :
    StartsFresh run after := by
  intro flight member launched
  obtain ⟨earlier, inFlight, same⟩ := List.mem_map.mp (promises flight member)
  exact absurd (sound.numbered earlier inFlight) (by rw [same]; exact Nat.not_lt.mpr launched)

theorem startsFresh_pass (sound : Sound config run) (refused : JsString → Bool) (now : JsString) :
    StartsFresh run (run.pass config refused now) := by
  have refreshed : run.refresh.branch = run.branch ∧ run.refresh.inFlight = run.inFlight := by
    refine (refresh_induction (P := fun other => other.branch = run.branch ∧
      other.inFlight = run.inFlight) ⟨rfl, rfl⟩ (fun other task same => ?_)
      fun other task _ same => ?_).1
    · rw [ParallelRun.resetRunning]
      split_ifs <;> exact same
    · rw [ParallelRun.blockUnreachable]
      split_ifs <;> exact same
  have before : StartsFresh run run.refresh :=
    StartsFresh.of_promises sound fun flight member => by
      rw [refreshed.2] at member
      exact List.mem_map_of_mem member
  have ends : ∀ other deadlocked, StartsFresh run other →
      StartsFresh run (ParallelRun.endPass other deadlocked) := by
    intro other deadlocked fresh
    rw [ParallelRun.endPass]
    split_ifs <;> exact fresh
  rw [ParallelRun.pass]
  split_ifs
  · exact ends _ _ before
  · refine ends _ _ (launchReady_induction ?_ (readyTasks_distinct _)
      (fun task member => launchable_of_ready member) before)
    intro other task _ _ fresh flight member
    rcases List.mem_append.mp member with earlier | new
    · exact fresh flight earlier
    · rw [List.mem_singleton.mp new]
      exact fun _ => rfl

theorem close_promises (run : ParallelRun) (promise : Nat) (fulfilled : Bool) :
    ∀ flight ∈ (run.close promise fulfilled).inFlight,
      flight.promise ∈ run.inFlight.map Flight.promise := by
  intro flight member
  obtain ⟨earlier, inFlight, rfl⟩ := List.mem_map.mp member
  exact List.mem_map.mpr ⟨earlier, List.mem_of_mem_filter inFlight, rfl⟩

theorem setPhase_promises (run : ParallelRun) (promise : Nat) (phase : FlightPhase) :
    ∀ flight ∈ (run.setPhase promise phase).inFlight,
      flight.promise ∈ run.inFlight.map Flight.promise := by
  intro flight member
  rw [setPhase_inFlight] at member
  obtain ⟨earlier, inFlight, rfl⟩ := List.mem_map.mp member
  exact List.mem_map.mpr ⟨earlier, inFlight, rfl⟩

theorem settle_promises (sound : Sound config run) {flight : Flight}
    (member : flight ∈ run.inFlight) (executing : flight.phase = .executing)
    (settlement : Settlement) (now : JsString) :
    ∀ other ∈ (run.settle config flight settlement now).inFlight,
      other.promise ∈ run.inFlight.map Flight.promise := by
  cases settlement with
  | threw => exact close_promises run _ _
  | returned outcome patch applies =>
      obtain ⟨next, -, leaves⟩ := settle_spec sound member executing outcome patch applies now
      cases leaves with
      | closed stays outlasts inFlight driver =>
          rw [inFlight]
          exact close_promises run _ _
      | drains replan waits inFlight driver =>
          rw [inFlight]
          exact setPhase_promises run _ _

theorem startsFresh_step (sound : Sound config run) {op : DriveOp}
    (steps : Steps config run op after) : StartsFresh run after := by
  cases steps with
  | pass driver => exact startsFresh_pass sound _ _
  | fails driver won => exact .of_promises sound fun _ => List.mem_map_of_mem
  | settle member executing => exact .of_promises sound (settle_promises sound member executing _ _)
  | drain member draining won =>
      rw [drain_of_ne_nil _ (List.ne_nil_of_mem member)]
      exact .of_promises sound (setPhase_promises run _ _)
  | abandon member draining won => exact .of_promises sound (close_promises run _ _)
  | replan member replanning => exact (sound.not_replanning member replanning).elim
  | finish driver => exact .of_promises sound fun _ => List.mem_map_of_mem
  | release driver => exact .of_promises sound fun _ => List.mem_map_of_mem

end Branch

/-! ## Isolation -/

/-- What a task may start from: its dependencies have finished, and their patches are there. -/
def Prepared (run : ParallelRun) (flight : Flight) : Prop :=
  ∀ dep ∈ flight.task.dependencies,
    ((run.stateOf dep).status = .completed ∨ (run.stateOf dep).status = .skipped) ∧
      ∀ revision, (run.stateOf dep).status = .completed →
        (run.stateOf dep).revision = some revision → revision ∈ flight.startPoint

/-- What holds of the tasks in flight and of the integration branch. -/
structure Isolated (config : DriveConfig) (base : List JsString) (run : ParallelRun) : Prop where
  prepared : ∀ flight ∈ run.inFlight, Prepared run flight ∧ flight.startPoint <+: run.branch
  alone : (run.inFlight.map fun flight => flight.task.id).Nodup
  room : run.inFlight.length ≤ config.maxParallel
  branch : run.branch = base ++ (merges run.events).map Prod.snd
  completed : ∀ id revision, (id, revision) ∈ merges run.events →
    (run.stateOf id).status = .completed ∧ (run.stateOf id).revision = some revision
  once : ((merges run.events).map Prod.fst).Nodup

theorem Sound.prepared_of {config : DriveConfig} {run : ParallelRun} (sound : Sound config run)
    {flight : Flight} (member : flight ∈ run.inFlight) : Prepared run flight := fun dep needed =>
  ⟨ParallelRun.isFinished_iff.mp (sound.finished flight member dep needed),
    sound.prepared flight member dep needed⟩

theorem sound_run (config : DriveConfig) (start : DriveStart) (ops : List DriveOp) :
    Sound config (History.run (ParallelRun.act config) ops start.run) ∧
      Accounted start.branch (History.run (ParallelRun.act config) ops start.run) := by
  have keeps : ∀ (run : ParallelRun) (op : DriveOp), True →
      Sound config run ∧ Accounted start.branch run →
        Sound config (run.act config op) ∧ Accounted start.branch (run.act config op) := by
    intro run op _ invariant
    refine act_induction (P := fun after => Sound config after ∧ Accounted start.branch after)
      (fun after steps => ?_) invariant
    exact ⟨invariant.1.step steps, invariant.2.step invariant.1 steps⟩
  exact (everyStep_of_forall (P := fun _ => True) (fun _ _ => trivial) start.run).invariant
    ⟨ParallelRun.sound_start config start, (List.append_nil _).symm⟩ keeps

/-- After every history of a drive the tasks in flight are apart and prepared, and only patches
of completed tasks have been merged, each once.  A task that is launched next starts from the
branch of that moment, and is prepared there. -/
theorem isolated_run (config : DriveConfig) (start : DriveStart) (ops : List DriveOp) :
    Isolated config start.branch (History.run (ParallelRun.act config) ops start.run) ∧
      ∀ op after, (History.run (ParallelRun.act config) ops start.run).step config op = some after →
        ∀ flight ∈ after.inFlight,
          (History.run (ParallelRun.act config) ops start.run).launched ≤ flight.promise →
            Prepared after flight ∧ flight.startPoint = after.branch := by
  obtain ⟨sound, accounted⟩ := sound_run config start ops
  refine ⟨?_, fun op after stepped flight member launched => ?_⟩
  · exact ⟨fun flight member => ⟨sound.prepared_of member, sound.startPoint flight member⟩,
      sound.alone, sound.room, accounted, sound.merged, sound.once⟩
  · have steps := steps_of_step stepped
    exact ⟨(sound.step steps).prepared_of member, startsFresh_step sound steps flight member launched⟩

end SpecAsCode.Runtime.Parallel
