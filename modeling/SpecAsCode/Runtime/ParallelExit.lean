import SpecAsCode.Runtime.ParallelFlights
import SpecAsCode.Runtime.WriteConflicts

/-!
# The exits of the parallel driver

When nothing is in flight the loop ends.  A task that throws ends it as well, and what is in
flight then is left behind.
-/

namespace SpecAsCode.Runtime.Parallel

open SpecAsCode.Js
open SpecAsCode.Core
open SpecAsCode.Schema
open SpecAsCode.Races
open SpecAsCode.History

/-- The driver does not go on. -/
def DriverPhase.Over : DriverPhase → Prop
  | .looping | .racing _ => False
  | .finishing | .settled _ | .released => True

/-- Every promise that is in the map has been rejected. -/
def NoneUnderWay (run : ParallelRun) : Prop :=
  ∀ flight ∈ run.inFlight, flight.phase = .rejected

/-- When the driver has settled, or the lock is released, no task is under way. -/
def NoneOutlives (run : ParallelRun) : Prop :=
  (run.driver = .released ∨ ∃ returned, run.driver = .settled returned) → NoneUnderWay run

/-- When the driver goes on after a race that an exception has won, no task is under way. -/
def FailsLast (run : ParallelRun) (op : DriveOp) : Prop :=
  ∀ refused now race, op = .wake refused now → run.driver = .racing race →
    race.won = some false → NoneUnderWay run

/-- No launch throws, and a task that throws is the only one in flight. -/
def ThrowsAlone (run : ParallelRun) (op : DriveOp) : Prop :=
  (∀ refused now, op = .wake refused now → ∀ id, refused id = false) ∧
    ∀ promise now, op = .settle promise .threw now →
      ∀ flight ∈ run.inFlight, flight.promise = promise

section Exits

variable {config : DriveConfig} {run after : ParallelRun}

/-! ## The end of the loop -/

theorem DriverPhase.over_settle {phase : DriverPhase} {promise : Nat} {fulfilled : Bool}
    (ended : (phase.settle promise fulfilled).Over) : phase.Over := by
  cases phase with
  | looping => exact ended
  | racing race => exact ended.elim
  | finishing => trivial
  | settled returned => trivial
  | released => trivial

theorem endPass_over {deadlocked : Bool} (ended : (run.endPass deadlocked).driver.Over) :
    NoneUnderWay (run.endPass deadlocked) := by
  rw [ParallelRun.endPass] at ended ⊢
  by_cases empty : run.inFlight = []
  · rw [if_pos empty]
    have none : ∀ flight ∈ run.inFlight, flight.phase = .rejected := by
      rw [empty]
      exact fun flight member => absurd member List.not_mem_nil
    exact none
  · rw [if_neg empty] at ended
    exact ended.elim

/-- A task that is under way, and settles, has a driver that goes on. -/
theorem not_over_of_member (quiet : run.driver.Over → NoneUnderWay run) {flight : Flight}
    (member : flight ∈ run.inFlight) (underWay : flight.phase ≠ .rejected) : ¬ run.driver.Over :=
  fun ended => underWay (quiet ended flight member)

theorem settle_driver (sound : Sound config run) {flight : Flight} (member : flight ∈ run.inFlight)
    (executing : flight.phase = .executing) (settlement : Settlement) (now : JsString)
    (ended : (run.settle config flight settlement now).driver.Over) : run.driver.Over := by
  cases settlement with
  | threw => exact DriverPhase.over_settle ended
  | returned outcome patch applies =>
      obtain ⟨next, -, leaves⟩ := settle_spec sound member executing outcome patch applies now
      cases leaves with
      | closed stays outlasts inFlight driver =>
          rw [driver] at ended
          exact DriverPhase.over_settle ended
      | drains replan waits inFlight driver =>
          rw [driver] at ended
          exact ended

/-- The loop ends when nothing is under way, unless an exception ends it. -/
theorem noneUnderWay_step (sound : Sound config run) (quiet : run.driver.Over → NoneUnderWay run)
    {op : DriveOp} (last : FailsLast run op) (steps : Steps config run op after) :
    after.driver.Over → NoneUnderWay after := by
  intro ended
  cases steps with
  | pass driver =>
      rw [ParallelRun.pass] at ended ⊢
      split_ifs at ended ⊢
      · exact endPass_over ended
      · exact endPass_over ended
  | fails driver won => exact last _ _ _ rfl driver won
  | settle member executing =>
      refine absurd (settle_driver sound member executing _ _ ended)
        (not_over_of_member quiet member ?_)
      rw [executing]
      exact FlightPhase.noConfusion
  | @drain flight race member draining won =>
      rw [drain_of_ne_nil flight (List.ne_nil_of_mem member)] at ended
      have before : run.driver.Over := ended
      refine absurd before (not_over_of_member quiet member ?_)
      rw [draining]
      exact FlightPhase.noConfusion
  | abandon member draining won =>
      refine absurd (DriverPhase.over_settle ended) (not_over_of_member quiet member ?_)
      rw [draining]
      exact FlightPhase.noConfusion
  | replan member replanning => exact (sound.not_replanning member replanning).elim
  | finish driver =>
      refine quiet ?_
      rw [driver]
      trivial
  | release driver =>
      refine quiet ?_
      rw [driver]
      trivial

/-! ## Exceptions of the last task -/

/-- What holds as long as every task that threw was the only one in flight. -/
structure Lonely (run : ParallelRun) : Prop where
  accepted : ∀ flight ∈ run.inFlight, flight.phase ≠ .rejected
  drains : ∀ flight ∈ run.inFlight, ∀ race, flight.phase = .draining race →
    race.won ≠ some false
  races : ∀ race, run.driver = .racing race → race.won = some false → run.inFlight = []

theorem race_won_none (accepted : ∀ flight ∈ run.inFlight, flight.phase ≠ .rejected) :
    run.race.won = none := by
  have none : (run.inFlight.filter fun flight => flight.phase = .rejected) = [] :=
    List.filter_eq_nil_iff.mpr fun flight member => by simpa using accepted flight member
  rw [ParallelRun.race, Race.start, none]
  rfl

theorem lonely_endPass (accepted : ∀ flight ∈ run.inFlight, flight.phase ≠ .rejected)
    (drains : ∀ flight ∈ run.inFlight, ∀ race, flight.phase = .draining race →
      race.won ≠ some false) (deadlocked : Bool) : Lonely (run.endPass deadlocked) := by
  rw [ParallelRun.endPass]
  by_cases empty : run.inFlight = []
  · rw [if_pos empty]
    exact ⟨accepted, drains, fun race racing => DriverPhase.noConfusion racing⟩
  · rw [if_neg empty]
    refine ⟨accepted, drains, fun race racing won => ?_⟩
    cases racing
    rw [race_won_none accepted] at won
    cases won

theorem Lonely.pass (lonely : Lonely run) {refused : JsString → Bool}
    (launches : ∀ id, refused id = false) (now : JsString) :
    Lonely (run.pass config refused now) := by
  have refreshed : (∀ flight ∈ run.refresh.inFlight, flight.phase ≠ .rejected) ∧
      ∀ flight ∈ run.refresh.inFlight, ∀ race, flight.phase = .draining race →
        race.won ≠ some false := by
    refine (refresh_induction (P := fun other : ParallelRun =>
      (∀ flight ∈ other.inFlight, flight.phase ≠ .rejected) ∧
        ∀ flight ∈ other.inFlight, ∀ race, flight.phase = .draining race → race.won ≠ some false)
      ⟨lonely.accepted, lonely.drains⟩ (fun other task same => ?_) fun other task _ same => ?_).1
    · rw [ParallelRun.resetRunning]
      split_ifs <;> exact same
    · rw [ParallelRun.blockUnreachable]
      split_ifs <;> exact same
  rw [ParallelRun.pass]
  split_ifs
  · exact lonely_endPass refreshed.1 refreshed.2 false
  · have launched : ∀ other task, Launchable other task →
        other.inFlight.length < config.maxParallel →
        ((∀ flight ∈ other.inFlight, flight.phase ≠ .rejected) ∧
          ∀ flight ∈ other.inFlight, ∀ race, flight.phase = .draining race →
            race.won ≠ some false) →
        (∀ flight ∈ (other.launch task (refused task.id) now).inFlight,
            flight.phase ≠ .rejected) ∧
          ∀ flight ∈ (other.launch task (refused task.id) now).inFlight, ∀ race,
            flight.phase = .draining race → race.won ≠ some false := by
      intro other task _ _ holds
      show (∀ flight ∈ other.inFlight ++ [_], flight.phase ≠ .rejected) ∧
        ∀ flight ∈ other.inFlight ++ [_], ∀ race, flight.phase = .draining race →
          race.won ≠ some false
      rw [launches task.id, List.forall_mem_append, List.forall_mem_append,
        List.forall_mem_singleton, List.forall_mem_singleton]
      exact ⟨⟨holds.1, FlightPhase.noConfusion⟩, holds.2, fun race phase =>
        FlightPhase.noConfusion phase⟩
    obtain ⟨accepted, drains⟩ := launchReady_induction launched (readyTasks_distinct run.refresh)
      (fun task member => launchable_of_ready member) refreshed
    exact lonely_endPass accepted drains _

/-- The promise of a task is fulfilled. -/
theorem Lonely.close (lonely : Lonely run) {flight : Flight} (member : flight ∈ run.inFlight)
    (inFlight : after.inFlight = (run.close flight.promise true).inFlight)
    (driver : after.driver = run.driver.settle flight.promise true) : Lonely after := by
  have earlier : ∀ other ∈ after.inFlight, ∃ before ∈ run.inFlight,
      other.phase = before.phase.settle flight.promise true := by
    intro other inAfter
    rw [inFlight] at inAfter
    obtain ⟨before, left, rfl⟩ := List.mem_map.mp inAfter
    exact ⟨before, List.mem_of_mem_filter left, rfl⟩
  refine ⟨fun other inAfter rejected => ?_, fun other inAfter race draining won => ?_,
    fun race racing won => ?_⟩
  · obtain ⟨before, inRun, phase⟩ := earlier other inAfter
    rw [phase, FlightPhase.settle_eq_rejected] at rejected
    exact lonely.accepted before inRun rejected
  · obtain ⟨before, inRun, phase⟩ := earlier other inAfter
    rw [phase] at draining
    obtain ⟨raced, drained, rfl⟩ := FlightPhase.of_settle_draining draining
    rcases Race.of_won_settle won with lost | fulfilled
    · exact lonely.drains before inRun raced drained lost
    · cases fulfilled
  · rw [driver] at racing
    obtain ⟨raced, wasRacing, rfl⟩ := DriverPhase.of_settle_racing racing
    rcases Race.of_won_settle won with lost | fulfilled
    · exact absurd (lonely.races raced wasRacing lost) (List.ne_nil_of_mem member)
    · cases fulfilled

theorem Lonely.setPhase (lonely : Lonely run) {flight : Flight} (member : flight ∈ run.inFlight)
    (inFlight : after.inFlight =
      (run.setPhase flight.promise (.draining run.race)).inFlight)
    (driver : after.driver = run.driver) : Lonely after := by
  rw [setPhase_inFlight] at inFlight
  refine ⟨fun other inAfter => ?_, fun other inAfter race draining => ?_, fun race racing won => ?_⟩
  · rw [inFlight] at inAfter
    obtain ⟨before, inRun, rfl⟩ := List.mem_map.mp inAfter
    show (if _ then FlightPhase.draining run.race else before.phase) ≠ _
    split_ifs
    · exact FlightPhase.noConfusion
    · exact lonely.accepted before inRun
  · rw [inFlight] at inAfter
    obtain ⟨before, inRun, rfl⟩ := List.mem_map.mp inAfter
    change (if _ then FlightPhase.draining run.race else before.phase) = _ at draining
    split_ifs at draining
    · cases draining
      rw [race_won_none lonely.accepted]
      exact (Option.some_ne_none false).symm
    · exact lonely.drains before inRun race draining
  · rw [driver] at racing
    exact absurd (lonely.races race racing won) (List.ne_nil_of_mem member)

theorem Lonely.of_driver (lonely : Lonely run) {driver : DriverPhase}
    (rests : ∀ race, driver ≠ .racing race) : Lonely { run with driver := driver } :=
  ⟨lonely.accepted, lonely.drains, fun race racing => absurd racing (rests race)⟩

theorem Lonely.step (lonely : Lonely run) (sound : Sound config run) {op : DriveOp}
    (alone : ThrowsAlone run op) (steps : Steps config run op after) : Lonely after := by
  cases steps with
  | pass driver => exact lonely.pass (alone.1 _ _ rfl) _
  | fails driver won => exact lonely.of_driver fun race => DriverPhase.noConfusion
  | @settle flight settlement now member executing =>
      cases settlement with
      | threw =>
          -- nothing is left
          have none : (run.close flight.promise false).inFlight = [] := by
            show (run.inFlight.filter _).map _ = []
            rw [List.map_eq_nil_iff, List.filter_eq_nil_iff]
            intro other inFlight
            simpa using alone.2 _ _ rfl other inFlight
          exact ⟨by rw [ParallelRun.settle, none]; simp, by rw [ParallelRun.settle, none]; simp,
            fun race racing won => none⟩
      | returned outcome patch applies =>
          obtain ⟨next, -, leaves⟩ := settle_spec sound member executing outcome patch applies now
          cases leaves with
          | closed stays outlasts inFlight driver => exact lonely.close member inFlight driver
          | drains replan waits inFlight driver => exact lonely.setPhase member inFlight driver
  | @drain flight race member draining won =>
      rw [drain_of_ne_nil flight (List.ne_nil_of_mem member)]
      exact lonely.setPhase member rfl rfl
  | abandon member draining won => exact (lonely.drains _ member _ draining won).elim
  | replan member replanning => exact (sound.not_replanning member replanning).elim
  | finish driver => exact lonely.of_driver fun race => DriverPhase.noConfusion
  | release driver => exact lonely.of_driver fun race => DriverPhase.noConfusion

theorem Lonely.failsLast (lonely : Lonely run) (op : DriveOp) : FailsLast run op := by
  intro refused now race _ racing won flight member
  rw [lonely.races race racing won] at member
  cases member

end Exits

/-! ## Every run -/

section Runs

variable {config : DriveConfig} {run : ParallelRun}

/-- At the wake of a driver that fails, what is under way outlives it. -/
theorem failsLast_of_noneOutlives {op : DriveOp} (none : NoneOutlives (run.act config op)) :
    FailsLast run op := by
  rintro refused now race rfl racing won
  have stepped : run.act config (.wake refused now) = { run with driver := .settled false } := by
    rw [ParallelRun.act, ParallelRun.step, ParallelRun.wake, racing]
    dsimp only
    rw [won]
    rfl
  rw [stepped] at none
  exact none (Or.inr ⟨false, rfl⟩)

theorem noneOutlives_of_over (quiet : run.driver.Over → NoneUnderWay run) : NoneOutlives run := by
  rintro (released | ⟨returned, settled⟩)
  · refine quiet ?_
    rw [released]
    trivial
  · refine quiet ?_
    rw [settled]
    trivial

end Runs

/-- Along a history of a drive no task outlives the driver or the lock if and only if no task is
under way whenever the driver goes on after an exception.  That is so when every task that
throws is the only one in flight. -/
theorem none_outlives_iff (config : DriveConfig) (start : DriveStart) (ops : List DriveOp) :
    ((∀ before, before <+: ops →
        NoneOutlives (History.run (ParallelRun.act config) before start.run)) ↔
      EveryStep (ParallelRun.act config) FailsLast ops start.run) ∧
    (EveryStep (ParallelRun.act config) ThrowsAlone ops start.run →
      EveryStep (ParallelRun.act config) FailsLast ops start.run) := by
  have sound := ParallelRun.sound_start config start
  refine ⟨⟨fun none => ?_, fun last before part => ?_⟩, fun alone => ?_⟩
  · by_contra left
    obtain ⟨before, op, after, rfl, -, outlives⟩ := exists_first_failure left
    refine outlives (@failsLast_of_noneOutlives config _ op ?_)
    have upTo := none (before ++ [op]) ⟨after, by simp⟩
    rwa [run_append] at upTo
  · have keeps : ∀ run op, FailsLast run op →
        (Sound config run ∧ (run.driver.Over → NoneUnderWay run)) →
          Sound config (run.act config op) ∧
            ((run.act config op).driver.Over → NoneUnderWay (run.act config op)) :=
      fun run op fails kept => act_induction
        (P := fun after => Sound config after ∧ (after.driver.Over → NoneUnderWay after))
        (fun after steps => ⟨kept.1.step steps, noneUnderWay_step kept.1 kept.2 fails steps⟩) kept
    have invariant : Sound config (History.run (ParallelRun.act config) before start.run) ∧
        ((History.run (ParallelRun.act config) before start.run).driver.Over →
          NoneUnderWay (History.run (ParallelRun.act config) before start.run)) :=
      (last.of_prefix part).invariant ⟨sound, False.elim⟩ keeps
    exact noneOutlives_of_over invariant.2
  · have keeps : ∀ run op, ThrowsAlone run op → (Sound config run ∧ Lonely run) →
        Sound config (run.act config op) ∧ Lonely (run.act config op) :=
      fun run op only kept => act_induction (P := fun after => Sound config after ∧ Lonely after)
        (fun after steps => ⟨kept.1.step steps, kept.2.step kept.1 only steps⟩) kept
    have initial : Sound config start.run ∧ Lonely start.run :=
      ⟨sound, by simp [DriveStart.run], by simp [DriveStart.run],
        fun race racing => DriverPhase.noConfusion racing⟩
    exact alone.of_invariant initial keeps fun run op _ kept => kept.2.failsLast op

/-! ## The failing run -/

theorem writersPlan_accepted :
    planAccepted (writersPlan (js "src/a.ts") (js "src/b.ts")) emptySpec none = true := by
  decide +kernel

/-- A plan of two tasks. -/
def twoWriters : ValidPlan where
  plan := writersPlan (js "src/a.ts") (js "src/b.ts")
  ir := emptySpec
  isDirectory := none
  accepted := writersPlan_accepted

/-- Both tasks are launched; the first one throws. -/
def throwHistory : List DriveOp :=
  [.wake (fun _ => false) [], .settle 0 .threw [], .wake (fun _ => false) [], .release]

theorem throwHistory_driver :
    (History.run (ParallelRun.act ⟨2, 1⟩) throwHistory (DriveStart.fresh twoWriters).run).driver =
      .released := by
  decide +kernel

theorem throwHistory_inFlight :
    (History.run (ParallelRun.act ⟨2, 1⟩) throwHistory (DriveStart.fresh twoWriters).run).inFlight =
      [⟨1, writer (js "second") (js "src/b.ts"), 1, [], .executing⟩] := by
  decide +kernel

/-- A task that throws ends the driver while another one is executed. -/
theorem not_none_outlives :
    ¬ ∀ config start ops,
      NoneOutlives (History.run (ParallelRun.act config) ops (DriveStart.run start)) := by
  intro none
  have underWay := none ⟨2, 1⟩ (DriveStart.fresh twoWriters) throwHistory
    (Or.inl throwHistory_driver)
  rw [NoneUnderWay, throwHistory_inFlight] at underWay
  exact FlightPhase.noConfusion (underWay _ List.mem_cons_self)

end SpecAsCode.Runtime.Parallel
