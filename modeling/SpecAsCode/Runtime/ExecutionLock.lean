import SpecAsCode.Js.JsString
import SpecAsCode.Lib.History
import Mathlib.Logic.Function.Basic

/-!
# The lock of a run

`execution.lock` names the process that executes a run.  A process that wants the lock looks for
the file, reads it, asks whether the process it names is alive, and writes its own name; other
processes take steps in between.
-/

namespace SpecAsCode.Runtime

open SpecAsCode.History
open SpecAsCode.Js (JsString js)

structure ExecutionLock where
  pid : Nat
  heldAt : JsString
  command : JsString
  deriving DecidableEq

/-- What `execution.lock` holds.  A record without a process number is as good as none. -/
inductive LockFile where
  | unreadable
  | lock (held : ExecutionLock)
  deriving DecidableEq

inductive LockAcquisition where
  | ok
  | runLockHeld (holderPid : Nat) (holderAt : JsString)
  deriving DecidableEq

/-- `acquireExecutionLock` without other processes: what it returns, and the file it leaves. -/
def acquireExecutionLock (pidAlive : Nat → Bool) (file : Option LockFile) (pid : Nat)
    (now command : JsString) : LockAcquisition × Option LockFile :=
  match file with
  | some (.lock held) =>
      if pidAlive held.pid then
        (.runLockHeld held.pid held.heldAt, file)
      else
        (.ok, some (.lock ⟨pid, now, command⟩))
  | _ => (.ok, some (.lock ⟨pid, now, command⟩))

/-! ## Steps -/

/-- Where a process is. -/
inductive LockPhase where
  | outside
  /-- `acquireExecutionLock` has refused it. -/
  | refused (holderPid : Nat) (holderAt : JsString)
  /-- `existsSync` has found the file. -/
  | found
  | read (held : ExecutionLock)
  /-- Nothing stands in the way of the write. -/
  | free
  | holding
  deriving DecidableEq

inductive LockMove where
  | look
  | read
  | judge
  | write (now command : JsString)
  | release
  | start
  | exit

/-- The file, which processes are alive, and where each of them is. -/
structure RunLock where
  file : Option LockFile
  pidAlive : Nat → Bool
  phases : Nat → LockPhase

namespace RunLock

def setPhase (lock : RunLock) (pid : Nat) (phase : LockPhase) : RunLock :=
  { lock with phases := Function.update lock.phases pid phase }

def setFile (lock : RunLock) (file : Option LockFile) : RunLock :=
  { lock with file := file }

def setAlive (lock : RunLock) (pid : Nat) (alive : Bool) : RunLock :=
  { lock with pidAlive := Function.update lock.pidAlive pid alive }

/-- What a live process does.  A move that is not open to it changes nothing. -/
def move (lock : RunLock) (pid : Nat) : LockMove → LockPhase → RunLock
  | .look, .outside | .look, .refused _ _ =>
      lock.setPhase pid (if lock.file.isSome then .found else .free)
  | .read, .found =>
      lock.setPhase pid
        (match lock.file with
        | some (.lock held) => .read held
        | _ => .free)
  | .judge, .read held =>
      lock.setPhase pid
        (if lock.pidAlive held.pid then .refused held.pid held.heldAt else .free)
  | .write now command, .free =>
      (lock.setFile (some (.lock ⟨pid, now, command⟩))).setPhase pid .holding
  | .release, .holding => (lock.setFile none).setPhase pid .outside
  | .exit, _ => (lock.setAlive pid false).setPhase pid .outside
  | _, _ => lock

/-- What a process does that is not alive. -/
def wake (lock : RunLock) (pid : Nat) : LockMove → RunLock
  | .start => (lock.setAlive pid true).setPhase pid .outside
  | _ => lock

end RunLock

/-- A step of one process. -/
def lockStep : Nat × LockMove → RunLock → RunLock
  | (pid, move), lock =>
      if lock.pidAlive pid then
        lock.move pid move (lock.phases pid)
      else
        lock.wake pid move

/-- The steps of `acquireExecutionLock` in one process. -/
def acquireMoves (pid : Nat) (now command : JsString) : List (Nat × LockMove) :=
  [(pid, .look), (pid, .read), (pid, .judge), (pid, .write now command)]

/-- Where a process is after an acquisition. -/
def LockAcquisition.phase : LockAcquisition → LockPhase
  | .ok => .holding
  | .runLockHeld holderPid holderAt => .refused holderPid holderAt

theorem phases_setPhase (lock : RunLock) (pid : Nat) (phase : LockPhase) (other : Nat) :
    (lock.setPhase pid phase).phases other = if other = pid then phase else lock.phases other :=
  Function.update_apply lock.phases pid phase other

theorem setPhase_setPhase (lock : RunLock) (pid : Nat) (first second : LockPhase) :
    (lock.setPhase pid first).setPhase pid second = lock.setPhase pid second := by
  simp only [RunLock.setPhase, Function.update_idem]

theorem lockStep_setPhase {lock : RunLock} {pid : Nat} (alive : lock.pidAlive pid = true)
    (move : LockMove) (phase : LockPhase) :
    lockStep (pid, move) (lock.setPhase pid phase) = (lock.setPhase pid phase).move pid move phase := by
  have here : (lock.setPhase pid phase).phases pid = phase := by rw [phases_setPhase, if_pos rfl]
  rw [lockStep, if_pos (show (lock.setPhase pid phase).pidAlive pid = true from alive), here]

/-- Without steps of other processes in between, the moves do what the function does. -/
theorem run_acquireMoves {lock : RunLock} {pid : Nat} (alive : lock.pidAlive pid = true)
    (outside : lock.phases pid = .outside) (now command : JsString) :
    let acquired := acquireExecutionLock lock.pidAlive lock.file pid now command
    run lockStep (acquireMoves pid now command) lock =
      (lock.setFile acquired.2).setPhase pid acquired.1.phase := by
  intro acquired
  have look : lockStep (pid, .look) lock =
      lock.setPhase pid (if lock.file.isSome then .found else .free) := by
    rw [lockStep, if_pos alive, outside]
    rfl
  have write : lockStep (pid, .write now command) (lock.setPhase pid .free) =
      (lock.setFile (some (.lock ⟨pid, now, command⟩))).setPhase pid .holding := by
    rw [lockStep_setPhase alive]
    exact setPhase_setPhase (lock.setFile _) pid .free .holding
  have passed : lockStep (pid, .judge) (lock.setPhase pid .free) = lock.setPhase pid .free :=
    lockStep_setPhase alive .judge .free
  have read : lockStep (pid, .read) (lock.setPhase pid .found) = lock.setPhase pid
      (match lock.file with
      | some (.lock held) => .read held
      | _ => .free) :=
    (lockStep_setPhase alive .read .found).trans (setPhase_setPhase lock pid _ _)
  simp only [acquireMoves, run, look]
  cases file : lock.file with
  | none =>
      have skipped : lockStep (pid, .read) (lock.setPhase pid .free) = lock.setPhase pid .free :=
        lockStep_setPhase alive .read .free
      simp only [acquired, acquireExecutionLock, file, Option.isSome_none, Bool.false_eq_true,
        if_false, skipped, passed, write, LockAcquisition.phase]
  | some content =>
      rw [file] at read
      rw [Option.isSome_some, if_pos rfl, read]
      cases content with
      | unreadable =>
          simp only [acquired, acquireExecutionLock, file, passed, write, LockAcquisition.phase]
      | lock held =>
          have judge : lockStep (pid, .judge) (lock.setPhase pid (.read held)) = lock.setPhase pid
              (if lock.pidAlive held.pid then .refused held.pid held.heldAt else .free) :=
            (lockStep_setPhase alive .judge _).trans (setPhase_setPhase lock pid _ _)
          dsimp only
          rw [judge]
          by_cases holder : lock.pidAlive held.pid = true
          · rw [if_pos holder, lockStep_setPhase alive]
            simp only [acquired, acquireExecutionLock, file, if_pos holder, LockAcquisition.phase,
              RunLock.move, RunLock.setFile]
            rw [← file]
          · rw [if_neg holder, write]
            simp only [acquired, acquireExecutionLock, file, if_neg holder, LockAcquisition.phase]

/-! ## Exclusion -/

/-- One process at most takes itself for the holder, and a holder that releases the lock does not
remove that of another one. -/
structure Excluded (lock : RunLock) : Prop where
  alone : ∀ first second, lock.phases first = .holding → lock.phases second = .holding →
    first = second
  own : ∀ pid held, lock.phases pid = .holding → lock.file = some (.lock held) →
    lock.phases held.pid = .holding → held.pid = pid

/-- The file names a live process. -/
def RunLock.namesLive (lock : RunLock) : Bool :=
  match lock.file with
  | some (.lock held) => lock.pidAlive held.pid
  | _ => false

/-- A write comes in time: the file still names no live process. -/
def Timely (lock : RunLock) : Nat × LockMove → Prop
  | (pid, .write _ _) => lock.phases pid = .free → lock.namesLive = false
  | _ => True

instance decidableTimely (lock : RunLock) : (step : Nat × LockMove) → Decidable (Timely lock step)
  | (pid, .write _ _) =>
      inferInstanceAs (Decidable (lock.phases pid = .free → lock.namesLive = false))
  | (_, .look) | (_, .read) | (_, .judge) | (_, .release) | (_, .start) | (_, .exit) => isTrue trivial

/-- The lock of a holder is the one in the file. -/
def Named (lock : RunLock) : Prop :=
  ∀ pid, lock.phases pid = .holding →
    lock.pidAlive pid = true ∧ ∃ held, lock.file = some (.lock held) ∧ held.pid = pid

theorem Named.excluded {lock : RunLock} (named : Named lock) : Excluded lock := by
  have alone : ∀ first second, lock.phases first = .holding → lock.phases second = .holding →
      first = second := by
    intro first second holds other
    obtain ⟨-, held, file, rfl⟩ := named first holds
    obtain ⟨-, otherHeld, otherFile, rfl⟩ := named second other
    cases file.symm.trans otherFile
    rfl
  exact ⟨alone, fun pid held holds _ other => alone held.pid pid other holds⟩

theorem pidAlive_setAlive_ne (lock : RunLock) {pid other : Nat} (different : other ≠ pid)
    (alive : Bool) : (lock.setAlive pid alive).pidAlive other = lock.pidAlive other := by
  rw [RunLock.setAlive]
  exact Function.update_of_ne different alive lock.pidAlive

/-- A process goes on to a place where it does not hold the lock. -/
theorem Named.setPhase {lock : RunLock} (named : Named lock) {pid : Nat} {phase : LockPhase}
    (waits : phase ≠ .holding) : Named (lock.setPhase pid phase) := by
  intro other holds
  rw [phases_setPhase] at holds
  split_ifs at holds
  · exact absurd holds waits
  · exact named other holds

theorem Named.leave {lock changed : RunLock} (named : Named lock) {pid : Nat}
    (phases : changed.phases = lock.phases)
    (kept : ∀ other, other ≠ pid → lock.phases other = .holding →
      changed.pidAlive other = lock.pidAlive other ∧ changed.file = lock.file) :
    Named (changed.setPhase pid .outside) := by
  intro other holds
  rw [phases_setPhase] at holds
  split_ifs at holds with same
  rw [phases] at holds
  obtain ⟨alive, file⟩ := kept other same holds
  show changed.pidAlive other = true ∧ ∃ held, changed.file = _ ∧ _
  rw [alive, file]
  exact named other holds

/-- A write in time leaves the writer as the only holder. -/
theorem Named.write {lock : RunLock} (named : Named lock) {pid : Nat} {now command : JsString}
    (alive : lock.pidAlive pid = true)
    (timely : lock.namesLive = false) :
    Named ((lock.setFile (some (.lock ⟨pid, now, command⟩))).setPhase pid .holding) := by
  intro other holds
  rw [phases_setPhase] at holds
  split_ifs at holds with same
  · rw [same]
    exact ⟨alive, _, rfl, rfl⟩
  · obtain ⟨otherAlive, held, file, rfl⟩ := named other holds
    rw [RunLock.namesLive, file] at timely
    exact absurd (otherAlive.symm.trans timely) nofun

theorem Named.release {lock : RunLock} (named : Named lock) {pid : Nat}
    (holds : lock.phases pid = .holding) : Named ((lock.setFile none).setPhase pid .outside) :=
  named.leave rfl fun other different otherHolds =>
    absurd (named.excluded.alone other pid otherHolds holds) different

theorem Named.move {lock : RunLock} (named : Named lock) {pid : Nat} {move : LockMove}
    (alive : lock.pidAlive pid = true) (timely : Timely lock (pid, move)) :
    Named (lock.move pid move (lock.phases pid)) := by
  cases move with
  | look =>
      have waits : (if lock.file.isSome then LockPhase.found else .free) ≠ .holding := by
        split_ifs <;> nofun
      cases lock.phases pid with
      | outside => exact named.setPhase waits
      | refused holderPid holderAt => exact named.setPhase waits
      | found => exact named
      | read held => exact named
      | free => exact named
      | holding => exact named
  | read =>
      cases lock.phases pid with
      | found =>
          refine named.setPhase ?_
          split <;> nofun
      | outside => exact named
      | refused holderPid holderAt => exact named
      | read held => exact named
      | free => exact named
      | holding => exact named
  | judge =>
      cases lock.phases pid with
      | read held =>
          refine named.setPhase ?_
          split_ifs <;> nofun
      | outside => exact named
      | refused holderPid holderAt => exact named
      | found => exact named
      | free => exact named
      | holding => exact named
  | write now command =>
      cases phase : lock.phases pid with
      | free => exact named.write alive (timely phase)
      | outside => exact named
      | refused holderPid holderAt => exact named
      | found => exact named
      | read held => exact named
      | holding => exact named
  | release =>
      cases phase : lock.phases pid with
      | holding => exact named.release phase
      | outside => exact named
      | refused holderPid holderAt => exact named
      | found => exact named
      | read held => exact named
      | free => exact named
  | start => exact named
  | exit =>
      have left : Named ((lock.setAlive pid false).setPhase pid .outside) :=
        named.leave rfl fun other different _ => ⟨pidAlive_setAlive_ne lock different false, rfl⟩
      cases lock.phases pid <;> exact left

theorem Named.step {lock : RunLock} {step : Nat × LockMove} (timely : Timely lock step)
    (named : Named lock) : Named (lockStep step lock) := by
  obtain ⟨pid, move⟩ := step
  rw [lockStep]
  split_ifs with alive
  · exact named.move alive timely
  · cases move with
    | start => exact named.leave rfl fun other different _ =>
        ⟨pidAlive_setAlive_ne lock different true, rfl⟩
    | look => exact named
    | read => exact named
    | judge => exact named
    | write now command => exact named
    | release => exact named
    | exit => exact named

/-- When every write comes in time, the lock excludes all along, whatever the processes do. -/
theorem excluded_of_timely {lock : RunLock} (outside : ∀ pid, lock.phases pid = .outside)
    {steps : List (Nat × LockMove)} (timely : EveryStep lockStep Timely steps lock) :
    ∀ before, before <+: steps → Excluded (run lockStep before lock) := by
  intro before part
  have start : Named lock := fun pid holds => nomatch (outside pid).symm.trans holds
  exact ((timely.of_prefix part).invariant start fun _ _ timely named => named.step timely).excluded

/-! ## Two processes that look at once -/

/-- Two live processes and no lock. -/
def freeRun : RunLock where
  file := none
  pidAlive pid := pid == 1 || pid == 2
  phases _ := .outside

/-- The second process looks before the first one writes. -/
def overlapping : List (Nat × LockMove) :=
  [(1, .look), (2, .look), (1, .write [] (js "spc apply")), (2, .write [] (js "spc apply --resume"))]

theorem not_excluded : ¬ ∀ (lock : RunLock), (∀ pid, lock.phases pid = .outside) →
    ∀ steps, Excluded (run lockStep steps lock) := by
  intro excluded
  have both := (excluded freeRun (fun _ => rfl) overlapping).alone 1 2 (by decide) (by decide)
  exact absurd both (by decide)

/-- A refusal, a release, and a second acquisition. -/
def oneByOne : List (Nat × LockMove) :=
  acquireMoves 1 [] (js "spc apply") ++ acquireMoves 2 [] (js "spc apply --resume") ++
    (1, .release) :: acquireMoves 2 [] (js "spc apply --resume")

theorem excluded_oneByOne : Excluded (run lockStep oneByOne freeRun) :=
  excluded_of_timely (fun _ => rfl) (by decide) oneByOne List.prefix_rfl

end SpecAsCode.Runtime
