import SpecAsCode.Js.JsString
import SpecAsCode.Lib.History
import Mathlib.Logic.Function.Basic

/-!
# The lock of the store

A process that changes the store first makes the directory `.lock`.  A lock that is too old is
removed by whoever notices it, and so is one that outlasts the patience of a process.  The
numbers of invocations are counted without the lock.
-/

namespace SpecAsCode.Harness

open SpecAsCode.History
open SpecAsCode.Js (JsString js)

/-- In milliseconds, as all times. -/
def LOCK_RETRY_MS : Nat := 25

def LOCK_BUDGET_MS : Nat := 5000

def STALE_LOCK_MS : Nat := 10000

/-- The directory `.lock`: who made it, which nobody can see, and when. -/
structure LockDir where
  owner : Nat
  madeAt : Nat
  deriving DecidableEq

/-- Where a process is. -/
inductive StorePhase where
  | outside
  /-- At the beginning of the loop of `acquireLock`. -/
  | trying (deadline : Nat)
  /-- `mkdirSync` has thrown. -/
  | blocked (deadline : Nat)
  /-- The lock is older than it may be; which one it was is not kept by the process. -/
  | stale (deadline : Nat) (checked : LockDir)
  /-- The lock is young, or it has vanished. -/
  | young (deadline : Nat)
  /-- The deadline has passed. -/
  | spent (deadline : Nat)
  | sleeping (deadline wakesAt : Nat)
  /-- In a locked section. -/
  | inside (since : Nat)
  /-- `nextInvocation` has read the counter. -/
  | counting (file : JsString) (n : Nat)
  deriving DecidableEq

inductive StoreMove where
  /-- `withLock`. -/
  | lock
  | makeDir
  | checkAge
  | breakStale
  | checkDeadline
  | breakSpent
  | wake
  | leave
  | count (file : JsString)
  | record
  | crash
  /-- Time passes, whoever takes this step. -/
  | tick (ms : Nat)
  deriving DecidableEq

/-- The clock, the lock and the counters, where each process is, and the numbers that
`nextInvocation` has returned. -/
structure LockedStore where
  now : Nat
  lockDir : Option LockDir
  counters : JsString → Option Nat
  phases : Nat → StorePhase
  issued : List (JsString × Nat)

namespace LockedStore

def setPhase (store : LockedStore) (pid : Nat) (phase : StorePhase) : LockedStore :=
  { store with phases := Function.update store.phases pid phase }

def setLock (store : LockedStore) (lockDir : Option LockDir) : LockedStore :=
  { store with lockDir := lockDir }

/-- `mkdirSync(this.lockDir)`. -/
def makeDir (store : LockedStore) (pid deadline : Nat) : LockedStore :=
  match store.lockDir with
  | none => (store.setLock (some ⟨pid, store.now⟩)).setPhase pid (.inside store.now)
  | some _ => store.setPhase pid (.blocked deadline)

/-- What a process finds when it looks at the age of the lock. -/
def checkAge (store : LockedStore) (deadline : Nat) : StorePhase :=
  match store.lockDir with
  | none => .young deadline
  | some dir => if dir.madeAt + STALE_LOCK_MS < store.now then .stale deadline dir else .young deadline

/-- The number in a counter file. -/
def counter (store : LockedStore) (file : JsString) : Nat :=
  (store.counters file).getD 0

/-- `nextInvocation` writes the counter and returns. -/
def issue (store : LockedStore) (file : JsString) (n : Nat) : LockedStore :=
  { store with
    counters := Function.update store.counters file (some n)
    issued := (file, n) :: store.issued }

/-- What a process does.  A move that is not open to it changes nothing. -/
def move (store : LockedStore) (pid : Nat) : StoreMove → StorePhase → LockedStore
  | .lock, .outside => store.setPhase pid (.trying (store.now + LOCK_BUDGET_MS))
  | .makeDir, .trying deadline => store.makeDir pid deadline
  | .checkAge, .blocked deadline => store.setPhase pid (store.checkAge deadline)
  | .breakStale, .stale deadline _ => (store.setLock none).setPhase pid (.trying deadline)
  | .checkDeadline, .young deadline =>
      store.setPhase pid (if deadline ≤ store.now then .spent deadline
        else .sleeping deadline (store.now + LOCK_RETRY_MS))
  | .breakSpent, .spent deadline => (store.setLock none).setPhase pid (.trying deadline)
  | .wake, .sleeping deadline wakesAt =>
      if wakesAt ≤ store.now then store.setPhase pid (.trying deadline) else store
  | .leave, .inside _ => (store.setLock none).setPhase pid .outside
  | .count file, .outside => store.setPhase pid (.counting file (store.counter file + 1))
  | .record, .counting file n => (store.issue file n).setPhase pid .outside
  | .crash, _ => store.setPhase pid .outside
  | .tick ms, _ => { store with now := store.now + ms }
  | _, _ => store

end LockedStore

/-- A step of one process. -/
def storeStep : Nat × StoreMove → LockedStore → LockedStore
  | (pid, move), store => store.move pid move (store.phases pid)

/-! ## Exclusion -/

/-- At most one process is in a locked section, and no number is issued twice for one counter. -/
def Serialized (store : LockedStore) : Prop :=
  (∀ first second firstSince secondSince, store.phases first = .inside firstSince →
    store.phases second = .inside secondSince → first = second) ∧ store.issued.Nodup

/-- Every live holder finishes before its lock is stale. -/
def Prompt (store : LockedStore) : Prop :=
  ∀ pid since, store.phases pid = .inside since → store.now ≤ since + STALE_LOCK_MS

/-- Nobody works under the lock that a process is about to remove when its patience has ended;
the lock that it is about to remove as stale is the one whose age it has looked at; and nobody
has written the counter since it was read. -/
def LockedStore.undisturbed (store : LockedStore) : StoreMove → StorePhase → Bool
  | .breakSpent, .spent _ =>
      store.lockDir.all fun dir => store.phases dir.owner ≠ .inside dir.madeAt
  | .breakStale, .stale _ checked => store.lockDir.all fun dir => dir = checked
  | .record, .counting file n => n = store.counter file + 1
  | _, _ => true

def Undisturbed (store : LockedStore) : Nat × StoreMove → Prop
  | (pid, move) => store.undisturbed move (store.phases pid) = true

instance decidableUndisturbed (store : LockedStore) :
    (step : Nat × StoreMove) → Decidable (Undisturbed store step)
  | (pid, move) => inferInstanceAs (Decidable (store.undisturbed move (store.phases pid) = true))

/-! ## What the steps keep -/

structure Orderly (store : LockedStore) : Prop where
  locked : ∀ pid since, store.phases pid = .inside since → store.lockDir = some ⟨pid, since⟩
  stale : ∀ pid deadline checked, store.phases pid = .stale deadline checked →
    checked.madeAt + STALE_LOCK_MS < store.now
  counted : ∀ file n, (file, n) ∈ store.issued → n ≤ store.counter file
  distinct : store.issued.Nodup

theorem Orderly.serialized {store : LockedStore} (orderly : Orderly store) : Serialized store := by
  refine ⟨fun first second firstSince secondSince here other => ?_, orderly.distinct⟩
  have same := (orderly.locked first firstSince here).symm.trans
    (orderly.locked second secondSince other)
  exact congrArg LockDir.owner (Option.some.inj same)

section Steps

variable {store : LockedStore} {pid : Nat}

theorem LockedStore.phases_setPhase (store : LockedStore) (pid : Nat) (phase : StorePhase) (other : Nat) :
    (store.setPhase pid phase).phases other = if other = pid then phase else store.phases other :=
  Function.update_apply store.phases pid phase other

/-- A process goes on to a place outside of locked sections. -/
theorem Orderly.setPhase (orderly : Orderly store) {phase : StorePhase}
    (outside : ∀ since, phase ≠ .inside since)
    (old : ∀ deadline checked, phase = .stale deadline checked →
      checked.madeAt + STALE_LOCK_MS < store.now) : Orderly (store.setPhase pid phase) where
  locked other since here := by
    rw [LockedStore.phases_setPhase] at here
    split_ifs at here
    · exact absurd here (outside since)
    · exact orderly.locked other since here
  stale other deadline checked here := by
    rw [LockedStore.phases_setPhase] at here
    split_ifs at here
    · exact old deadline checked here
    · exact orderly.stale other deadline checked here
  counted := orderly.counted
  distinct := orderly.distinct

/-- A lock is removed under which no other process works. -/
theorem Orderly.unlock (orderly : Orderly store) {phase : StorePhase}
    (outside : ∀ since, phase ≠ .inside since)
    (notStale : ∀ deadline checked, phase ≠ .stale deadline checked)
    (nobody : ∀ other, other ≠ pid → ∀ since, store.phases other ≠ .inside since) :
    Orderly ((store.setLock none).setPhase pid phase) where
  locked other since here := by
    rw [LockedStore.phases_setPhase] at here
    split_ifs at here with same
    · exact absurd here (outside since)
    · exact absurd here (nobody other same since)
  stale other deadline checked here := by
    rw [LockedStore.phases_setPhase] at here
    split_ifs at here
    · exact absurd here (notStale deadline checked)
    · exact orderly.stale other deadline checked here
  counted := orderly.counted
  distinct := orderly.distinct

/-- The directory is made when there is none, and only then. -/
theorem Orderly.makeDir (orderly : Orderly store) (deadline : Nat) :
    Orderly (store.makeDir pid deadline) := by
  rw [LockedStore.makeDir]
  cases lock : store.lockDir with
  | some dir => exact orderly.setPhase nofun nofun
  | none =>
      refine ⟨fun other since here => ?_, fun other deadline checked here => ?_, orderly.counted,
        orderly.distinct⟩
      · rw [LockedStore.phases_setPhase] at here
        split_ifs at here with same
        · cases here
          rw [same]
          rfl
        · exact absurd ((orderly.locked other since here).symm.trans lock) nofun
      · rw [LockedStore.phases_setPhase] at here
        split_ifs at here
        exact orderly.stale other deadline checked here

theorem Orderly.checkAge (orderly : Orderly store) (deadline : Nat) :
    Orderly (store.setPhase pid (store.checkAge deadline)) := by
  rw [LockedStore.checkAge]
  cases store.lockDir with
  | none => exact orderly.setPhase nofun nofun
  | some dir =>
      dsimp only
      split_ifs with old
      · refine orderly.setPhase nofun ?_
        rintro _ _ ⟨⟩
        exact old
      · exact orderly.setPhase nofun nofun

theorem counter_issue (store : LockedStore) (file : JsString) (n : Nat) (other : JsString) :
    (store.issue file n).counter other = if other = file then n else store.counter other := by
  show (Function.update store.counters file (some n) other).getD 0 = _
  rw [Function.update_apply]
  split_ifs <;> rfl

/-- The next number has not been issued before. -/
theorem Orderly.issue (orderly : Orderly store) (file : JsString) :
    Orderly (store.issue file (store.counter file + 1)) where
  locked := orderly.locked
  stale := orderly.stale
  counted other n member := by
    rw [counter_issue]
    rcases List.mem_cons.mp member with same | earlier
    · cases same
      rw [if_pos rfl]
    · have before := orderly.counted other n earlier
      split_ifs with same
      · rw [same] at before
        omega
      · exact before
  distinct := by
    refine List.nodup_cons.mpr ⟨fun member => ?_, orderly.distinct⟩
    have before := orderly.counted file _ member
    omega

theorem Orderly.tick (orderly : Orderly store) (ms : Nat) :
    Orderly { store with now := store.now + ms } where
  locked := orderly.locked
  stale other deadline checked here :=
    Nat.lt_of_lt_of_le (orderly.stale other deadline checked here) (Nat.le_add_right _ _)
  counted := orderly.counted
  distinct := orderly.distinct

/-- Nobody works under a lock that is stale. -/
theorem Orderly.nobody_stale (orderly : Orderly store) (prompt : Prompt store) {deadline : Nat}
    {checked : LockDir} (here : store.phases pid = .stale deadline checked)
    (same : store.lockDir.all (fun dir => dir = checked) = true) (other since : Nat) :
    store.phases other ≠ .inside since := by
  intro inside
  have old := orderly.stale pid deadline checked here
  have young := prompt other since inside
  rw [orderly.locked other since inside, Option.all_some, decide_eq_true_eq] at same
  rw [← same] at old
  exact absurd young (Nat.not_le_of_lt old)

theorem Orderly.nobody_spent (orderly : Orderly store)
    (free : store.lockDir.all (fun dir => store.phases dir.owner ≠ .inside dir.madeAt) = true)
    (other since : Nat) : store.phases other ≠ .inside since := by
  intro inside
  rw [orderly.locked other since inside, Option.all_some, decide_eq_true_eq] at free
  exact free inside

theorem Orderly.step (orderly : Orderly store) {move : StoreMove} (prompt : Prompt store)
    (undisturbed : Undisturbed store (pid, move)) : Orderly (storeStep (pid, move) store) := by
  rw [storeStep]
  rw [Undisturbed] at undisturbed
  generalize here : store.phases pid = phase at undisturbed ⊢
  unfold LockedStore.move
  split
  next => exact orderly.setPhase nofun nofun
  next deadline => exact orderly.makeDir deadline
  next deadline => exact orderly.checkAge deadline
  next deadline checked =>
      exact orderly.unlock nofun nofun fun other _ =>
        orderly.nobody_stale prompt here undisturbed other
  next deadline =>
      split_ifs
      · exact orderly.setPhase nofun nofun
      · exact orderly.setPhase nofun nofun
  next deadline =>
      exact orderly.unlock nofun nofun fun other _ => orderly.nobody_spent undisturbed other
  next deadline wakesAt =>
      split_ifs
      · exact orderly.setPhase nofun nofun
      · exact orderly
  next since =>
      refine orderly.unlock nofun nofun fun other different otherSince inside => different ?_
      exact orderly.serialized.1 other pid otherSince since inside here
  next file => exact orderly.setPhase nofun nofun
  next file n =>
      rw [of_decide_eq_true undisturbed]
      exact (orderly.issue file).setPhase nofun nofun
  next => exact orderly.setPhase nofun nofun
  next ms => exact orderly.tick ms
  next => exact orderly

end Steps

/-- A store before any process has come to it. -/
structure Untouched (store : LockedStore) : Prop where
  outside : ∀ pid, store.phases pid = .outside
  issued : store.issued = []

theorem Untouched.orderly {store : LockedStore} (untouched : Untouched store) : Orderly store where
  locked pid since here := nomatch (untouched.outside pid).symm.trans here
  stale pid deadline checked here := nomatch (untouched.outside pid).symm.trans here
  counted file n member := by
    rw [untouched.issued] at member
    cases member
  distinct := by
    rw [untouched.issued]
    exact List.nodup_nil

/-- While every holder is prompt, a process that has lost its patience removes no lock under which
another one works, a stale lock that is removed is the one that was looked at, and no two counts
of one counter overlap, locked sections exclude one another and the numbers are distinct. -/
theorem serialized_of_undisturbed {store : LockedStore} (untouched : Untouched store)
    {steps : List (Nat × StoreMove)}
    (prompt : EveryStep storeStep (fun store _ => Prompt store) steps store)
    (undisturbed : EveryStep storeStep Undisturbed steps store) :
    ∀ before, before <+: steps → Serialized (run storeStep before store) := by
  intro before part
  have conditions := prompt.and undisturbed
  exact ((conditions.of_prefix part).invariant untouched.orderly
    fun _ _ conditions orderly => orderly.step conditions.1 conditions.2).serialized

/-! ## Runs -/

def newStore : LockedStore where
  now := 0
  lockDir := none
  counters _ := none
  phases _ := .outside
  issued := []

theorem untouched_newStore : Untouched newStore :=
  ⟨fun _ => rfl, rfl⟩

/-- No lock is stale at first. -/
theorem prompt_of_early {steps : List (Nat × StoreMove)} {store : LockedStore}
    (early : EveryStep storeStep (fun store _ => store.now ≤ STALE_LOCK_MS) steps store) :
    EveryStep storeStep (fun store _ => Prompt store) steps store :=
  early.mono fun _ _ before _ since _ => Nat.le_trans before (Nat.le_add_left _ since)

/-- A process waits for five seconds while another one works. -/
def impatient : List (Nat × StoreMove) :=
  [(1, .lock), (1, .makeDir), (2, .lock), (2, .makeDir), (2, .checkAge), (1, .tick 5000),
    (2, .checkDeadline), (2, .breakSpent), (2, .makeDir)]

theorem not_serialized : ¬ ∀ store, Untouched store → ∀ steps,
    EveryStep storeStep (fun store _ => Prompt store) steps store →
      Serialized (run storeStep steps store) := by
  intro serialized
  have both := (serialized newStore untouched_newStore impatient
    (prompt_of_early (by decide +kernel))).1 1 2 0 5000 (by decide +kernel) (by decide +kernel)
  exact absurd both (by decide)

/-- A process waits for another one, and both count. -/
def patient : List (Nat × StoreMove) :=
  [(1, .lock), (1, .makeDir), (2, .lock), (2, .makeDir), (2, .checkAge), (2, .checkDeadline),
    (1, .leave), (1, .tick 25), (2, .wake), (2, .makeDir), (1, .count (js "planner-default.json")),
    (1, .record), (2, .leave), (2, .count (js "planner-default.json")), (2, .record)]

theorem serialized_patient : Serialized (run storeStep patient newStore) :=
  serialized_of_undisturbed untouched_newStore (prompt_of_early (by decide +kernel))
    (by decide +kernel) patient List.prefix_rfl

end SpecAsCode.Harness
