import SpecAsCode.Runtime.ExecutionIntent

/-!
# Workspace ownership

Every apply that changes a workspace first takes the kernel lock and then looks at the
safety block.  The block is written once ownership is granted.
-/

namespace SpecAsCode.Runtime

open SpecAsCode.Js
open SpecAsCode.Text

inductive ApplyMode where
  | inPlace
  | worktree
  deriving DecidableEq, Repr

structure ApplyOwnerInfo where
  runId : JsString
  planId : JsString
  specId : JsString
  specTitle : JsString
  mode : ApplyMode
  deriving DecidableEq

/-- What an acquisition finds outside of the record: the run whose task the process
executes, and what `tryExclusiveLock` returns or throws. -/
structure ApplySurroundings where
  activeRunId : JsString
  lock : Except Thrown Bool

/-- `detectRecursiveApply`: the variable is set to a text that is not empty. -/
def detectRecursiveApply (activeRunId : JsString) : Option JsString :=
  if activeRunId = [] then
    none
  else
    some (js ("recursive spc apply detected: this process is already executing a task in run ") ++
      activeRunId ++ js "; an apply cannot be started from inside a task")

/-- `value` inside of a template literal. -/
def inTemplate (value : JsValue) : Except Thrown JsString :=
  match value.toText with
  | none => .error .typeError
  | some text => .ok text

/-- `value.length` inside of a template literal, for an array. -/
def lengthText : JsValue → JsString
  | .array items => natText items.length
  | _ => js "undefined"

/-- Who holds the lock, as far as the record tells. -/
def holderInfo (read : IntentRead) : Except Thrown JsString :=
  match read with
  | .intent record =>
      (inTemplate (record.property (js "runId"))).bind fun runId =>
        (inTemplate (record.property (js "planId"))).bind fun planId =>
          (inTemplate ((record.property (js "coordinator")).property (js "pid"))).map fun pid =>
            js "run " ++ runId ++ js " (spec: " ++ runId ++ js ", plan " ++ planId ++
              js ", pid " ++ pid ++ js ")"
  | .failure _ _ =>
      .ok (js "another process holds the workspace lock (no intent record readable)")

def alreadyRunning (holder : JsString) : Thrown :=
  .error (js "APPLY_ALREADY_RUNNING")
    (js "this workspace's apply lock is held by " ++ holder ++ js ("\n\n" ++
      "Concurrent applies share one harness queue and one plan namespace;\n" ++
      "this launch refused rather than interleave.\n\n" ++
      "Check it:    spc apply owner   (three-authority report)\n" ++
      "Then decide: spc run cancel <runId> (stale, stuck, or superseded)"))

/-- The refusal in the presence of a record. -/
def workspaceUnsafe (record : JsValue) : Thrown :=
  match (inTemplate (record.property (js "runId"))).bind fun runId =>
      (inTemplate (record.property (js "cause"))).map fun cause =>
        js "workspace safety block: execution-intent from run " ++ runId ++ js " is present\n" ++
          js "(cause: " ++ cause ++ js ", " ++ lengthText (record.property (js "workers")) ++
          js (" worker(s) recorded)\n\n" ++
            "The prior run may have been interrupted with workers still active.\n" ++
            "Recover: spc apply recover\n" ++ "Inspect: spc apply owner") with
  | .error thrown => thrown
  | .ok message => .error (js "APPLY_WORKSPACE_UNSAFE") message

section Acquire

variable (surroundings : ApplySurroundings) (owner : ApplyOwnerInfo) (file : IntentFile)

/-- `acquireOwnership`.  The handle carries the lock and the owner. -/
def acquireOwnership : Except Thrown ApplyOwnerInfo :=
  match detectRecursiveApply surroundings.activeRunId with
  | some recursive => .error (.error (js "APPLY_RECURSIVE") recursive)
  | none =>
      match surroundings.lock with
      | .error thrown => .error thrown
      | .ok false =>
          (readIntent file).bind fun read =>
            (holderInfo read).bind fun holder => .error (alreadyRunning holder)
      | .ok true =>
          (readIntent file).bind fun read =>
            match read with
            | .intent record => .error (workspaceUnsafe record)
            | .failure _ _ => .ok owner

/-- What the coordinator writes into the first record besides the owner. -/
structure Initialization where
  coordinator : CoordinatorIdentity
  startedAt : JsString
  restoration : RestorationContext

/-- The record of `initializeIntent`. -/
def initialIntent (initialization : Initialization) (handle : ApplyOwnerInfo) : ExecutionIntent where
  cause := .none
  coordinator := initialization.coordinator
  workers := []
  startedAt := initialization.startedAt
  runId := handle.runId
  planId := handle.planId
  restoration := initialization.restoration

/-- `acquireOwnership` and `initializeIntent`: the handle or what is thrown, and the file
before anything is executed. -/
def beginOwnership (initialization : Initialization) :
    Except Thrown ApplyOwnerInfo × IntentFile :=
  match acquireOwnership surroundings owner file with
  | .error thrown => (.error thrown, file)
  | .ok handle => (.ok handle, writeIntent (initialIntent initialization handle))

/-! ## The safety block -/

/-- Ownership is refused whatever the record says. -/
def ApplySurroundings.Refuse (surroundings : ApplySurroundings) : Prop :=
  surroundings.activeRunId ≠ [] ∨ surroundings.lock ≠ .ok true

/-- The block holds: the record is read without throwing, execution is not granted and the
record stays as it is. -/
structure FailsClosed (initialization : Initialization) : Prop where
  reads : ∃ read, readIntent file = .ok read
  refuses : ∀ handle, acquireOwnership surroundings owner file ≠ .ok handle
  keeps : (beginOwnership surroundings owner file initialization).2 = file

end Acquire

variable {surroundings : ApplySurroundings} {owner : ApplyOwnerInfo} {file : IntentFile}

theorem acquireOwnership_of_refuse (refuse : surroundings.Refuse) (handle : ApplyOwnerInfo) :
    acquireOwnership surroundings owner file ≠ .ok handle := by
  obtain ⟨activeRunId, lock⟩ := surroundings
  rw [acquireOwnership]
  by_cases recursive : activeRunId = []
  · subst recursive
    match lock, refuse with
    | .error thrown, _ => exact nofun
    | .ok false, _ =>
        show (readIntent file).bind _ ≠ _
        cases readIntent file with
        | error thrown => exact nofun
        | ok read =>
            show (holderInfo read).bind _ ≠ _
            cases holderInfo read <;> exact nofun
    | .ok true, refuse => exact absurd refuse (by simp [ApplySurroundings.Refuse])
  · simp only [detectRecursiveApply, if_neg recursive]
    exact nofun

/-- With the lock taken outside of any task, the record alone decides. -/
theorem acquireOwnership_of_not_refuse (free : ¬ surroundings.Refuse) :
    acquireOwnership surroundings owner file =
      (readIntent file).bind fun read =>
        match read with
        | .intent record => .error (workspaceUnsafe record)
        | .failure _ _ => .ok owner := by
  obtain ⟨activeRunId, lock⟩ := surroundings
  simp only [ApplySurroundings.Refuse, not_or, not_not] at free
  obtain ⟨rfl, rfl⟩ := free
  rfl

/-- Execution is granted without a record, unless reading throws. -/
theorem acquireOwnership_eq_ok_iff (handle : ApplyOwnerInfo) :
    acquireOwnership surroundings owner file = .ok handle ↔
      handle = owner ∧ ¬ surroundings.Refuse ∧ ¬ file.Unprintable ∧ ¬ file.Recorded := by
  by_cases refuse : surroundings.Refuse
  · exact ⟨fun granted => absurd granted (acquireOwnership_of_refuse refuse handle),
      fun granted => absurd refuse granted.2.1⟩
  rw [acquireOwnership_of_not_refuse refuse, ← readIntent_eq_intent_iff]
  cases read : readIntent file with
  | error thrown =>
      have stuck := ((readIntent_throws_iff file thrown).mp read).2
      exact ⟨nofun, fun granted => absurd stuck granted.2.2.1⟩
  | ok result =>
      have printable : ¬ file.Unprintable := by
        intro stuck
        rw [(readIntent_throws_iff file .typeError).mpr ⟨rfl, stuck⟩] at read
        cases read
      cases result with
      | intent record =>
          exact ⟨nofun, fun granted => absurd ⟨record, rfl⟩ granted.2.2.2⟩
      | failure reason detail =>
          refine ⟨fun granted => ⟨(Except.ok.inj granted).symm, refuse, printable, ?_⟩,
            fun granted => congrArg Except.ok granted.1.symm⟩
          rintro ⟨record, other⟩
          cases other

/-- The block fails closed on a file that is there if and only if reading does not throw, and
either ownership is refused in any case or the file holds a record. -/
theorem safety_block_iff (surroundings : ApplySurroundings) (owner : ApplyOwnerInfo)
    (initialization : Initialization) (file : IntentFile) :
    (file ≠ .absent → FailsClosed surroundings owner file initialization) ↔
      file = .absent ∨ (¬ file.Unprintable ∧ (surroundings.Refuse ∨ file.Recorded)) := by
  constructor
  · intro closed
    by_cases absent : file = .absent
    · exact Or.inl absent
    obtain ⟨⟨read, reads⟩, refuses, -⟩ := closed absent
    have printable : ¬ file.Unprintable := by
      intro stuck
      rw [(readIntent_throws_iff file .typeError).mpr ⟨rfl, stuck⟩] at reads
      cases reads
    refine Or.inr ⟨printable, ?_⟩
    by_contra open_
    rw [not_or] at open_
    exact refuses owner ((acquireOwnership_eq_ok_iff owner).mpr ⟨rfl, open_.1, printable, open_.2⟩)
  · intro condition present
    obtain ⟨printable, blocked⟩ := condition.resolve_left present
    have refuses : ∀ handle, acquireOwnership surroundings owner file ≠ .ok handle := by
      intro handle granted
      obtain ⟨-, free, -, empty⟩ := (acquireOwnership_eq_ok_iff handle).mp granted
      exact blocked.elim free empty
    refine ⟨?_, refuses, ?_⟩
    · cases read : readIntent file with
      | ok result => exact ⟨result, rfl⟩
      | error thrown => exact absurd ((readIntent_throws_iff file thrown).mp read).2 printable
    · rw [beginOwnership]
      cases acquired : acquireOwnership surroundings owner file with
      | ok handle => exact absurd acquired (refuses handle)
      | error thrown => rfl

/-- A process outside of any task that gets the lock. -/
def freeWorkspace : ApplySurroundings where
  activeRunId := []
  lock := .ok true

def planOwner : ApplyOwnerInfo where
  runId := []
  planId := js "PLAN-1"
  specId := js "spec"
  specTitle := []
  mode := .inPlace

def mainCheckout : Initialization where
  coordinator := ⟨4711, js "2026-01-01T00:00:00.000Z", js "host"⟩
  startedAt := js "2026-01-01T00:00:01.000Z"
  restoration := ⟨js "main", js "0a1b2c", js "main"⟩

/-- A record that was cut off before its first octet does not block: execution is granted and
the record is written anew.  `null` makes the reader throw. -/
theorem truncated_record_granted :
    ¬ (IntentFile.content [] ≠ .absent →
        FailsClosed freeWorkspace planOwner (.content []) mainCheckout) ∧
      acquireOwnership freeWorkspace planOwner (.content []) = .ok planOwner ∧
      (beginOwnership freeWorkspace planOwner (.content []) mainCheckout).2 ≠ .content [] ∧
      readIntent (.content (encodeUtf8 (js "null"))) = .error .typeError := by
  have granted : acquireOwnership freeWorkspace planOwner (.content []) = .ok planOwner := by
    rfl
  refine ⟨fun closed => (closed nofun).refuses planOwner granted, granted, ?_, ?_⟩
  · rw [beginOwnership, granted]
    exact nofun
  · exact (readIntent_throws_iff _ _).mpr ⟨rfl, _, .null, rfl, by rfl, Or.inl rfl⟩

end SpecAsCode.Runtime
