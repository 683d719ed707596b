import Mathlib.Data.List.Basic

/-!
# Crash points

An operation that looks at a disk and then makes writes one after another.  A crash leaves
the disk with the first of them, and a retry looks at the disk again.
-/

namespace SpecAsCode.CrashPoints

variable {Disk Write : Type} (apply : Write → Disk → Disk) (plan : Disk → List Write)

/-- The disk after some writes. -/
def perform (writes : List Write) (disk : Disk) : Disk :=
  writes.foldl (fun disk write => apply write disk) disk

/-- The disk after the whole operation. -/
def completed (disk : Disk) : Disk :=
  perform apply (plan disk) disk

/-- The disk after a crash that let `count` writes through. -/
def crashed (count : Nat) (disk : Disk) : Disk :=
  perform apply ((plan disk).take count) disk

/-- The disk after a crash and a retry that was not interrupted. -/
def retried (count : Nat) (disk : Disk) : Disk :=
  completed apply plan (crashed apply plan count disk)

variable {apply plan}

theorem perform_append (first second : List Write) (disk : Disk) :
    perform apply (first ++ second) disk = perform apply second (perform apply first disk) :=
  List.foldl_append

@[simp]
theorem perform_cons (write : Write) (writes : List Write) (disk : Disk) :
    perform apply (write :: writes) disk = perform apply writes (apply write disk) := rfl

@[simp]
theorem perform_nil (disk : Disk) : perform apply [] disk = disk := rfl

/-- A crash before the first write. -/
@[simp]
theorem retried_zero (disk : Disk) : retried apply plan 0 disk = completed apply plan disk := rfl

/-- A crash after the last write. -/
theorem crashed_all {count : Nat} {disk : Disk} (all : (plan disk).length ≤ count) :
    crashed apply plan count disk = completed apply plan disk := by
  rw [crashed, List.take_of_length_le all, completed]

/-- A disk on which the operation has nothing to do stays as it is. -/
theorem completed_of_plan_nil {disk : Disk} (nothing : plan disk = []) :
    completed apply plan disk = disk := by
  rw [completed, nothing, perform_nil]

/-- A retry that has nothing to do leaves what the crash has left. -/
theorem retried_of_plan_nil {count : Nat} {disk : Disk}
    (nothing : plan (crashed apply plan count disk) = []) :
    retried apply plan count disk = crashed apply plan count disk :=
  completed_of_plan_nil nothing

/-- What is missing after a crash is what the remaining writes would have done. -/
theorem completed_eq_perform_drop (count : Nat) (disk : Disk) :
    completed apply plan disk =
      perform apply ((plan disk).drop count) (crashed apply plan count disk) := by
  rw [completed, crashed, ← perform_append, List.take_append_drop]

end SpecAsCode.CrashPoints
