import SpecAsCode.Lib.History
import SpecAsCode.Runtime.CrashRecovery

/-!
# Several stores over one log file

Processes that work on one run open stores of their own over the log file of the run.  A
store reads the file when it is opened and remembers what it read and what it appended; an
append of another store reaches the file and not its memory.
-/

namespace SpecAsCode.Runtime

open SpecAsCode.Js
open SpecAsCode.Text
open SpecAsCode.History

/-- What a process does with its store. -/
inductive WriterOp (Writer Draft : Type) where
  /-- A store is made without reading the file. -/
  | create (writer : Writer)
  /-- A store is made and reads the file. -/
  | load (writer : Writer)
  | append (writer : Writer) (draft : Draft)

/-- The file, the stores over it and the records that were appended, in their order. -/
structure SharedLog (Writer Store Record : Type) where
  file : Option (List Octet)
  stores : Writer → Option Store
  log : List Record

/-- There is no file and no store yet. -/
def SharedLog.start {Writer Store Record : Type} : SharedLog Writer Store Record :=
  ⟨none, fun _ => none, []⟩

section Shared

variable {Writer Record State Refusal Store Input Error Draft : Type} [DecidableEq Writer]
  (journal : Journal Record State Refusal Store Input Error) (mint : Store → Draft → Input)

/-- A store is kept under the name of its writer. -/
def SharedLog.keep (shared : SharedLog Writer Store Record) (writer : Writer) (store : Store) :
    SharedLog Writer Store Record :=
  { shared with stores := Function.update shared.stores writer (some store) }

/-- A record reaches the file and the memory of the store that appended it. -/
def SharedLog.push (shared : SharedLog Writer Store Record) (writer : Writer) (next : Store)
    (record : Record) : SharedLog Writer Store Record where
  file := appendLine shared.file (journal.line record)
  stores := Function.update shared.stores writer (some next)
  log := shared.log ++ [record]

/-- One operation.  A process whose `load` throws has no store, and an append that throws
leaves no record. -/
def SharedLog.act (op : WriterOp Writer Draft) (shared : SharedLog Writer Store Record) :
    SharedLog Writer Store Record :=
  match op with
  | .create writer => shared.keep writer (journal.ofState journal.start)
  | .load writer =>
      match journal.load shared.file with
      | .error _ => shared
      | .ok store => shared.keep writer store
  | .append writer draft =>
      match shared.stores writer with
      | none => shared
      | some store =>
          match journal.append store shared.file (mint store draft) with
          | .error _ => shared
          | .ok (next, record) => shared.push journal writer next record

@[simp]
theorem SharedLog.push_stores_self (shared : SharedLog Writer Store Record) (writer : Writer)
    (next : Store) (record : Record) :
    (shared.push journal writer next record).stores writer = some next :=
  Function.update_self ..

variable (Follows : Store → List JsString → Prop) (stored : Record → Record) (Sound : Store → Prop)

/-- A store remembers the first records of the log. -/
structure Remembers (store : Store) (log : List Record) : Prop where
  sound : Sound store
  records : (journal.records store).map stored <+: log.map stored

/-- The file holds the log, and every store remembers the beginning of it. -/
structure SharedLog.Consistent (shared : SharedLog Writer Store Record) : Prop where
  written : ∃ texts reference, Complete shared.file texts ∧ Follows reference texts ∧
    (journal.records reference).map stored = shared.log.map stored
  remembered : ∀ writer store, shared.stores writer = some store →
    Remembers journal stored Sound store shared.log

/-- What several stores over one journal rest on: whether a store follows a file depends on
what it remembers and on nothing else but `Sound`. -/
structure Journal.SharedLaws : Prop where
  fresh : Follows (journal.ofState journal.start) [] ∧
    journal.records (journal.ofState journal.start) = []
  sound : ∀ store texts, Follows store texts → Sound store
  follows : ∀ store other texts, Sound store →
    (journal.records store).map stored = (journal.records other).map stored →
    Follows other texts → Follows store texts

variable {journal mint Follows stored Sound} {Plain : Input → Prop}
  {shared : SharedLog Writer Store Record}

omit [DecidableEq Writer] in
theorem Remembers.mono {store : Store} {log : List Record}
    (remembers : Remembers journal stored Sound store log) (record : Record) :
    Remembers journal stored Sound store (log ++ [record]) := by
  refine ⟨remembers.sound, remembers.records.trans ?_⟩
  rw [List.map_append]
  exact List.prefix_append _ _

omit [DecidableEq Writer] in
/-- A store that remembers as many records as there are follows the file. -/
theorem Remembers.follows (laws : journal.SharedLaws Follows stored Sound) {store reference : Store}
    {log : List Record} {texts : List JsString}
    (remembers : Remembers journal stored Sound store log) (follows : Follows reference texts)
    (records : (journal.records reference).map stored = log.map stored)
    (all : (journal.records store).length = log.length) : Follows store texts := by
  have same := remembers.records.eq_of_length (by rw [List.length_map, List.length_map, all])
  exact laws.follows store reference texts remembers.sound (same.trans records.symm) follows

omit [DecidableEq Writer] in
theorem SharedLog.consistent_start (laws : journal.SharedLaws Follows stored Sound) :
    (SharedLog.start : SharedLog Writer Store Record).Consistent journal Follows stored Sound := by
  refine ⟨⟨[], _, Or.inr ⟨rfl, rfl⟩, laws.fresh.1, ?_⟩, nofun⟩
  rw [laws.fresh.2]
  rfl

/-- A store that remembers the beginning of the log may be kept. -/
theorem SharedLog.Consistent.keep (consistent : shared.Consistent journal Follows stored Sound)
    (writer : Writer) {store : Store}
    (remembers : Remembers journal stored Sound store shared.log) :
    (shared.keep writer store).Consistent journal Follows stored Sound := by
  refine ⟨consistent.written, fun other kept found => ?_⟩
  simp only [SharedLog.keep, Function.update_apply] at found
  split at found
  next =>
    cases found
    exact remembers
  next => exact consistent.remembered other kept found

theorem SharedLog.Consistent.create (laws : journal.SharedLaws Follows stored Sound)
    (consistent : shared.Consistent journal Follows stored Sound) (writer : Writer) :
    (shared.act journal mint (.create writer)).Consistent journal Follows stored Sound := by
  refine consistent.keep writer ⟨laws.sound _ _ laws.fresh.1, ?_⟩
  rw [laws.fresh.2]
  exact List.nil_prefix

omit [DecidableEq Writer] in
/-- The file is loaded as the records of the log. -/
theorem SharedLog.Consistent.loads (laws : journal.Laws Follows stored Plain)
    (shares : journal.SharedLaws Follows stored Sound)
    (consistent : shared.Consistent journal Follows stored Sound) :
    ∃ store, journal.load shared.file = .ok store ∧
      journal.records store = shared.log.map stored ∧
      Remembers journal stored Sound store shared.log := by
  obtain ⟨texts, reference, complete, follows, records⟩ := consistent.written
  have twice : (shared.log.map stored).map stored = shared.log.map stored := by
    rw [List.map_map]
    exact List.map_congr_left fun record _ => laws.stored_stored record
  rcases complete with file | ⟨file, rfl⟩
  · obtain ⟨state, lines, accepts, held, loaded⟩ := laws.loads reference texts follows
    refine ⟨journal.ofState state, ?_, held.trans records, shares.sound _ _ loaded, ?_⟩
    · rw [file, Journal.load, loadFile_complete lines accepts]
      rfl
    · rw [held, records, twice]
  · obtain ⟨state, lines, accepts, held, loaded⟩ := laws.loads reference [] follows
    have nothing : (journal.records reference).map stored = [] := List.forall₂_nil_left_iff.mp lines
    refine ⟨journal.ofState journal.start, by rw [file]; rfl, ?_, shares.sound _ _ shares.fresh.1, ?_⟩
    · rw [shares.fresh.2, ← records, nothing]
    · rw [shares.fresh.2]
      exact List.nil_prefix

theorem SharedLog.Consistent.load (laws : journal.Laws Follows stored Plain)
    (shares : journal.SharedLaws Follows stored Sound)
    (consistent : shared.Consistent journal Follows stored Sound) (writer : Writer) :
    (shared.act journal mint (.load writer)).Consistent journal Follows stored Sound := by
  obtain ⟨store, loaded, -, remembers⟩ := consistent.loads laws shares
  rw [SharedLog.act, loaded]
  exact consistent.keep writer remembers

/-- A record that continues the file may be pushed. -/
theorem SharedLog.Consistent.push (shares : journal.SharedLaws Follows stored Sound)
    (consistent : shared.Consistent journal Follows stored Sound) (writer : Writer) {next : Store}
    {record : Record} {texts : List JsString} (complete : Complete shared.file texts)
    (follows : Follows next (texts ++ [journal.line record]))
    (records : (journal.records next).map stored = (shared.log ++ [record]).map stored) :
    (shared.push journal writer next record).Consistent journal Follows stored Sound := by
  refine ⟨⟨_, next, complete.append _, follows, records⟩, fun other kept found => ?_⟩
  simp only [SharedLog.push, Function.update_apply] at found
  split at found
  next =>
    cases found
    exact ⟨shares.sound _ _ follows, records ▸ List.prefix_rfl⟩
  next => exact (consistent.remembered other kept found).mono record

omit [DecidableEq Writer] in
/-- Records are only added to the log. -/
theorem SharedLog.log_prefix_act [DecidableEq Writer] (op : WriterOp Writer Draft) :
    shared.log <+: (shared.act journal mint op).log := by
  cases op with
  | create writer => exact List.prefix_rfl
  | load writer =>
      rw [SharedLog.act]
      split <;> exact List.prefix_rfl
  | append writer draft =>
      rw [SharedLog.act]
      split
      · exact List.prefix_rfl
      · split
        · exact List.prefix_rfl
        · exact List.prefix_append _ _

theorem SharedLog.log_prefix_run (ops : List (WriterOp Writer Draft)) :
    ∀ shared : SharedLog Writer Store Record,
      shared.log <+: (run (SharedLog.act journal mint) ops shared).log := by
  induction ops with
  | nil => exact fun shared => List.prefix_rfl
  | cons op ops inductionHypothesis =>
      exact fun shared => (log_prefix_act op).trans (inductionHypothesis _)

end Shared

end SpecAsCode.Runtime
