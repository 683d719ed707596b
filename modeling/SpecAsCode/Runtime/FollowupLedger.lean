import Mathlib.Data.List.Nodup
import Mathlib.Data.List.Sublists
import SpecAsCode.Js.Integer
import SpecAsCode.Lib.History
import SpecAsCode.Runtime.Followups

/-!
# Several stores over one follow-up file

A follow-up store reads the file of the run only when it is told to, numbers a new follow-up
by what it remembers, and writes everything it remembers over the file.
-/

namespace SpecAsCode.Runtime

open SpecAsCode.Js
open SpecAsCode.Schema
open SpecAsCode.History

/-- What a process does with a follow-up store. -/
inductive LedgerOp (Writer : Type) where
  /-- `new FollowupStore(file)`. -/
  | make (writer : Writer)
  /-- `new FollowupStore(file)` and `load()`. -/
  | load (writer : Writer)
  /-- `create`, and the event `FOLLOWUP_CREATED`. -/
  | create (writer : Writer) (draft : FollowUpDraft) (runId now : JsString)
  | resolve (writer : Writer) (id : JsString) (resolution : Resolution) (now : JsString)

/-- `followups.json`, the stores over it, and the identifiers of the events
`FOLLOWUP_CREATED` in their order. -/
structure Ledger (Writer : Type) where
  file : FollowupStore
  stores : Writer → Option FollowupStore
  created : List JsString

/-- A run that has no follow-up and no store yet. -/
def Ledger.start {Writer : Type} : Ledger Writer :=
  ⟨[], fun _ => none, []⟩

namespace FollowupStore

/-- The identifiers of the follow-ups, in their order. -/
def ids (store : FollowupStore) : List JsString :=
  store.map FollowUp.id

/-- A follow-up with this identifier and this status is there. -/
def Holds (store : FollowupStore) (status : FollowUpStatus) (id : JsString) : Prop :=
  ∃ followup ∈ store, followup.id = id ∧ followup.status = status

/-- No follow-up that is resolved in the one store is open in the other, apart from those
that are excepted. -/
def NotReopened (before after : FollowupStore) (excepted : JsString → Prop) : Prop :=
  ∀ id, before.Holds .resolved id → ¬ excepted id → ¬ after.Holds .opened id

end FollowupStore

section Operations

variable {Writer : Type} [DecidableEq Writer]

/-- The store of a writer after it was read or changed. -/
def Ledger.keep (ledger : Ledger Writer) (writer : Writer) (store : FollowupStore) :
    Ledger Writer :=
  { ledger with stores := Function.update ledger.stores writer (some store) }

/-- `persist`: what the store of a writer holds becomes the file. -/
def Ledger.persist (ledger : Ledger Writer) (writer : Writer) (store : FollowupStore) :
    Ledger Writer :=
  { ledger.keep writer store with file := store }

/-- One operation.  A resolution writes only when its store has the follow-up open: it throws
without the follow-up, and returns when the follow-up was resolved before. -/
def Ledger.act (op : LedgerOp Writer) (ledger : Ledger Writer) : Ledger Writer :=
  match op with
  | .make writer => ledger.keep writer []
  | .load writer => ledger.keep writer (FollowupStore.load ledger.file)
  | .create writer draft runId now =>
      match ledger.stores writer with
      | none => ledger
      | some store =>
          let (next, followup) := store.create draft runId now
          { ledger.persist writer next with created := ledger.created ++ [followup.id] }
  | .resolve writer id resolution now =>
      match ledger.stores writer with
      | none => ledger
      | some store =>
          match store.withId id with
          | none => ledger
          | some followup =>
              if followup.status = .resolved then
                ledger
              else
                ledger.persist writer (FollowupStore.answerFirst id resolution now store)

/-- The file has exactly one record for every event, and no identifier is given twice. -/
structure Ledger.Coherent (ledger : Ledger Writer) : Prop where
  recorded : ∀ id ∈ ledger.created, ledger.file.ids.count id = 1
  distinct : ledger.file.ids.Nodup
  events : ledger.created.Nodup

/-- The ledger is coherent after every part of the run, and a follow-up that is resolved at one
point of it is open at no later one. -/
structure LedgerKept (ops : List (LedgerOp Writer)) : Prop where
  coherent : ∀ before after, ops = before ++ after → (run Ledger.act before .start).Coherent
  resolved : ∀ before between after, ops = before ++ between ++ after → ∀ id,
    (run Ledger.act before .start).file.Holds .resolved id →
      ¬ (run Ledger.act (before ++ between) .start).file.Holds .opened id

/-- A store that is about to write remembers every follow-up of the file, and as resolved those
that are resolved there; the one it resolves may be resolved there already. -/
def Ledger.UpToDate (ledger : Ledger Writer) (op : LedgerOp Writer) : Prop :=
  match op with
  | .create writer _ _ _ => ∀ store, ledger.stores writer = some store →
      store.ids = ledger.file.ids ∧ ledger.file.NotReopened store fun _ => False
  | .resolve writer id _ _ => ∀ store followup, ledger.stores writer = some store →
      store.withId id = some followup → followup.status = .opened →
      store.ids = ledger.file.ids ∧ ledger.file.NotReopened store fun other => other = id
  | _ => True

end Operations

namespace FollowupStore

/-! ## Follow-ups with one identifier each -/

theorem followupId_injective : Function.Injective followupId :=
  padded_injective (js "F-") 3

theorem holds_of_mem_ids {store : FollowupStore} {id : JsString} (member : id ∈ store.ids) :
    store.Holds .resolved id ∨ store.Holds .opened id := by
  obtain ⟨followup, found, same⟩ := List.mem_map.mp member
  cases status : followup.status with
  | opened => exact Or.inr ⟨followup, found, same, status⟩
  | resolved => exact Or.inl ⟨followup, found, same, status⟩

theorem Holds.mem_ids {store : FollowupStore} {status : FollowUpStatus} {id : JsString}
    (holds : store.Holds status id) : id ∈ store.ids := by
  obtain ⟨followup, found, same, -⟩ := holds
  exact List.mem_map.mpr ⟨followup, found, same⟩

/-- With distinct identifiers a resolved follow-up is not open as well. -/
theorem Holds.not_opened {store : FollowupStore} {id : JsString} (distinct : store.ids.Nodup)
    (resolved : store.Holds .resolved id) : ¬ store.Holds .opened id := by
  rintro ⟨other, otherMember, otherId, opened⟩
  obtain ⟨followup, member, same, isResolved⟩ := resolved
  have equal := List.inj_on_of_nodup_map distinct member otherMember (same.trans otherId.symm)
  rw [equal, opened] at isResolved
  cases isResolved

theorem holds_append {store more : FollowupStore} {status : FollowUpStatus} {id : JsString} :
    Holds (store ++ more) status id ↔ store.Holds status id ∨ Holds more status id := by
  simp only [Holds, List.mem_append, or_and_right, exists_or]

theorem ids_append (store more : FollowupStore) : ids (store ++ more) = store.ids ++ ids more :=
  List.map_append

theorem ids_answerFirst (id : JsString) (resolution : Resolution) (now : JsString)
    (store : FollowupStore) : (answerFirst id resolution now store).ids = store.ids := by
  induction store with
  | nil => rfl
  | cons first rest inductionHypothesis =>
      rw [answerFirst]
      split
      next => rfl
      next => exact congrArg (first.id :: ·) inductionHypothesis

/-- A follow-up with another identifier is left as it is. -/
theorem holds_answerFirst_ne {id other : JsString} (different : other ≠ id)
    (resolution : Resolution) (now : JsString) (store : FollowupStore) (status : FollowUpStatus) :
    (answerFirst id resolution now store).Holds status other ↔ store.Holds status other := by
  induction store with
  | nil => exact Iff.rfl
  | cons first rest inductionHypothesis =>
      have split_cons : ∀ (head : FollowUp) (tail : FollowupStore), Holds (head :: tail) status other ↔
          (head.id = other ∧ head.status = status) ∨ tail.Holds status other := fun head tail => by
        simp only [Holds, List.exists_mem_cons_iff]
      rw [answerFirst]
      split
      next same =>
        have kept : (answered first resolution now).id = id := same
        rw [split_cons, split_cons, kept, same]
        simp only [different.symm, false_and]
      next => rw [split_cons, split_cons, inductionHypothesis]

theorem mem_of_withId {store : FollowupStore} {id : JsString} {followup : FollowUp}
    (found : store.withId id = some followup) : followup ∈ store ∧ followup.id = id := by
  rw [withId] at found
  exact ⟨List.mem_of_find?_eq_some found, by simpa using List.find?_some found⟩

/-- The follow-up that is answered is resolved. -/
theorem holds_answerFirst_self {id : JsString} {store : FollowupStore} (member : id ∈ store.ids)
    (resolution : Resolution) (now : JsString) :
    (answerFirst id resolution now store).Holds .resolved id := by
  obtain ⟨followup, found, same⟩ := List.mem_map.mp member
  have isSome : (store.withId id).isSome := by
    rw [withId, List.find?_isSome]
    exact ⟨followup, found, decide_eq_true same⟩
  obtain ⟨first, search⟩ := Option.isSome_iff_exists.mp isSome
  obtain ⟨after, answeredId⟩ := mem_of_withId (withId_answerFirst search resolution now)
  exact ⟨answered first resolution now, after, answeredId, rfl⟩

end FollowupStore

/-! ## What up-to-date stores keep -/

section Steps

variable {Writer : Type} {ledger : Ledger Writer}

open FollowupStore

/-- The file holds the follow-ups of the events, numbered from one on, and every store
remembers some of them. -/
structure Ledger.Numbered (ledger : Ledger Writer) : Prop where
  created : ledger.created = ledger.file.ids
  numbers : ledger.file.ids = (List.range ledger.file.length).map fun index =>
    followupId (index + 1)
  remembered : ∀ writer store, ledger.stores writer = some store →
    store.ids.Sublist ledger.file.ids

theorem Ledger.numbered_start : (Ledger.start : Ledger Writer).Numbered :=
  ⟨rfl, rfl, fun _ _ found => nomatch found⟩

theorem Ledger.Numbered.distinct (numbered : ledger.Numbered) : ledger.file.ids.Nodup := by
  rw [numbered.numbers]
  exact List.nodup_range.map fun first second same =>
    Nat.succ_injective (followupId_injective same)

theorem Ledger.Numbered.coherent (numbered : ledger.Numbered) : ledger.Coherent where
  recorded _ member :=
    List.count_eq_one_of_mem numbered.distinct (numbered.created ▸ member)
  distinct := numbered.distinct
  events := numbered.created ▸ numbered.distinct

/-- The number of a new follow-up is used unless the store remembers every follow-up. -/
theorem Ledger.Numbered.mem_ids (numbered : ledger.Numbered) {number : Nat}
    (used : number < ledger.file.length) : followupId (number + 1) ∈ ledger.file.ids := by
  rw [numbered.numbers]
  exact List.mem_map.mpr ⟨number, List.mem_range.mpr used, rfl⟩

/-- A store that remembers as many follow-ups as there are remembers them all. -/
theorem Ledger.Numbered.ids_eq (numbered : ledger.Numbered) {writer : Writer}
    {store : FollowupStore} (kept : ledger.stores writer = some store)
    (all : ledger.file.length ≤ store.length) : store.ids = ledger.file.ids := by
  refine (numbered.remembered writer store kept).eq_of_length_le ?_
  rw [ids, ids, List.length_map, List.length_map]
  exact all

variable [DecidableEq Writer]

/-- A store may be kept when it remembers some of the follow-ups of the file. -/
theorem Ledger.Numbered.keep (numbered : ledger.Numbered) (writer : Writer) {store : FollowupStore}
    (remembers : store.ids.Sublist ledger.file.ids) : (ledger.keep writer store).Numbered := by
  refine ⟨numbered.created, numbered.numbers, fun other kept found => ?_⟩
  simp only [Ledger.keep, Function.update_apply] at found
  split at found
  next =>
    cases found
    exact remembers
  next => exact numbered.remembered other kept found

/-- What a store persists may become the file when the follow-ups are still there and those
behind them are new and numbered. -/
theorem Ledger.Numbered.persist (numbered : ledger.Numbered) (writer : Writer)
    {store : FollowupStore} (more : List JsString) (holds : store.ids = ledger.file.ids ++ more)
    (numbers : store.ids = (List.range store.length).map fun index => followupId (index + 1)) :
    ({ ledger.persist writer store with created := ledger.created ++ more }).Numbered := by
  refine ⟨?_, numbers, fun other kept found => ?_⟩
  · rw [numbered.created]
    exact holds.symm
  · simp only [Ledger.persist, Ledger.keep, Function.update_apply] at found
    split at found
    next =>
      cases found
      exact List.Sublist.refl _
    next =>
      refine (numbered.remembered other kept found).trans ?_
      show ledger.file.ids.Sublist store.ids
      rw [holds]
      exact List.sublist_append_left _ _

theorem ids_length (store : FollowupStore) : store.ids.length = store.length :=
  List.length_map _

/-- Up-to-date stores keep the follow-ups numbered. -/
theorem Ledger.Numbered.act (numbered : ledger.Numbered) {op : LedgerOp Writer}
    (upToDate : ledger.UpToDate op) : (ledger.act op).Numbered := by
  cases op with
  | make writer => exact numbered.keep writer (List.nil_sublist _)
  | load writer =>
      exact numbered.keep writer ((List.filter_sublist).map FollowUp.id)
  | create writer draft runId now =>
      rw [Ledger.act]
      split
      next => exact numbered
      next store kept =>
        obtain ⟨same, -⟩ := upToDate store kept
        have size : store.length = ledger.file.length := by
          rw [← ids_length, same, ids_length]
        have holds : ids (store ++ [store.opening draft runId now]) =
            ledger.file.ids ++ [followupId (store.length + 1)] := by
          rw [ids_append, same]
          rfl
        refine numbered.persist writer _ holds ?_
        rw [holds, numbered.numbers, List.length_append, List.length_singleton, List.range_succ,
          List.map_append, size]
        rfl
  | resolve writer id resolution now =>
      rw [Ledger.act]
      split
      next => exact numbered
      next store kept =>
        split
        next => exact numbered
        next followup found =>
          split
          next => exact numbered
          next unresolved =>
            obtain ⟨same, -⟩ := upToDate store followup kept found
              (FollowUpStatus.eq_opened unresolved)
            have holds : ids (answerFirst id resolution now store) = ledger.file.ids ++ [] := by
              rw [ids_answerFirst, same, List.append_nil]
            have size : (answerFirst id resolution now store).length = ledger.file.length := by
              rw [← ids_length, ids_answerFirst, same, ids_length]
            have next := numbered.persist writer [] holds (by
              rw [holds, List.append_nil, numbered.numbers, size])
            rwa [List.append_nil] at next

/-- What is resolved in the file stays resolved when up-to-date stores write. -/
theorem Ledger.resolved_act {op : LedgerOp Writer} (upToDate : ledger.UpToDate op) {id : JsString}
    (resolved : ledger.file.Holds .resolved id) : (ledger.act op).file.Holds .resolved id := by
  cases op with
  | make writer => exact resolved
  | load writer => exact resolved
  | create writer draft runId now =>
      rw [Ledger.act]
      split
      next => exact resolved
      next store kept =>
        obtain ⟨same, notReopened⟩ := upToDate store kept
        rcases holds_of_mem_ids (same ▸ resolved.mem_ids) with holds | opened
        · exact holds_append.mpr (Or.inl holds)
        · exact absurd opened (notReopened id resolved not_false)
  | resolve writer answer resolution now =>
      rw [Ledger.act]
      split
      next => exact resolved
      next store kept =>
        split
        next => exact resolved
        next followup found =>
          split
          next => exact resolved
          next unresolved =>
            obtain ⟨same, notReopened⟩ := upToDate store followup kept found
              (FollowUpStatus.eq_opened unresolved)
            show (answerFirst answer resolution now store).Holds .resolved id
            by_cases answers : id = answer
            · subst answers
              exact holds_answerFirst_self (same ▸ resolved.mem_ids) resolution now
            · rw [holds_answerFirst_ne answers]
              rcases holds_of_mem_ids (same ▸ resolved.mem_ids) with holds | stillOpen
              · exact holds
              · exact absurd stillOpen (notReopened id resolved answers)

/-- A store that is not up to date loses a follow-up, gives an identifier again or opens a
resolved follow-up. -/
theorem Ledger.Numbered.upToDate (numbered : ledger.Numbered) {op : LedgerOp Writer}
    (coherent : (ledger.act op).Coherent)
    (notReopened : ledger.file.NotReopened (ledger.act op).file fun _ => False) :
    ledger.UpToDate op := by
  cases op with
  | make writer => trivial
  | load writer => trivial
  | create writer draft runId now =>
      intro store kept
      simp only [Ledger.act, kept] at coherent notReopened
      constructor
      · apply numbered.ids_eq kept
        by_contra behind
        have used := numbered.mem_ids (not_le.mp behind)
        have events := coherent.events
        rw [numbered.created] at events
        exact (List.disjoint_of_nodup_append events) used (List.mem_singleton.mpr rfl)
      · intro id resolved none opened
        exact notReopened id resolved none (holds_append.mpr (Or.inl opened))
  | resolve writer answer resolution now =>
      intro store followup kept found opened
      have unresolved : followup.status ≠ .resolved := by
        rw [opened]
        decide
      simp only [Ledger.act, kept, found, if_neg unresolved] at coherent notReopened
      constructor
      · apply numbered.ids_eq kept
        have recorded : ledger.created ⊆ store.ids := fun id member => by
          have count := coherent.recorded id member
          rw [← ids_answerFirst answer resolution now store]
          exact List.count_pos_iff.mp (count ▸ Nat.one_pos)
        have events : ledger.created.Nodup := coherent.events
        have fits := (List.subperm_of_subset events recorded).length_le
        rw [numbered.created] at fits
        simpa only [ids_length] using fits
      · intro id resolved different stillOpen
        exact notReopened id resolved not_false
          ((holds_answerFirst_ne different resolution now store .opened).mpr stillOpen)

/-- The ledger of a run is kept exactly when every store that writes is up to date. -/
theorem followup_ledger_iff (ops : List (LedgerOp Writer)) :
    LedgerKept ops ↔ EveryStep Ledger.act Ledger.UpToDate ops .start := by
  have numbered : ∀ before, EveryStep Ledger.act Ledger.UpToDate before .start →
      (run Ledger.act before (.start : Ledger Writer)).Numbered := fun before steps =>
    steps.invariant Ledger.numbered_start fun _ _ upToDate holds => holds.act upToDate
  constructor
  · intro kept
    by_contra fails
    obtain ⟨before, op, after, rfl, steps, behind⟩ := exists_first_failure fails
    have stepped : run Ledger.act (before ++ [op]) (.start : Ledger Writer) =
        Ledger.act op (run Ledger.act before .start) := run_append before [op] _
    have coherent := kept.coherent (before ++ [op]) after (by simp)
    have notReopened := kept.resolved before [op] after (by simp)
    rw [stepped] at coherent notReopened
    exact behind ((numbered before steps).upToDate coherent fun id resolved _ =>
      notReopened id resolved)
  · intro steps
    constructor
    · rintro before after rfl
      exact (numbered before ((everyStep_append before after _).mp steps).1).coherent
    · rintro before between after rfl id resolved
      obtain ⟨earlier, -⟩ := (everyStep_append (before ++ between) after _).mp steps
      obtain ⟨-, later⟩ := (everyStep_append before between _).mp earlier
      have stays := later.invariant resolved fun _ _ upToDate holds => Ledger.resolved_act upToDate holds
      rw [← run_append] at stays
      exact stays.not_opened (numbered _ earlier).distinct

end Steps

/-! ## The follow-ups that a run starts with -/

/-- The stores of one run. -/
inductive RunStore where
  /-- The one that `applyPlan` makes for the follow-up about drift. -/
  | drift
  /-- The one in the context of the run. -/
  | context
  /-- The one of a resumption. -/
  | resumed
  /-- The one of a resolution by another process. -/
  | resolution
  deriving DecidableEq

/-- A draft without the fields that may be left out. -/
def plainDraft (type : FollowUpType) (blocking : Bool) (title description : JsString) :
    FollowUpDraft :=
  ⟨type, blocking, title, description, none, none, none, none, none, none⟩

def driftDraft (planRevision revision : JsString) : FollowUpDraft :=
  plainDraft .postRun false (js "Plan drift: repository advanced between planning and apply")
    (js "The plan was authored against " ++ planRevision.take 12 ++ js " but applied at " ++
      revision.take 12 ++ js (". The plan is structurally valid; its contextual assumptions " ++
        "(file locations, responsibilities) may be stale. Executor needs_replan reports will " ++
        "surface mismatches."))

def missingSecretDraft (name : JsString) : FollowUpDraft :=
  plainDraft .missingSecret true (js "Missing secret: " ++ name)
    (js "The spec declares requiredSecrets including " ++ name ++
      js (", which is not set in the environment. Values are never read by spc; export the " ++
        "variable and re-run."))

/-- A draft of the plan, which may be demoted to one that does not block. -/
def plannedDraft (proceedOnClarificationFollowups : Bool) (draft : FollowUpDraft) :
    FollowUpDraft :=
  if proceedOnClarificationFollowups ∧ draft.type = .specClarification ∧ draft.blocking then
    { draft with blocking := false }
  else
    draft

/-- What `applyPlan` does with follow-ups before the first task. -/
def openingOps (planRevision revision : JsString) (missingSecrets : List JsString)
    (drafts : List FollowUpDraft) (proceedOnClarificationFollowups : Bool) (runId now : JsString) :
    List (LedgerOp RunStore) :=
  let drift : List (LedgerOp RunStore) :=
    if planRevision ≠ js "0000" ∧ planRevision ≠ revision then
      [.make .drift, .create .drift (driftDraft planRevision revision) runId now]
    else
      []
  let secrets := missingSecrets.map fun name =>
    LedgerOp.create .context (missingSecretDraft name) runId now
  let planned := drafts.map fun draft =>
    LedgerOp.create .context (plannedDraft proceedOnClarificationFollowups draft) runId now
  drift ++ .make .context :: secrets ++ (if missingSecrets.isEmpty then planned else [])

/-- A plan that was made at another revision is applied and a secret is missing. -/
def driftedOpening : List (LedgerOp RunStore) :=
  openingOps (js "4f2a") (js "91c0") [js "API_KEY"] [] false (js "run-1") (js "t")

/-- The follow-up about the secret is given the identifier of the follow-up about drift, and
replaces it in the file. -/
theorem drift_followup_lost : ¬ LedgerKept driftedOpening := by
  intro kept
  have events := (kept.coherent driftedOpening [] (List.append_nil _).symm).events
  revert events
  decide

end SpecAsCode.Runtime
