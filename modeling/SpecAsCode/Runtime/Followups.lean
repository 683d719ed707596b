import SpecAsCode.Js.Decimal
import SpecAsCode.Schema.Followup

/-!
# The follow-up store

`FollowupStore` keeps the follow-ups of a run in the order of their creation.  A follow-up
is never removed, and it is changed only by its resolution.
-/

namespace SpecAsCode.Runtime

open SpecAsCode.Js
open SpecAsCode.Schema

/-- The follow-ups of a run, oldest first. -/
abbrev FollowupStore := List FollowUp

namespace FollowupStore

/-- `load` of a fresh store from the file another one wrote. -/
def load (file : FollowupStore) : FollowupStore :=
  file.filter followUpSchema

/-- `F-` and a number with at least three digits. -/
def followupId (number : Nat) : JsString :=
  js "F-" ++ List.replicate (3 - (natText number).length) (unit '0') ++ natText number

/-- The follow-up that `create` makes of a draft. -/
def opening (store : FollowupStore) (draft : FollowUpDraft) (runId now : JsString) : FollowUp where
  toFollowUpDraft := draft
  id := followupId (store.length + 1)
  runId := runId
  status := .opened
  createdAt := now
  resolvedAt := none
  resolution := none

/-- `create`: the store after it and the new follow-up. -/
def create (store : FollowupStore) (draft : FollowUpDraft) (runId now : JsString) :
    FollowupStore × FollowUp :=
  (store ++ [store.opening draft runId now], store.opening draft runId now)

/-- The follow-up with its answer. -/
def answered (followup : FollowUp) (resolution : Resolution) (now : JsString) : FollowUp :=
  { followup with status := .resolved, resolvedAt := some now, resolution := some resolution }

/-- The first follow-up with an identifier is answered. -/
def answerFirst (id : JsString) (resolution : Resolution) (now : JsString) :
    FollowupStore → FollowupStore
  | [] => []
  | followup :: rest =>
      if followup.id = id then
        answered followup resolution now :: rest
      else
        followup :: answerFirst id resolution now rest

/-- `all().find((f) => f.id === id)`. -/
def withId (store : FollowupStore) (id : JsString) : Option FollowUp :=
  store.find? fun followup => followup.id = id

/-- `resolve`: the store after it and the resolved follow-up; none when no follow-up has the
identifier. -/
def resolve (store : FollowupStore) (id : JsString) (resolution : Resolution) (now : JsString) :
    Option (FollowupStore × FollowUp) :=
  (store.withId id).map fun followup =>
    if followup.status = .resolved then
      (store, followup)
    else
      (answerFirst id resolution now store, answered followup resolution now)

/-- The test of `findOpenForCriterion`. -/
def isOpenFor (criterionId : JsString) (followup : FollowUp) : Bool :=
  followup.status = .opened && followup.criterionId = some criterionId

def findOpenForCriterion (store : FollowupStore) (criterionId : JsString) : Option FollowUp :=
  store.find? (isOpenFor criterionId)

theorem findOpenForCriterion_isSome {store : FollowupStore} {criterionId : JsString} :
    (store.findOpenForCriterion criterionId).isSome = true ↔
      ∃ followup ∈ store, isOpenFor criterionId followup = true := by
  rw [findOpenForCriterion, List.find?_isSome]

/-- A follow-up stays open while others are created. -/
theorem findOpenForCriterion_append {store : FollowupStore} {criterionId : JsString}
    (isOpen : (store.findOpenForCriterion criterionId).isSome = true) (more : List FollowUp) :
    (findOpenForCriterion (store ++ more) criterionId).isSome = true := by
  rw [findOpenForCriterion_isSome] at isOpen ⊢
  obtain ⟨followup, member, holds⟩ := isOpen
  exact ⟨followup, List.mem_append_left _ member, holds⟩

/-- An answer does not keep a follow-up from being loaded. -/
theorem load_answerFirst (id : JsString) (resolution : Resolution) (now : JsString)
    (file : FollowupStore) :
    load (answerFirst id resolution now (load file)) = answerFirst id resolution now (load file) := by
  have valid : ∀ store : FollowupStore, (∀ followup ∈ store, followUpSchema followup = true) →
      ∀ followup ∈ answerFirst id resolution now store, followUpSchema followup = true := by
    intro store
    induction store with
    | nil => exact fun all => all
    | cons first rest inductionHypothesis =>
        intro all
        obtain ⟨head, tail⟩ := List.forall_mem_cons.mp all
        rw [answerFirst]
        split
        next => exact List.forall_mem_cons.mpr ⟨head, tail⟩
        next => exact List.forall_mem_cons.mpr ⟨head, inductionHypothesis tail⟩
  exact List.filter_eq_self.mpr (valid _ fun followup member => (List.mem_filter.mp member).2)

/-- The follow-up that was answered is found. -/
theorem withId_answerFirst {id : JsString} {store : FollowupStore} {followup : FollowUp}
    (found : store.withId id = some followup) (resolution : Resolution) (now : JsString) :
    withId (answerFirst id resolution now store) id = some (answered followup resolution now) := by
  induction store with
  | nil => cases found
  | cons first rest inductionHypothesis =>
      rw [answerFirst]
      by_cases same : first.id = id
      · rw [withId, List.find?_cons_of_pos (by simpa using same)] at found
        cases found
        have kept : (answered followup resolution now).id = id := same
        rw [if_pos same, withId, List.find?_cons_of_pos (by simpa using kept)]
      · rw [withId, List.find?_cons_of_neg (by simpa using same)] at found
        rw [if_neg same, withId, List.find?_cons_of_neg (by simpa using same)]
        exact inductionHypothesis found

end FollowupStore

end SpecAsCode.Runtime
