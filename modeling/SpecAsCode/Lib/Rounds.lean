import Mathlib.Order.RelClasses

/-!
# Rounds

A system that takes one input after another: what its rounds keep, and that it comes to rest when
every round before makes a measure smaller.  Rounds in which an answer is asked for until one is
good enough.
-/

namespace SpecAsCode.Rounds

variable {Input State : Type} (act : Input → State → State)

/-- The state after a number of rounds. -/
def after (inputs : Nat → Input) (start : State) : Nat → State
  | 0 => start
  | rounds + 1 => act (inputs rounds) (after inputs start rounds)

variable {act}

/-- What every round keeps holds after any number of rounds. -/
theorem after_invariant {Inv : State → Prop} {inputs : Nat → Input} {start : State}
    (initial : Inv start) (round : ∀ number state, Inv state → Inv (act (inputs number) state))
    (rounds : Nat) : Inv (after act inputs start rounds) := by
  induction rounds with
  | zero => exact initial
  | succ rounds inductionHypothesis => exact round rounds _ inductionHypothesis

/-- The first round may be counted apart. -/
theorem after_succ_start (inputs : Nat → Input) (start : State) (rounds : Nat) :
    after act inputs start (rounds + 1) =
      after act (fun number => inputs (number + 1)) (act (inputs 0) start) rounds := by
  induction rounds with
  | zero => rfl
  | succ rounds inductionHypothesis =>
      rw [after, inductionHypothesis]
      rfl

/-- A system comes to rest when every round of one that goes on descends. -/
theorem exists_rest {Rests : State → Prop} {Measure : Type} {lt : Measure → Measure → Prop}
    (wellFounded : WellFounded lt) (measure : State → Measure)
    (descends : ∀ input state, ¬ Rests (act input state) →
      lt (measure (act input state)) (measure state))
    (inputs : Nat → Input) (start : State) :
    ∃ rounds, Rests (after act inputs start rounds) := by
  induction measured : measure start using wellFounded.induction generalizing inputs start with
  | _ value inductionHypothesis =>
      by_cases rests : Rests (act (inputs 0) start)
      · exact ⟨1, rests⟩
      · obtain ⟨rounds, later⟩ := inductionHypothesis _
          (measured ▸ descends (inputs 0) start rests) (fun number => inputs (number + 1)) _ rfl
        refine ⟨rounds + 1, ?_⟩
        rw [after_succ_start]
        exact later

/-! ## Attempts -/

/-- How a number of attempts ends. -/
inductive Ending (Failure Result Complaint : Type) where
  | threw (failure : Failure) (attempt : Nat)
  | accepted (result : Result) (attempt : Nat)
  | refused (complaint : Complaint) (attempt : Nat)
  /-- The loop is left without a result. -/
  | exhausted

section Attempts

variable {Failure Answer Result Complaint Note : Type}
  (ask : Nat → Option Note → Except Failure Answer) (judge : Answer → Except Complaint Result)
  (note : Complaint → Note) (total : Nat)

/-- An answer that is refused is asked for again, with a note of what was wrong. -/
def pursue : Nat → Nat → Option Note → Ending Failure Result Complaint
  | 0, _, _ => .exhausted
  | left + 1, attempt, repair =>
      match ask attempt repair with
      | .error failure => .threw failure attempt
      | .ok answer =>
          match judge answer with
          | .ok result => .accepted result attempt
          | .error complaint =>
              if attempt = total then .refused complaint attempt
              else pursue left (attempt + 1) (some (note complaint))

/-- The note that goes with the next attempt. -/
def lastNote (complaints : List Complaint) : Option Note :=
  complaints.getLast?.map note

/-- The complaints about the first answers, each asked for with a note of the one before. -/
inductive Refusals : List Complaint → Prop
  | nil : Refusals []
  | snoc {complaints : List Complaint} {answer : Answer} {complaint : Complaint}
      (earlier : Refusals complaints)
      (asked : ask (complaints.length + 1) (lastNote note complaints) = .ok answer)
      (judged : judge answer = .error complaint) : Refusals (complaints ++ [complaint])

/-- What an ending says of the attempts before it. -/
inductive Concludes : Ending Failure Result Complaint → Prop
  | threw {complaints : List Complaint} {failure : Failure}
      (earlier : Refusals ask judge note complaints) (room : complaints.length < total)
      (asked : ask (complaints.length + 1) (lastNote note complaints) = .error failure) :
      Concludes (.threw failure (complaints.length + 1))
  | accepted {complaints : List Complaint} {answer : Answer} {result : Result}
      (earlier : Refusals ask judge note complaints) (room : complaints.length < total)
      (asked : ask (complaints.length + 1) (lastNote note complaints) = .ok answer)
      (judged : judge answer = .ok result) : Concludes (.accepted result (complaints.length + 1))
  | refused {complaints : List Complaint} {complaint : Complaint}
      (all : Refusals ask judge note (complaints ++ [complaint]))
      (last : complaints.length + 1 = total) : Concludes (.refused complaint total)

variable {ask judge note total}

theorem pursue_from {complaints : List Complaint} (earlier : Refusals ask judge note complaints)
    {left : Nat} (count : complaints.length + (left + 1) = total) :
    Concludes ask judge note total
      (pursue ask judge note total (left + 1) (complaints.length + 1)
        (lastNote note complaints)) := by
  induction left generalizing complaints with
  | zero =>
      have last : complaints.length + 1 = total := count
      have room : complaints.length < total := by omega
      rw [pursue]
      cases asked : ask (complaints.length + 1) (lastNote note complaints) with
      | error failure => exact .threw earlier room asked
      | ok answer =>
          dsimp only
          cases judged : judge answer with
          | ok result => exact .accepted earlier room asked judged
          | error complaint =>
              dsimp only
              rw [if_pos last, last]
              exact .refused (.snoc earlier asked judged) last
  | succ left inductionHypothesis =>
      have room : complaints.length < total := by omega
      have more : complaints.length + 1 ≠ total := by omega
      rw [pursue]
      cases asked : ask (complaints.length + 1) (lastNote note complaints) with
      | error failure => exact .threw earlier room asked
      | ok answer =>
          dsimp only
          cases judged : judge answer with
          | ok result => exact .accepted earlier room asked judged
          | error complaint =>
              have next := @inductionHypothesis (complaints ++ [complaint])
                (.snoc earlier asked judged)
                (by rw [List.length_append, List.length_singleton]; omega)
              rw [List.length_append, List.length_singleton, lastNote, List.getLast?_concat] at next
              dsimp only
              rw [if_neg more]
              exact next

/-- The attempts end as one of the answers, or the last refusal, says. -/
theorem pursue_concludes (positive : 0 < total) :
    Concludes ask judge note total (pursue ask judge note total total 1 none) := by
  obtain ⟨left, rfl⟩ : ∃ left, total = left + 1 := ⟨total - 1, by omega⟩
  exact pursue_from .nil (Nat.zero_add (left + 1))

/-- The complaint that a note is of. -/
theorem Refusals.last {complaints : List Complaint} (refusals : Refusals ask judge note complaints)
    {complaint : Complaint} (last : complaints.getLast? = some complaint) :
    ∃ answer, judge answer = .error complaint := by
  cases refusals with
  | nil => cases last
  | @snoc earlier answer other before asked judged =>
      rw [List.getLast?_concat, Option.some.injEq] at last
      exact ⟨answer, last ▸ judged⟩

end Attempts

end SpecAsCode.Rounds
