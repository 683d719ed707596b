import Mathlib.Data.List.Basic

/-!
# Loops that may be interrupted

A loop over items whose passes either go on with a new state or end the loop with the state they
have come to.
-/

namespace SpecAsCode.Lib

variable {State Item : Type} {step : State → Item → Except State State}

/-- The state that a pass or a loop comes to. -/
def reached : Except State State → State
  | .ok state => state
  | .error state => state

/-- A property of every pass that is taken. -/
def EachTaken (step : State → Item → Except State State) (Q : State → Item → Prop) :
    List Item → State → Prop
  | [], _ => True
  | item :: rest, state =>
      Q state item ∧ ∀ next, step state item = .ok next → EachTaken step Q rest next

theorem foldlM_cons_ok {state next : State} {item : Item} (goesOn : step state item = .ok next)
    (rest : List Item) : (item :: rest).foldlM step state = rest.foldlM step next := by
  rw [List.foldlM_cons, goesOn]
  rfl

theorem foldlM_cons_error {state last : State} {item : Item} (ends : step state item = .error last)
    (rest : List Item) : (item :: rest).foldlM step state = .error last := by
  rw [List.foldlM_cons, ends]
  rfl

/-- What every pass keeps holds of the state that the loop comes to. -/
theorem reached_foldlM {Inv : State → Prop}
    (kept : ∀ state item, Inv state → Inv (reached (step state item))) (items : List Item)
    {state : State} (initial : Inv state) : Inv (reached (items.foldlM step state)) := by
  induction items generalizing state with
  | nil => exact initial
  | cons item rest inductionHypothesis =>
      have next := kept state item initial
      cases pass : step state item with
      | ok after =>
          rw [foldlM_cons_ok pass]
          rw [pass] at next
          exact inductionHypothesis next
      | error last =>
          rw [foldlM_cons_error pass]
          rwa [pass] at next

section Good

variable {Good : State → Prop} {Q : State → Item → Prop}

/-- A loop that comes to a good state begins in one. -/
theorem good_of_reached (back : ∀ state item, Good (reached (step state item)) → Good state)
    (items : List Item) {state : State} (good : Good (reached (items.foldlM step state))) :
    Good state := by
  induction items generalizing state with
  | nil => exact good
  | cons item rest inductionHypothesis =>
      refine back state item ?_
      cases pass : step state item with
      | error stopped => rwa [foldlM_cons_error pass] at good
      | ok next =>
          rw [foldlM_cons_ok pass] at good
          exact inductionHypothesis good

/-- When every pass must go on: a loop ends well just when each pass does its part. -/
theorem eachTaken_iff_ok
    (spec : ∀ state item, Good state →
      (Q state item ↔ ∃ next, step state item = .ok next ∧ Good next))
    (back : ∀ state item, Good (reached (step state item)) → Good state)
    (items : List Item) {state : State} (good : Good state) :
    EachTaken step Q items state ↔ ∃ last, items.foldlM step state = .ok last ∧ Good last := by
  induction items generalizing state with
  | nil => exact ⟨fun _ => ⟨state, rfl, good⟩, fun _ => trivial⟩
  | cons item rest inductionHypothesis =>
      constructor
      · rintro ⟨here, later⟩
        obtain ⟨next, pass, next_good⟩ := (spec state item good).mp here
        rw [foldlM_cons_ok pass]
        exact (inductionHypothesis next_good).mp (later next pass)
      · rintro ⟨last, done, last_good⟩
        cases pass : step state item with
        | error stopped =>
            rw [foldlM_cons_error pass] at done
            cases done
        | ok next =>
            rw [foldlM_cons_ok pass] at done
            have next_good : Good next := good_of_reached back rest (by rw [done]; exact last_good)
            refine ⟨(spec state item good).mpr ⟨next, pass, next_good⟩, fun other same => ?_⟩
            rw [pass] at same
            cases same
            exact (inductionHypothesis next_good).mpr ⟨last, done, last_good⟩

/-- When a pass may end the loop: the state that the loop comes to is good just when each pass that
is taken comes to a good one. -/
theorem eachTaken_iff_reached
    (spec : ∀ state item, Good state → (Q state item ↔ Good (reached (step state item))))
    (back : ∀ state item, Good (reached (step state item)) → Good state)
    (items : List Item) {state : State} (good : Good state) :
    EachTaken step Q items state ↔ Good (reached (items.foldlM step state)) := by
  induction items generalizing state with
  | nil => exact ⟨fun _ => good, fun _ => trivial⟩
  | cons item rest inductionHypothesis =>
      have here := spec state item good
      rw [EachTaken]
      cases pass : step state item with
      | error stopped =>
          rw [pass] at here
          rw [foldlM_cons_error pass, ← here]
          exact and_iff_left (by nofun)
      | ok next =>
          rw [pass] at here
          rw [foldlM_cons_ok pass]
          constructor
          · rintro ⟨passed, later⟩
            exact (inductionHypothesis (here.mp passed)).mp (later next rfl)
          · intro last_good
            have next_good := good_of_reached back rest last_good
            refine ⟨here.mpr next_good, fun other same => ?_⟩
            cases same
            exact (inductionHypothesis next_good).mpr last_good

end Good

end SpecAsCode.Lib
