import Mathlib.Data.List.Basic

/-!
# Races between promises

A race waits for the first of several promises that settles, and takes its outcome.
-/

namespace SpecAsCode.Races

/-- A race between promises that are known by their numbers.  What has won says whether the
promise was fulfilled. -/
structure Race where
  awaited : List Nat
  won : Option Bool
  deriving DecidableEq

/-- A new race, with the promises that have been rejected before it. -/
def Race.start (awaited rejected : List Nat) : Race where
  awaited := awaited
  won := if rejected = [] then none else some false

/-- A promise settles. -/
def Race.settle (race : Race) (promise : Nat) (fulfilled : Bool) : Race :=
  if race.won = none ∧ promise ∈ race.awaited then
    { race with won := some fulfilled }
  else
    race

@[simp]
theorem Race.awaited_settle (race : Race) (promise : Nat) (fulfilled : Bool) :
    (race.settle promise fulfilled).awaited = race.awaited := by
  rw [Race.settle]
  split_ifs <;> rfl

/-- The first promise that settles wins. -/
theorem Race.won_settle {race : Race} {promise : Nat} (open_ : race.won = none)
    (member : promise ∈ race.awaited) (fulfilled : Bool) :
    (race.settle promise fulfilled).won = some fulfilled := by
  rw [Race.settle, if_pos ⟨open_, member⟩]

/-- A race that is won stays won. -/
theorem Race.settle_won {race : Race} {outcome : Bool} (won : race.won = some outcome)
    (promise : Nat) (fulfilled : Bool) : race.settle promise fulfilled = race := by
  rw [Race.settle, if_neg]
  rw [won]
  exact fun both => Option.some_ne_none _ both.1

/-- What has won settled before, or settles now. -/
theorem Race.of_won_settle {race : Race} {promise : Nat} {fulfilled outcome : Bool}
    (won : (race.settle promise fulfilled).won = some outcome) :
    race.won = some outcome ∨ outcome = fulfilled := by
  rw [Race.settle] at won
  split_ifs at won with first
  · exact Or.inr (Option.some.inj won).symm
  · exact Or.inl won

end SpecAsCode.Races
