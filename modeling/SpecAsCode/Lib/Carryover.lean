import Mathlib.Data.List.Basic

/-!
# Records in a text that arrives in pieces

A reader cuts the complete records off the text it has, hands each of them to a state and
carries the rest over to the next piece.  What comes of a text does not depend on the pieces
it arrives in.
-/

namespace SpecAsCode.Lib

/-- How the first complete record is cut off a text: the record and what follows it, which
grows when more text follows. -/
structure RecordFormat (Symbol : Type) where
  cut : List Symbol → Option (List Symbol × List Symbol)
  shorter : ∀ {text record rest}, cut text = some (record, rest) → rest.length < text.length
  stable : ∀ {text record rest} (more : List Symbol), cut text = some (record, rest) →
    cut (text ++ more) = some (record, rest ++ more)

/-- What a record does to the state of its reader. -/
inductive Reaction (State Failure : Type) where
  | next (state : State)
  | stop (state : State)
  | fail (failure : Failure)

/-- A reader that waits for more text, with the text it carries over, or that has ended. -/
inductive Reading (Symbol State Failure : Type) where
  | waiting (state : State) (carried : List Symbol)
  | stopped (state : State)
  | failed (failure : Failure)

variable {Symbol State Failure : Type}

namespace Reading

/-- Going on with a reader that waits. -/
def andThen (reading : Reading Symbol State Failure)
    (continuation : State → List Symbol → Reading Symbol State Failure) :
    Reading Symbol State Failure :=
  match reading with
  | .waiting state carried => continuation state carried
  | .stopped state => .stopped state
  | .failed failure => .failed failure

@[simp]
theorem andThen_waiting (state : State) (carried : List Symbol)
    (continuation : State → List Symbol → Reading Symbol State Failure) :
    (waiting state carried).andThen continuation = continuation state carried := rfl

@[simp]
theorem andThen_stopped (state : State)
    (continuation : State → List Symbol → Reading Symbol State Failure) :
    (stopped state).andThen continuation = stopped state := rfl

@[simp]
theorem andThen_failed (failure : Failure)
    (continuation : State → List Symbol → Reading Symbol State Failure) :
    (failed failure).andThen continuation = failed failure := rfl

end Reading

variable (format : RecordFormat Symbol) (react : State → List Symbol → Reaction State Failure)

/-- Cutting off at most `fuel` records. -/
def drainFor : Nat → State → List Symbol → Reading Symbol State Failure
  | 0, state, text => .waiting state text
  | fuel + 1, state, text =>
      match format.cut text with
      | none => .waiting state text
      | some (record, rest) =>
          match react state record with
          | .next next => drainFor fuel next rest
          | .stop last => .stopped last
          | .fail failure => .failed failure

/-- Cutting off the complete records: every record is longer than nothing. -/
def drain (state : State) (text : List Symbol) : Reading Symbol State Failure :=
  drainFor format react text.length state text

/-- A reader that gets piece after piece. -/
def feed : Reading Symbol State Failure → List (List Symbol) → Reading Symbol State Failure
  | reading, [] => reading
  | reading, piece :: pieces =>
      feed (reading.andThen fun state carried => drain format react state (carried ++ piece)) pieces

variable {format react}

theorem RecordFormat.cut_nil : format.cut [] = none := by
  cases found : format.cut [] with
  | none => rfl
  | some parts => exact absurd (format.shorter found) (Nat.not_lt_zero _)

theorem drainFor_enough {fuel : Nat} {state : State} {text : List Symbol}
    (enough : text.length ≤ fuel) :
    drainFor format react fuel state text = drain format react state text := by
  rw [drain]
  induction fuel using Nat.strongRecOn generalizing state text with
  | ind fuel inductionHypothesis =>
      cases text with
      | nil =>
          cases fuel with
          | zero => rfl
          | succ fuel => simp [drainFor, RecordFormat.cut_nil]
      | cons first others =>
          obtain ⟨fuel, rfl⟩ : ∃ less, fuel = less + 1 :=
            ⟨fuel - 1, by simp only [List.length_cons] at enough; omega⟩
          rw [List.length_cons, drainFor, drainFor]
          cases found : format.cut (first :: others) with
          | none => rfl
          | some parts =>
              obtain ⟨record, rest⟩ := parts
              have less := format.shorter found
              simp only [List.length_cons] at enough less
              cases reaction : react state record with
              | stop last => simp only [reaction]
              | fail failure => simp only [reaction]
              | next next =>
                  simp only [reaction]
                  rw [inductionHypothesis fuel (by omega) (by omega)]
                  exact (inductionHypothesis others.length (by omega) (by omega)).symm

/-- A text without a complete record is carried over. -/
theorem drain_none {state : State} {text : List Symbol} (incomplete : format.cut text = none) :
    drain format react state text = .waiting state text := by
  rw [drain]
  cases text with
  | nil => rfl
  | cons first others => rw [List.length_cons, drainFor, incomplete]

/-- The first complete record decides how a reader goes on. -/
theorem drain_some {state : State} {text record rest : List Symbol}
    (found : format.cut text = some (record, rest)) :
    drain format react state text =
      match react state record with
      | .next next => drain format react next rest
      | .stop last => .stopped last
      | .fail failure => .failed failure := by
  have less := format.shorter found
  obtain ⟨length, size⟩ : ∃ length, text.length = length + 1 := ⟨text.length - 1, by omega⟩
  rw [drain, size, drainFor, found]
  cases reaction : react state record with
  | stop last => simp only [reaction]
  | fail failure => simp only [reaction]
  | next next =>
      simp only [reaction]
      exact drainFor_enough (by omega)

/-- More text is read after the records that are complete without it. -/
theorem drain_append (state : State) (text more : List Symbol) :
    drain format react state (text ++ more) =
      (drain format react state text).andThen fun next carried =>
        drain format react next (carried ++ more) := by
  induction size : text.length using Nat.strongRecOn generalizing state text with
  | ind size inductionHypothesis =>
      cases found : format.cut text with
      | none => rw [drain_none found, Reading.andThen_waiting]
      | some parts =>
          obtain ⟨record, rest⟩ := parts
          rw [drain_some found, drain_some (format.stable more found)]
          cases reaction : react state record with
          | stop last => rfl
          | fail failure => rfl
          | next next =>
              exact inductionHypothesis _ (size ▸ format.shorter found) next rest rfl

/-- A reader that is fed piece by piece gets as far as with all of the text at once. -/
theorem feed_drain (state : State) (text : List Symbol) (pieces : List (List Symbol)) :
    feed format react (drain format react state text) pieces =
      drain format react state (text ++ pieces.flatten) := by
  induction pieces generalizing text with
  | nil => rw [feed, List.flatten_nil, List.append_nil]
  | cons piece pieces inductionHypothesis =>
      rw [feed, ← drain_append, inductionHypothesis, List.flatten_cons, List.append_assoc]

/-- A reader that waits at the end of a text has waited at every place before. -/
theorem waits_of_append {state last : State} {text more carried : List Symbol}
    (waits : drain format react state (text ++ more) = .waiting last carried) :
    ∃ before kept, drain format react state text = .waiting before kept := by
  rw [drain_append] at waits
  cases reading : drain format react state text with
  | waiting before kept => exact ⟨before, kept, rfl⟩
  | stopped before => rw [reading, Reading.andThen_stopped] at waits; cases waits
  | failed failure => rw [reading, Reading.andThen_failed] at waits; cases waits

end SpecAsCode.Lib
