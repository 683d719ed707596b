import Mathlib.Data.List.Infix

/-!
# Occurrences

How often a list occurs in another one, overlapping occurrences counted, and the lists
before and after its first occurrence.
-/

namespace SpecAsCode.Occurrence

variable {α : Type} [DecidableEq α]

/-- The number of positions at which `part` occurs. -/
def count (part : List α) : List α → Nat
  | [] => if part = [] then 1 else 0
  | letter :: rest =>
      if part.isPrefixOf (letter :: rest) then count part rest + 1 else count part rest

/-- What stands before and after the first occurrence of `part`. -/
def split (part : List α) : List α → Option (List α × List α)
  | [] => if part = [] then some ([], []) else none
  | letter :: rest =>
      if part.isPrefixOf (letter :: rest) then
        some ([], (letter :: rest).drop part.length)
      else
        (split part rest).map fun (before, after) => (letter :: before, after)

example : count [1, 1] [1, 1, 1] = 2 := by decide

theorem isPrefixOf_iff {part text : List α} :
    part.isPrefixOf text = true ↔ ∃ after, text = part ++ after := by
  rw [List.isPrefixOf_iff_prefix]
  constructor
  · rintro ⟨after, rfl⟩
    exact ⟨after, rfl⟩
  · rintro ⟨after, rfl⟩
    exact ⟨after, rfl⟩

/-- The parts of a split text. -/
theorem split_sound {part text before after : List α} (found : split part text = some (before, after)) :
    text = before ++ part ++ after := by
  induction text generalizing before after with
  | nil =>
      rw [split] at found
      split_ifs at found with empty
      cases found
      rw [empty]
      rfl
  | cons letter rest inductionHypothesis =>
      rw [split] at found
      split_ifs at found with here
      · obtain ⟨tail, shape⟩ := isPrefixOf_iff.mp here
        cases found
        rw [shape, List.drop_left]
        rfl
      · obtain ⟨⟨first, last⟩, later, same⟩ := Option.map_eq_some_iff.mp found
        cases same
        rw [inductionHypothesis later]
        rfl

/-- A list that occurs has a first occurrence. -/
theorem exists_split {part text : List α} (occurs : count part text ≠ 0) :
    ∃ before after, split part text = some (before, after) := by
  induction text with
  | nil =>
      rw [count] at occurs
      split_ifs at occurs with empty
      · exact ⟨[], [], by rw [split, if_pos empty]⟩
      · exact absurd rfl occurs
  | cons letter rest inductionHypothesis =>
      rw [count] at occurs
      split_ifs at occurs with here
      · exact ⟨[], _, by rw [split, if_pos here]⟩
      · obtain ⟨before, after, found⟩ := inductionHypothesis occurs
        exact ⟨letter :: before, after, by rw [split, if_neg here, found]; rfl⟩

/-! ## Letters that start no occurrence -/

section Skip

variable {first : α} {part middle : List α} (rest : List α)

private theorem not_isPrefixOf {letter : α} (other : letter ≠ first) (text : List α) :
    ¬ (first :: part).isPrefixOf (letter :: text) = true := by
  intro starts
  obtain ⟨after, shape⟩ := isPrefixOf_iff.mp starts
  exact other (List.cons.inj shape).1

theorem count_skip (others : first ∉ middle) :
    count (first :: part) (middle ++ rest) = count (first :: part) rest := by
  induction middle with
  | nil => rfl
  | cons letter middle inductionHypothesis =>
      rw [List.mem_cons, not_or] at others
      rw [List.cons_append, count, if_neg (not_isPrefixOf (Ne.symm others.1) _),
        inductionHypothesis others.2]

theorem split_skip (others : first ∉ middle) :
    split (first :: part) (middle ++ rest) =
      (split (first :: part) rest).map (Prod.map (middle ++ ·) id) := by
  induction middle with
  | nil =>
      rw [List.nil_append]
      cases split (first :: part) rest <;> rfl
  | cons letter middle inductionHypothesis =>
      rw [List.mem_cons, not_or] at others
      rw [List.cons_append, split, if_neg (not_isPrefixOf (Ne.symm others.1) _),
        inductionHypothesis others.2, Option.map_map]
      rfl

end Skip

end SpecAsCode.Occurrence
