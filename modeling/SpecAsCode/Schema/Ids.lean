import SpecAsCode.Js.JsString

/-!
# Identifiers

The patterns of persisted identifiers.
-/

namespace SpecAsCode.Schema

open SpecAsCode.Js

/-- `[A-Z]`. -/
def isUpper (code : CodeUnit) : Bool :=
  65 ≤ code.val && code.val ≤ 90

/-- `[A-Z0-9]`. -/
def isUpperOrDigit (code : CodeUnit) : Bool :=
  isUpper code || (48 ≤ code.val && code.val ≤ 57)

/-- `PROPERTY_ID_PATTERN.test(id)`, which is the pattern of criteria too. -/
def isPropertyId (id : JsString) : Bool :=
  (id.head?.map isUpper).getD false && 1 < (id.splitOn (unit '-')).length &&
    (id.splitOn (unit '-')).all fun part => part != [] && part.all isUpperOrDigit

/-- `TASK_ID_PATTERN.test(id)`. -/
def isTaskId (id : JsString) : Bool :=
  id.head? == some (unit 'T') && 3 ≤ (id.drop 1).length &&
    (id.drop 1).all fun code => 48 ≤ code.val && code.val ≤ 57

/-- What is in a text is the separator or in one of the parts. -/
theorem mem_splitOn {code separator : CodeUnit} {text : JsString} (member : code ∈ text) :
    code = separator ∨ ∃ part ∈ text.splitOn separator, code ∈ part := by
  induction text with
  | nil => cases member
  | cons first text inductionHypothesis =>
      rw [List.splitOn_cons_eq_if_modifyHead]
      obtain ⟨head, parts, split⟩ : ∃ head parts, text.splitOn separator = head :: parts :=
        List.exists_cons_of_ne_nil (List.splitOn_ne_nil _ _)
      rw [split] at inductionHypothesis ⊢
      by_cases here : first = separator
      · rcases List.mem_cons.mp member with rfl | later
        · exact Or.inl here
        · rcases inductionHypothesis later with same | ⟨part, found, inside⟩
          · exact Or.inl same
          · exact Or.inr ⟨part, by simp only [here, beq_self_eq_true, if_true]; simp [found], inside⟩
      · rcases List.mem_cons.mp member with rfl | later
        · exact Or.inr ⟨code :: head, by simp [here], by simp⟩
        · rcases inductionHypothesis later with same | ⟨part, found, inside⟩
          · exact Or.inl same
          · rcases List.mem_cons.mp found with rfl | other
            · exact Or.inr ⟨first :: part, by simp [here], by simp [inside]⟩
            · exact Or.inr ⟨part, by simp [here, other], inside⟩

/-- The characters of an identifier. -/
theorem mem_of_isPropertyId {id : JsString} (valid : isPropertyId id = true) {code : CodeUnit}
    (member : code ∈ id) : code = unit '-' ∨ isUpperOrDigit code = true := by
  rw [isPropertyId, Bool.and_eq_true, List.all_eq_true] at valid
  rcases @mem_splitOn _ (unit '-') _ member with same | ⟨part, found, inside⟩
  · exact Or.inl same
  · have good := valid.2 part found
    rw [Bool.and_eq_true, List.all_eq_true] at good
    exact Or.inr (good.2 code inside)

/-- A task identifier has no `@` in it. -/
theorem at_not_mem_of_isTaskId {id : JsString} (valid : isTaskId id = true) : unit '@' ∉ id := by
  intro member
  rw [isTaskId, Bool.and_eq_true, List.all_eq_true] at valid
  cases id with
  | nil => cases member
  | cons first rest =>
      rw [Bool.and_eq_true, List.head?_cons, beq_iff_eq, Option.some.injEq] at valid
      rcases List.mem_cons.mp member with same | later
      · rw [valid.1.1] at same
        exact absurd same (by decide)
      · exact absurd (valid.2 _ later) (by decide)

end SpecAsCode.Schema
