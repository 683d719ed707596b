import Mathlib.Data.List.Induction

/-!
# Journals

A journal grows at its end.  What its entries say of those before them, and what is known when one
is added.
-/

namespace SpecAsCode.Journal

variable {Entry : Type}

/-- An entry of a longer journal is the last one, or one of the journal before. -/
theorem split_snoc {journal before after : List Entry} {last entry : Entry}
    (shape : journal ++ [last] = before ++ entry :: after) :
    (after = [] ∧ before = journal ∧ entry = last) ∨
      ∃ front, after = front ++ [last] ∧ journal = before ++ entry :: front := by
  rcases List.eq_nil_or_concat after with rfl | ⟨front, final, rfl⟩
  · obtain ⟨rfl, same⟩ := List.append_inj' shape rfl
    exact Or.inl ⟨rfl, rfl, (List.cons.inj same).1.symm⟩
  · rw [List.concat_eq_append, ← List.cons_append, ← List.append_assoc] at shape
    obtain ⟨rfl, same⟩ := List.append_inj' shape rfl
    rw [(List.cons.inj same).1]
    exact Or.inr ⟨front, List.concat_eq_append, rfl⟩

/-- Every entry follows from what is before it. -/
def Throughout (Follows : List Entry → Entry → Prop) (journal : List Entry) : Prop :=
  ∀ before entry after, journal = before ++ entry :: after → Follows before entry

variable {Follows : List Entry → Entry → Prop} {journal : List Entry}

theorem throughout_nil : Throughout Follows [] := by
  intro before entry after shape
  cases (List.append_eq_nil_iff.mp shape.symm).2

theorem Throughout.snoc (throughout : Throughout Follows journal) {last : Entry}
    (follows : Follows journal last) : Throughout Follows (journal ++ [last]) := by
  intro before entry after shape
  obtain ⟨-, rfl, rfl⟩ | ⟨front, -, earlier⟩ := split_snoc shape
  · exact follows
  · exact throughout before entry front earlier

/-- Several entries are added, each of which follows from those before it. -/
theorem Throughout.append (throughout : Throughout Follows journal) {added : List Entry}
    (follows : ∀ before entry after, added = before ++ entry :: after →
      Follows (journal ++ before) entry) : Throughout Follows (journal ++ added) := by
  induction added using List.reverseRecOn with
  | nil => rwa [List.append_nil]
  | append_singleton added last inductionHypothesis =>
      rw [← List.append_assoc]
      refine (inductionHypothesis fun before entry after shape => ?_).snoc
        (follows added last [] rfl)
      exact follows before entry (after ++ [last]) (by rw [shape, List.append_assoc]; rfl)

end SpecAsCode.Journal
