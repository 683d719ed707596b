import Mathlib.Data.List.Basic

/-!
# Fields with a mark after them

Records of a key and a value are written one after another, with a mark after each field.  They
are read back when no key has the mark in it, and the values of a key either have no mark in
them or have one length.
-/

namespace SpecAsCode.Lib

variable {Symbol : Type}

/-- The fields of a record, with a mark after each of them. -/
def writeRecord (mark : Symbol) (record : List Symbol × List Symbol) : List Symbol :=
  record.1 ++ mark :: (record.2 ++ [mark])

/-- Records one after another. -/
def writeRecords (mark : Symbol) (records : List (List Symbol × List Symbol)) : List Symbol :=
  records.flatMap (writeRecord mark)

/-- The values of two records end at the same place wherever both of them are read. -/
def SameEnd (mark : Symbol) (first second : List Symbol) : Prop :=
  (mark ∉ first ∧ mark ∉ second) ∨ first.length = second.length

variable {mark : Symbol}

theorem writeRecords_cons (record : List Symbol × List Symbol)
    (records : List (List Symbol × List Symbol)) :
    writeRecords mark (record :: records) =
      record.1 ++ mark :: (record.2 ++ mark :: writeRecords mark records) := by
  simp [writeRecords, writeRecord]

/-- What stands before the first mark, and what stands behind it. -/
theorem append_mark_injective {first second rest otherRest : List Symbol}
    (free : mark ∉ first) (otherFree : mark ∉ second)
    (same : first ++ mark :: rest = second ++ mark :: otherRest) :
    first = second ∧ rest = otherRest := by
  induction first generalizing second with
  | nil =>
      cases second with
      | nil => exact ⟨rfl, (List.cons.inj same).2⟩
      | cons symbol second =>
          exact absurd ((List.cons.inj same).1 ▸ List.mem_cons_self) otherFree
  | cons symbol first inductionHypothesis =>
      cases second with
      | nil => exact absurd ((List.cons.inj same).1 ▸ List.mem_cons_self) free
      | cons other second =>
          obtain ⟨rfl, tails⟩ := List.cons.inj same
          obtain ⟨rfl, rests⟩ := inductionHypothesis (fun member => free (.tail _ member))
            (fun member => otherFree (.tail _ member)) tails
          exact ⟨rfl, rests⟩

theorem SameEnd.append_mark_injective {first second rest otherRest : List Symbol}
    (ends : SameEnd mark first second)
    (same : first ++ mark :: rest = second ++ mark :: otherRest) :
    first = second ∧ rest = otherRest := by
  rcases ends with ⟨free, otherFree⟩ | length
  · exact Lib.append_mark_injective free otherFree same
  · obtain ⟨values, rests⟩ := List.append_inj same length
    exact ⟨values, (List.cons.inj rests).2⟩

/-- Records are read back. -/
theorem writeRecords_injective {records others : List (List Symbol × List Symbol)}
    (free : ∀ record ∈ records, mark ∉ record.1) (otherFree : ∀ record ∈ others, mark ∉ record.1)
    (ends : ∀ pair ∈ records.zip others, pair.1.1 = pair.2.1 → SameEnd mark pair.1.2 pair.2.2)
    (same : writeRecords mark records = writeRecords mark others) : records = others := by
  induction records generalizing others with
  | nil =>
      cases others with
      | nil => rfl
      | cons other others =>
          rw [writeRecords_cons] at same
          exact absurd same.symm (List.append_ne_nil_of_right_ne_nil _ (List.cons_ne_nil _ _))
  | cons record records inductionHypothesis =>
      cases others with
      | nil =>
          rw [writeRecords_cons] at same
          exact absurd same (List.append_ne_nil_of_right_ne_nil _ (List.cons_ne_nil _ _))
      | cons other others =>
          rw [writeRecords_cons, writeRecords_cons] at same
          obtain ⟨keys, rest⟩ := append_mark_injective (free record List.mem_cons_self)
            (otherFree other List.mem_cons_self) same
          obtain ⟨values, tails⟩ :=
            (ends (record, other) List.mem_cons_self keys).append_mark_injective rest
          rw [Prod.ext keys values, inductionHypothesis (fun item member => free item (.tail _ member))
            (fun item member => otherFree item (.tail _ member))
            (fun pair member => ends pair (.tail _ member)) tails]

/-- The parts of a concatenation, when every one but the last has its length. -/
theorem flatMap_injective_of_lengths {Index Item : Type} {parts others : Index → List Item}
    {indices : List Index} (same : indices.flatMap parts = indices.flatMap others)
    (lengths : ∀ index ∈ indices.dropLast, (parts index).length = (others index).length) :
    ∀ index ∈ indices, parts index = others index := by
  induction indices with
  | nil => exact fun index member => absurd member List.not_mem_nil
  | cons head tail inductionHypothesis =>
      cases tail with
      | nil =>
          rw [List.flatMap_singleton, List.flatMap_singleton] at same
          exact fun index member => List.mem_singleton.mp member ▸ same
      | cons next tail =>
          rw [List.flatMap_cons, List.flatMap_cons] at same
          rw [List.dropLast_cons_cons, List.forall_mem_cons] at lengths
          obtain ⟨first, rest⟩ := List.append_inj same lengths.1
          exact List.forall_mem_cons.mpr ⟨first, inductionHypothesis rest lengths.2⟩

end SpecAsCode.Lib
