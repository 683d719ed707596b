import Mathlib.Data.List.Infix

/-!
# Replacement

A part of a list is replaced wherever a search from left to right finds it.  The letters of
the part are what the search reads of the elements, so that elements can carry more than
their letters.
-/

namespace SpecAsCode.Replacement

variable {α β γ : Type} [DecidableEq β] (letter : α → β) (part : List β) (marker : List α)

/-- The pieces between the occurrences of `part` that the search takes.  The number is how
much of an occurrence is still to be passed. -/
def pieces : Nat → List α → List (List α)
  | _, [] => [[]]
  | skip + 1, _ :: rest => pieces skip rest
  | 0, first :: rest =>
      if part.isPrefixOf ((first :: rest).map letter) then
        [] :: pieces (part.length - 1) rest
      else
        (pieces 0 rest).modifyHead (first :: ·)

/-- The list with `marker` in place of every occurrence that the search takes. -/
def replaced : Nat → List α → List α
  | _, [] => []
  | skip + 1, _ :: rest => replaced skip rest
  | 0, first :: rest =>
      if part.isPrefixOf ((first :: rest).map letter) then
        marker ++ replaced (part.length - 1) rest
      else
        first :: replaced 0 rest

/-- How much of an occurrence is still to be passed when the search has gone through
`front` and `behind` is left. -/
def engaged : Nat → List α → List α → Nat
  | skip, [], _ => skip
  | skip + 1, _ :: front, behind => engaged skip front behind
  | 0, first :: front, behind =>
      if part.isPrefixOf ((first :: (front ++ behind)).map letter) then
        engaged (part.length - 1) front behind
      else
        engaged 0 front behind

example : replaced id [1, 1] [7] 0 [1, 1, 1, 2, 1, 1] = [7, 1, 2, 7] := by decide

/-! ## Splitting and joining -/

theorem pieces_ne_nil (skip : Nat) (text : List α) : pieces letter part skip text ≠ [] := by
  fun_induction pieces letter part skip text with
  | case1 => exact List.cons_ne_nil _ _
  | case2 skip first rest inductionHypothesis => exact inductionHypothesis
  | case3 first rest here inductionHypothesis => exact List.cons_ne_nil _ _
  | case4 first rest other inductionHypothesis =>
      obtain ⟨head, others, shape⟩ := List.exists_cons_of_ne_nil inductionHypothesis
      rw [shape]
      exact List.cons_ne_nil _ _

/-- The pieces, joined with the marker. -/
theorem intercalate_pieces (skip : Nat) (text : List α) :
    marker.intercalate (pieces letter part skip text) = replaced letter part marker skip text := by
  fun_induction pieces letter part skip text with
  | case1 => rfl
  | case2 skip first rest inductionHypothesis => exact inductionHypothesis
  | case3 first rest here inductionHypothesis =>
      rw [replaced, if_pos here, ← inductionHypothesis,
        List.intercalate_cons_of_ne_nil (pieces_ne_nil letter part _ rest)]
      rfl
  | case4 first rest other inductionHypothesis =>
      obtain ⟨head, others, shape⟩ := List.exists_cons_of_ne_nil (pieces_ne_nil letter part 0 rest)
      rw [replaced, if_neg other, ← inductionHypothesis, shape, List.modifyHead_cons]
      cases others with
      | nil => simp
      | cons second others => simp

/-! ## Elements that carry more -/

/-- The search reads the letters only. -/
theorem map_replaced (image : α → γ) (imageLetter : γ → β)
    (same : ∀ element, imageLetter (image element) = letter element) (skip : Nat) (text : List α) :
    (replaced letter part marker skip text).map image =
      replaced imageLetter part (marker.map image) skip (text.map image) := by
  have letters : ∀ elements : List α,
      (elements.map image).map imageLetter = elements.map letter := by
    intro elements
    rw [List.map_map]
    exact List.map_congr_left fun element _ => same element
  fun_induction replaced letter part marker skip text with
  | case1 skip => cases skip <;> rfl
  | case2 skip first rest inductionHypothesis =>
      rw [List.map_cons, replaced, inductionHypothesis]
  | case3 first rest here inductionHypothesis =>
      rw [List.map_append, inductionHypothesis, List.map_cons, replaced, ← List.map_cons,
        letters, if_pos here]
  | case4 first rest other inductionHypothesis =>
      rw [List.map_cons, inductionHypothesis, List.map_cons, replaced, ← List.map_cons,
        letters, if_neg other]

/-! ## What is left -/

variable {letter part marker}

/-- Nothing comes in but the marker. -/
theorem mem_replaced {skip : Nat} {text : List α} {element : α}
    (left : element ∈ replaced letter part marker skip text) :
    element ∈ marker ∨ element ∈ text := by
  fun_induction replaced letter part marker skip text with
  | case1 => exact absurd left List.not_mem_nil
  | case2 skip first rest inductionHypothesis =>
      exact (inductionHypothesis left).imp_right (List.mem_cons_of_mem first)
  | case3 first rest here inductionHypothesis =>
      rcases List.mem_append.mp left with inMarker | later
      · exact Or.inl inMarker
      · exact (inductionHypothesis later).imp_right (List.mem_cons_of_mem first)
  | case4 first rest other inductionHypothesis =>
      rcases List.mem_cons.mp left with rfl | later
      · exact Or.inr List.mem_cons_self
      · exact (inductionHypothesis later).imp_right (List.mem_cons_of_mem first)

/-- A search goes through the beginning of a list and arrives at the rest of it. -/
theorem mem_replaced_append {skip : Nat} {front behind : List α} {element : α}
    (left : element ∈ replaced letter part marker skip (front ++ behind)) :
    element ∈ marker ∨ element ∈ front ∨
      element ∈ replaced letter part marker (engaged letter part skip front behind) behind := by
  fun_induction engaged letter part skip front behind with
  | case1 skip => exact Or.inr (Or.inr left)
  | case2 skip first front behind inductionHypothesis =>
      exact (inductionHypothesis left).imp_right (Or.imp_left (List.mem_cons_of_mem first))
  | case3 first front behind here inductionHypothesis =>
      rw [List.cons_append, replaced, if_pos here, List.mem_append] at left
      rcases left with inMarker | later
      · exact Or.inl inMarker
      · exact (inductionHypothesis later).imp_right (Or.imp_left (List.mem_cons_of_mem first))
  | case4 first front behind other inductionHypothesis =>
      rw [List.cons_append, replaced, if_neg other, List.mem_cons] at left
      rcases left with rfl | later
      · exact Or.inr (Or.inl List.mem_cons_self)
      · exact (inductionHypothesis later).imp_right (Or.imp_left (List.mem_cons_of_mem first))

theorem replaced_skip (passed behind : List α) :
    replaced letter part marker passed.length (passed ++ behind) =
      replaced letter part marker 0 behind := by
  induction passed with
  | nil => rfl
  | cons first passed inductionHypothesis =>
      rw [List.length_cons, List.cons_append, replaced, inductionHypothesis]

/-- An occurrence at which the search arrives is replaced. -/
theorem replaced_here {found : List α} (nonempty : part ≠ []) (spelled : found.map letter = part)
    (behind : List α) :
    replaced letter part marker 0 (found ++ behind) =
      marker ++ replaced letter part marker 0 behind := by
  subst spelled
  cases found with
  | nil => exact absurd rfl nonempty
  | cons first found =>
      have here : ((first :: found).map letter).isPrefixOf
          ((first :: (found ++ behind)).map letter) = true := by
        rw [List.isPrefixOf_iff_prefix, ← List.cons_append, List.map_append]
        exact List.prefix_append _ _
      rw [List.cons_append, replaced, if_pos here, List.length_map, List.length_cons,
        Nat.add_sub_cancel, replaced_skip]

/-- Of an occurrence that the search arrives at nothing is left. -/
theorem mem_around {front found behind : List α} {element : α} (nonempty : part ≠ [])
    (spelled : found.map letter = part)
    (free : engaged letter part 0 front (found ++ behind) = 0)
    (left : element ∈ replaced letter part marker 0 (front ++ (found ++ behind))) :
    element ∈ marker ∨ element ∈ front ∨ element ∈ behind := by
  rcases mem_replaced_append left with inMarker | inFront | later
  · exact Or.inl inMarker
  · exact Or.inr (Or.inl inFront)
  · rw [free, replaced_here nonempty spelled, List.mem_append] at later
    rcases later with inMarker | inRest
    · exact Or.inl inMarker
    · exact (mem_replaced inRest).imp_right Or.inr

end SpecAsCode.Replacement
