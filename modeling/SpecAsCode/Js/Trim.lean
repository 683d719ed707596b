import SpecAsCode.Js.JsString
import Mathlib.Data.List.TakeWhile

/-!
# Trimmed texts

What `trim` takes away and what it leaves.
-/

namespace SpecAsCode.Js

/-- White space on both sides is dropped from a text. -/
theorem dropWhile_spaces {gap : JsString} (spaces : ∀ code ∈ gap, isSpace code = true)
    (rest : JsString) : (gap ++ rest).dropWhile isSpace = rest.dropWhile isSpace := by
  induction gap with
  | nil => rfl
  | cons code gap inductionHypothesis =>
      rw [List.cons_append, List.dropWhile_cons_of_pos (spaces code List.mem_cons_self)]
      exact inductionHypothesis fun other later => spaces other (List.mem_cons_of_mem _ later)

theorem dropWhile_eq_self {text : JsString}
    (solid : ∀ code, text.head? = some code → isSpace code = false) :
    text.dropWhile isSpace = text := by
  cases text with
  | nil => rfl
  | cons code rest =>
      exact List.dropWhile_cons_of_neg (by rw [solid code rfl]; exact Bool.false_ne_true)

/-- White space around a text that has none at its ends is what `trim` takes away. -/
theorem trim_between {lead text trail : JsString} (leads : ∀ code ∈ lead, isSpace code = true)
    (first : ∀ code, text.head? = some code → isSpace code = false)
    (last : ∀ code, text.getLast? = some code → isSpace code = false)
    (trails : ∀ code ∈ trail, isSpace code = true) : trim (lead ++ text ++ trail) = text := by
  have reversed : ∀ code ∈ trail.reverse, isSpace code = true :=
    fun code member => trails code (List.mem_reverse.mp member)
  rw [trim, List.append_assoc, dropWhile_spaces leads]
  by_cases empty : text = []
  · subst empty
    have nothing : trail.dropWhile isSpace = [] := by
      have dropped := dropWhile_spaces trails []
      rwa [List.append_nil] at dropped
    rw [List.nil_append, nothing]
    rfl
  · have front : ∀ code, (text ++ trail).head? = some code → isSpace code = false := by
      intro code atFront
      rw [List.head?_append_of_ne_nil _ empty] at atFront
      exact first code atFront
    rw [dropWhile_eq_self front, List.reverse_append, dropWhile_spaces reversed,
      dropWhile_eq_self, List.reverse_reverse]
    intro code atEnd
    rw [List.head?_reverse] at atEnd
    exact last code atEnd

/-- A text without white space at its ends is trimmed already. -/
theorem trim_eq_self {text : JsString}
    (first : ∀ code, text.head? = some code → isSpace code = false)
    (last : ∀ code, text.getLast? = some code → isSpace code = false) : trim text = text := by
  have trimmed := @trim_between [] text [] nofun first last nofun
  rwa [List.nil_append, List.append_nil] at trimmed

theorem isSpace_of_mem_takeWhile (text : JsString) :
    ∀ code ∈ text.takeWhile isSpace, isSpace code = true := fun code member => by
  simpa using List.all_eq_true.mp List.all_takeWhile code member

theorem head?_dropWhile_isSpace (text : JsString) :
    ∀ code, (text.dropWhile isSpace).head? = some code → isSpace code = false := by
  intro code first
  have stops := List.head?_dropWhile_not isSpace text
  rw [first] at stops
  simpa using stops

/-- A text that is not blank has a first code unit behind the white space. -/
theorem exists_solid {text : JsString} (visible : ¬ ∀ code ∈ text, isSpace code = true) :
    ∃ lead code rest, text = lead ++ code :: rest ∧ (∀ other ∈ lead, isSpace other = true) ∧
      isSpace code = false := by
  cases behind : text.dropWhile isSpace with
  | nil => exact absurd (List.dropWhile_eq_nil_iff.mp behind) visible
  | cons code rest =>
      refine ⟨text.takeWhile isSpace, code, rest, ?_, isSpace_of_mem_takeWhile text,
        head?_dropWhile_isSpace text code (by rw [behind]; rfl)⟩
      rw [← behind, List.takeWhile_append_dropWhile]

/-- The first code unit behind the white space is the first one of the trimmed text. -/
theorem exists_trim_cons {lead : JsString} {code : CodeUnit} (rest : JsString)
    (leads : ∀ other ∈ lead, isSpace other = true) (solid : isSpace code = false) :
    ∃ more, trim (lead ++ code :: rest) = code :: more := by
  have visible : ∀ text : JsString, (code :: text).dropWhile isSpace = code :: text := fun text =>
    List.dropWhile_cons_of_neg (by rw [solid]; exact Bool.false_ne_true)
  rw [trim, dropWhile_spaces leads, visible, List.reverse_cons, List.dropWhile_append]
  split_ifs
  · exact ⟨[], by rw [visible]; rfl⟩
  · exact ⟨_, by rw [List.reverse_append]; rfl⟩

/-- A text is its trimmed text with white space around it. -/
theorem exists_trim (text : JsString) :
    ∃ lead trail, text = lead ++ trim text ++ trail ∧ (∀ code ∈ lead, isSpace code = true) ∧
      (∀ code ∈ trail, isSpace code = true) ∧
      (∀ code, (trim text).head? = some code → isSpace code = false) ∧
      ∀ code, (trim text).getLast? = some code → isSpace code = false := by
  have behind : text.dropWhile isSpace =
      trim text ++ ((text.dropWhile isSpace).reverse.takeWhile isSpace).reverse := by
    rw [trim, ← List.reverse_append, List.takeWhile_append_dropWhile, List.reverse_reverse]
  refine ⟨text.takeWhile isSpace, ((text.dropWhile isSpace).reverse.takeWhile isSpace).reverse, ?_,
    isSpace_of_mem_takeWhile text,
    fun code member => isSpace_of_mem_takeWhile _ code (List.mem_reverse.mp member),
    fun code first => ?_, fun code last => ?_⟩
  · rw [List.append_assoc, ← behind, List.takeWhile_append_dropWhile]
  · refine head?_dropWhile_isSpace text code ?_
    rw [behind, List.head?_append, first]
    rfl
  · rw [trim, List.getLast?_reverse] at last
    exact head?_dropWhile_isSpace _ code last

/-- Trimming leaves what stands between two texts in its place. -/
theorem exists_trim_around {core : JsString} (nonempty : core ≠ [])
    (starts : ∀ code, core.head? = some code → isSpace code = false)
    (ends : ∀ code, core.getLast? = some code → isSpace code = false) (front back : JsString) :
    ∃ before after, trim (front ++ core ++ back) = before ++ core ++ after := by
  have opening : ∀ text behind : JsString, text ≠ [] →
      (∀ code, text.head? = some code → isSpace code = false) →
      ∀ code, (behind.dropWhile isSpace ++ text).head? = some code → isSpace code = false := by
    intro text behind solid starts code same
    cases front : behind.dropWhile isSpace with
    | nil =>
        rw [front] at same
        exact starts code same
    | cons first rest =>
        rw [front] at same
        exact head?_dropWhile_isSpace behind code (by rw [front]; exact same)
  have parted : back = (back.reverse.dropWhile isSpace).reverse ++
      (back.reverse.takeWhile isSpace).reverse := by
    rw [← List.reverse_append, List.takeWhile_append_dropWhile, List.reverse_reverse]
  refine ⟨front.dropWhile isSpace, (back.reverse.dropWhile isSpace).reverse, ?_⟩
  have whole : front ++ core ++ back = front.takeWhile isSpace ++
      (front.dropWhile isSpace ++ core ++ (back.reverse.dropWhile isSpace).reverse) ++
        (back.reverse.takeWhile isSpace).reverse := by
    nth_rewrite 1 [← List.takeWhile_append_dropWhile (p := isSpace) (l := front), parted]
    simp only [List.append_assoc]
  rw [whole]
  refine trim_between (isSpace_of_mem_takeWhile front) ?_ (fun code same => ?_)
    fun code member => isSpace_of_mem_takeWhile _ code (List.mem_reverse.mp member)
  · rw [List.append_assoc]
    refine opening _ front (by simp [nonempty]) fun code same => ?_
    rw [List.head?_append_of_ne_nil _ nonempty] at same
    exact starts code same
  · rw [← List.head?_reverse, List.reverse_append, List.reverse_reverse, List.reverse_append] at same
    refine opening _ back.reverse (by simp [nonempty]) (fun other atEnd => ?_) code same
    rw [List.head?_append_of_ne_nil _ (by simpa using nonempty), List.head?_reverse] at atEnd
    exact ends other atEnd

end SpecAsCode.Js
