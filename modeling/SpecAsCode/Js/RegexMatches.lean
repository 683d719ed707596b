import SpecAsCode.Js.Regex

/-!
# Matches of regular expressions

Which part of a text a regular expression matches, between what stands before and behind the part.
A core without anchors between two guards is found by looking at the ends of these only.
-/

namespace SpecAsCode.Js.Regex

/-! ## What matches -/

/-- A part is put together from pieces that are not empty. -/
inductive Repeats (Fits : JsString → JsString → JsString → Prop) :
    JsString → JsString → JsString → Prop
  | nil (pre post : JsString) : Repeats Fits pre [] post
  | cons {pre first rest post : JsString} (nonempty : first ≠ [])
      (here : Fits pre first (rest ++ post)) (later : Repeats Fits (pre ++ first) rest post) :
      Repeats Fits pre (first ++ rest) post

/-- The expression matches a part between what is before it and what is behind it. -/
def Fits : Regex → JsString → JsString → JsString → Prop
  | one allowed, _, mid, _ => ∃ code, mid = [code] ∧ allowed code = true
  | epsilon, _, mid, _ => mid = []
  | seq first second, pre, mid, post =>
      ∃ one two, mid = one ++ two ∧ first.Fits pre one (two ++ post) ∧
        second.Fits (pre ++ one) two post
  | alt first second, pre, mid, post => first.Fits pre mid post ∨ second.Fits pre mid post
  | star inner, pre, mid, post => Repeats inner.Fits pre mid post
  | start, pre, mid, _ => mid = [] ∧ pre = []
  | stop, _, mid, post => mid = [] ∧ post = []

theorem mem_rounds_iff {inner : Regex} {size : Nat}
    (mem : ∀ pre text rest : JsString, pre.length + text.length = size →
      (rest ∈ rests size inner text ↔ ∃ mid, text = mid ++ rest ∧ inner.Fits pre mid rest))
    (count : Nat) (pre text rest : JsString) (sized : pre.length + text.length = size)
    (enough : text.length ≤ count) :
    rest ∈ rounds (rests size inner) count text ↔
      ∃ mid, text = mid ++ rest ∧ Repeats inner.Fits pre mid rest := by
  induction count generalizing pre text with
  | zero =>
      have empty : text = [] := List.length_eq_zero_iff.mp (Nat.le_zero.mp enough)
      subst empty
      rw [rounds, List.mem_singleton]
      constructor
      · rintro rfl
        exact ⟨[], rfl, .nil pre []⟩
      · rintro ⟨mid, shape, -⟩
        exact (List.append_eq_nil_iff.mp shape.symm).2
  | succ count inductionHypothesis =>
      rw [rounds, List.mem_cons, List.mem_flatMap]
      constructor
      · rintro (rfl | ⟨next, among, later⟩)
        · exact ⟨[], rfl, .nil pre rest⟩
        · rw [List.mem_filter, mem pre text next sized, decide_eq_true_iff] at among
          obtain ⟨⟨first, rfl, here⟩, shorter⟩ := among
          rw [List.length_append] at shorter sized enough
          have sizedNext : (pre ++ first).length + next.length = size := by
            rw [List.length_append]
            omega
          obtain ⟨mid, rfl, repeated⟩ :=
            (inductionHypothesis (pre ++ first) next sizedNext (by omega)).mp later
          refine ⟨first ++ mid, (List.append_assoc ..).symm, .cons ?_ here repeated⟩
          rintro rfl
          exact absurd shorter (by simp)
      · rintro ⟨mid, rfl, repeated⟩
        cases repeated with
        | nil => exact Or.inl rfl
        | @cons _ first more _ nonempty here later =>
            rw [List.append_assoc] at sized enough ⊢
            have positive := List.length_pos_iff.mpr nonempty
            rw [List.length_append] at sized enough
            have sizedNext : (pre ++ first).length + (more ++ rest).length = size := by
              rw [List.length_append]
              omega
            refine Or.inr ⟨more ++ rest, ?_, ?_⟩
            · rw [List.mem_filter, mem pre (first ++ (more ++ rest)) (more ++ rest)
                (by rw [List.length_append]; exact sized), decide_eq_true_iff]
              exact ⟨⟨first, rfl, here⟩, by simp only [List.length_append]; omega⟩
            · exact (inductionHypothesis (pre ++ first) (more ++ rest) sizedNext (by omega)).mpr
                ⟨more, rfl, later⟩

/-- What can be left of a text is what is behind a part that matches. -/
theorem mem_rests_iff (regex : Regex) {size : Nat} (pre text rest : JsString)
    (sized : pre.length + text.length = size) :
    rest ∈ rests size regex text ↔ ∃ mid, text = mid ++ rest ∧ regex.Fits pre mid rest := by
  induction regex generalizing pre text rest with
  | one allowed =>
      cases text with
      | nil =>
          refine iff_of_false (by rw [rests]; exact List.not_mem_nil) ?_
          rintro ⟨mid, shape, code, rfl, -⟩
          cases shape
      | cons first others =>
          rw [rests]
          constructor
          · intro member
            split_ifs at member with isAllowed
            · rw [List.mem_singleton.mp member]
              exact ⟨[first], rfl, first, rfl, isAllowed⟩
            · cases member
          · rintro ⟨mid, shape, code, rfl, isAllowed⟩
            cases shape
            rw [if_pos isAllowed]
            exact List.mem_singleton_self _
  | epsilon =>
      rw [rests, List.mem_singleton]
      constructor
      · rintro rfl
        exact ⟨[], rfl, rfl⟩
      · rintro ⟨mid, rfl, empty⟩
        rw [show mid = [] from empty, List.nil_append]
  | seq first second firstHypothesis secondHypothesis =>
      rw [rests, List.mem_flatMap]
      constructor
      · rintro ⟨next, among, later⟩
        obtain ⟨one, rfl, here⟩ := (firstHypothesis pre text next sized).mp among
        rw [List.length_append] at sized
        obtain ⟨two, rfl, there⟩ := (secondHypothesis (pre ++ one) next rest
          (by rw [List.length_append]; omega)).mp later
        exact ⟨one ++ two, (List.append_assoc ..).symm, one, two, rfl, here, there⟩
      · rintro ⟨mid, rfl, one, two, rfl, here, there⟩
        rw [List.append_assoc] at sized ⊢
        refine ⟨two ++ rest, (firstHypothesis pre _ _ sized).mpr ⟨one, rfl, here⟩, ?_⟩
        rw [List.length_append] at sized
        exact (secondHypothesis (pre ++ one) _ _ (by rw [List.length_append]; omega)).mpr
          ⟨two, rfl, there⟩
  | alt first second firstHypothesis secondHypothesis =>
      rw [rests, List.mem_append, firstHypothesis pre text rest sized,
        secondHypothesis pre text rest sized, ← exists_or]
      simp only [Fits, and_or_left]
  | star inner inductionHypothesis =>
      rw [rests]
      exact mem_rounds_iff (fun pre text rest => inductionHypothesis pre text rest) text.length pre
        text rest sized (Nat.le_refl _)
  | start =>
      rw [rests]
      constructor
      · intro member
        split_ifs at member with whole
        · rw [List.mem_singleton.mp member]
          exact ⟨[], rfl, rfl, List.length_eq_zero_iff.mp (by omega)⟩
        · cases member
      · rintro ⟨mid, rfl, empty, first⟩
        rw [empty, List.nil_append] at sized ⊢
        rw [if_pos (by rw [← sized, first, List.length_nil, Nat.zero_add])]
        exact List.mem_singleton_self _
  | stop =>
      rw [rests]
      constructor
      · intro member
        split_ifs at member with empty
        · rw [List.mem_singleton.mp member]
          exact ⟨[], rfl, rfl, empty⟩
        · cases member
      · rintro ⟨mid, rfl, empty, last⟩
        rw [empty, last, List.nil_append, if_pos rfl]
        exact List.mem_singleton_self _

theorem test_iff {regex : Regex} {text : JsString} :
    regex.test text = true ↔
      ∃ pre mid post, text = pre ++ mid ++ post ∧ regex.Fits pre mid post := by
  rw [test, List.any_eq_true]
  constructor
  · rintro ⟨tail, among, found⟩
    obtain ⟨pre, rfl⟩ := (List.mem_tails tail text).mp among
    obtain ⟨post, left⟩ := List.exists_mem_of_ne_nil _ (by simpa using found)
    rw [← List.length_append] at left
    obtain ⟨mid, rfl, fits⟩ :=
      (mem_rests_iff regex pre tail post List.length_append.symm).mp left
    exact ⟨pre, mid, post, (List.append_assoc ..).symm, fits⟩
  · rintro ⟨pre, mid, post, rfl, fits⟩
    rw [List.append_assoc]
    refine ⟨mid ++ post, (List.mem_tails _ _).mpr (List.suffix_append _ _), ?_⟩
    have left := (mem_rests_iff regex pre (mid ++ post) post rfl).mpr ⟨mid, rfl, fits⟩
    rw [← List.length_append] at left
    simpa using List.ne_nil_of_mem left

/-- One of two expressions is found when one of them is. -/
theorem test_alt (first second : Regex) (text : JsString) :
    (alt first second).test text = (first.test text || second.test text) := by
  rw [Bool.eq_iff_iff, Bool.or_eq_true, test_iff, test_iff, test_iff]
  constructor
  · rintro ⟨pre, mid, post, shape, here | there⟩
    · exact Or.inl ⟨pre, mid, post, shape, here⟩
    · exact Or.inr ⟨pre, mid, post, shape, there⟩
  · rintro (⟨pre, mid, post, shape, here⟩ | ⟨pre, mid, post, shape, there⟩)
    · exact ⟨pre, mid, post, shape, Or.inl here⟩
    · exact ⟨pre, mid, post, shape, Or.inr there⟩

end SpecAsCode.Js.Regex
