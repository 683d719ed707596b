import SpecAsCode.Js.RegexMatches

/-!
# Guarded matches

A core without anchors between a guard before it and a guard behind it.  Where it occurs in a text
that is made of two texts with a mark between them is known from the two texts.
-/

namespace SpecAsCode.Js.Regex

/-! ## Cores -/

/-- The expression has no anchors. -/
def plain : Regex → Bool
  | one _ => true
  | epsilon => true
  | seq first second => first.plain && second.plain
  | alt first second => first.plain && second.plain
  | star inner => inner.plain
  | start => false
  | stop => false

/-- A text that an expression without anchors matches, wherever it stands. -/
abbrev Matches (regex : Regex) (mid : JsString) : Prop :=
  regex.Fits [] mid []

theorem fits_moved {regex : Regex} (isPlain : regex.plain = true) {pre mid post : JsString}
    (fits : regex.Fits pre mid post) (before behind : JsString) : regex.Fits before mid behind := by
  induction regex generalizing pre mid post before behind with
  | one allowed => exact fits
  | epsilon => exact fits
  | seq first second firstHypothesis secondHypothesis =>
      rw [plain, Bool.and_eq_true] at isPlain
      obtain ⟨one, two, rfl, here, there⟩ := fits
      exact ⟨one, two, rfl, firstHypothesis isPlain.1 here before _,
        secondHypothesis isPlain.2 there _ behind⟩
  | alt first second firstHypothesis secondHypothesis =>
      rw [plain, Bool.and_eq_true] at isPlain
      rcases fits with here | there
      · exact Or.inl (firstHypothesis isPlain.1 here before behind)
      · exact Or.inr (secondHypothesis isPlain.2 there before behind)
  | star inner inductionHypothesis =>
      induction fits generalizing before with
      | nil pre post => exact .nil before behind
      | cons nonempty here later repeated =>
          exact .cons nonempty (inductionHypothesis isPlain here before _) (repeated _)
  | start => cases isPlain
  | stop => cases isPlain

theorem fits_all_append {first second : List Regex} {pre mid post : JsString} :
    (all (first ++ second)).Fits pre mid post ↔
      ∃ one two, mid = one ++ two ∧ (all first).Fits pre one (two ++ post) ∧
        (all second).Fits (pre ++ one) two post := by
  induction first generalizing pre mid with
  | nil =>
      constructor
      · intro fits
        exact ⟨[], mid, rfl, rfl, by rwa [List.append_nil]⟩
      · rintro ⟨one, two, rfl, empty, fits⟩
        rw [show one = [] from empty, List.append_nil] at fits
        rwa [show one = [] from empty]
  | cons part first inductionHypothesis =>
      constructor
      · rintro ⟨one, two, rfl, here, later⟩
        obtain ⟨three, four, rfl, middle, last⟩ := inductionHypothesis.mp later
        rw [List.append_assoc] at last here
        exact ⟨one ++ three, four, (List.append_assoc ..).symm, ⟨one, three, rfl, here, middle⟩,
          last⟩
      · rintro ⟨_, four, rfl, ⟨one, three, rfl, here, middle⟩, last⟩
        rw [← List.append_assoc] at last
        refine ⟨one, three ++ four, List.append_assoc .., by rwa [List.append_assoc], ?_⟩
        exact inductionHypothesis.mpr ⟨three, four, rfl, middle, last⟩

/-! ## Guards -/

/-- What must stand before a core. -/
inductive LeftGuard where
  | free
  | start
  | blank

/-- What must stand behind a core. -/
inductive RightGuard where
  | free
  | blank

def LeftGuard.parts : LeftGuard → List Regex
  | .free => []
  | .start => [Regex.start]
  | .blank => [before]

def LeftGuard.Allows : LeftGuard → JsString → Prop
  | .free, _ => True
  | .start, pre => pre = []
  | .blank, pre => ∀ code, pre.getLast? = some code → isSpace code = true

def RightGuard.parts : RightGuard → List Regex
  | .free => []
  | .blank => [after]

def RightGuard.Allows : RightGuard → JsString → Prop
  | .free, _ => True
  | .blank, post => ∀ code, post.head? = some code → isSpace code = true

/-- A core between two guards. -/
structure Branch where
  left : LeftGuard
  core : List Regex
  right : RightGuard

namespace Branch

def regex (branch : Branch) : Regex :=
  all (branch.left.parts ++ (branch.core ++ branch.right.parts))

/-- The core stands somewhere in a text, with what the guards ask for around it. -/
def Occurs (branch : Branch) (text : JsString) : Prop :=
  ∃ pre mid post, text = pre ++ mid ++ post ∧ (all branch.core).Matches mid ∧
    branch.left.Allows pre ∧ branch.right.Allows post

end Branch

/-- What a left guard takes of a text, and what is before the core then. -/
theorem fits_left {guard : LeftGuard} {pre taken post : JsString}
    (fits : (all guard.parts).Fits pre taken post) : guard.Allows (pre ++ taken) := by
  cases guard with
  | free => trivial
  | start =>
      obtain ⟨one, two, rfl, ⟨rfl, rfl⟩, rfl⟩ := fits
      rfl
  | blank =>
      obtain ⟨one, two, rfl, ⟨rfl, rfl⟩ | ⟨code, rfl, space⟩, rfl⟩ := fits
      · nofun
      · intro other last
        rw [List.append_nil, List.getLast?_concat] at last
        cases last
        exact space

theorem exists_fits_left {guard : LeftGuard} {pre : JsString} (allows : guard.Allows pre)
    (post : JsString) :
    ∃ front taken, pre = front ++ taken ∧ (all guard.parts).Fits front taken post := by
  cases guard with
  | free => exact ⟨pre, [], (List.append_nil pre).symm, rfl⟩
  | start =>
      rw [show pre = [] from allows]
      exact ⟨[], [], rfl, [], [], rfl, ⟨rfl, rfl⟩, rfl⟩
  | blank =>
      rcases List.eq_nil_or_concat pre with rfl | ⟨front, code, rfl⟩
      · exact ⟨[], [], rfl, [], [], rfl, Or.inl ⟨rfl, rfl⟩, rfl⟩
      · rw [List.concat_eq_append] at allows ⊢
        have space := allows code List.getLast?_concat
        exact ⟨front, [code], rfl, [code], [], rfl, Or.inr ⟨code, rfl, space⟩, rfl⟩

theorem fits_right {guard : RightGuard} {pre taken post : JsString}
    (fits : (all guard.parts).Fits pre taken post) : guard.Allows (taken ++ post) := by
  cases guard with
  | free => trivial
  | blank =>
      obtain ⟨one, two, rfl, ⟨code, rfl, space⟩ | ⟨rfl, last⟩, rfl⟩ := fits
      · intro other first
        cases first
        exact space
      · rw [List.nil_append] at last
        rw [List.append_nil, List.nil_append, last]
        nofun

theorem exists_fits_right {guard : RightGuard} {post : JsString} (allows : guard.Allows post)
    (pre : JsString) :
    ∃ taken rest, post = taken ++ rest ∧ (all guard.parts).Fits pre taken rest := by
  cases guard with
  | free => exact ⟨[], post, rfl, rfl⟩
  | blank =>
      cases post with
      | nil => exact ⟨[], [], rfl, [], [], rfl, Or.inr ⟨rfl, rfl⟩, rfl⟩
      | cons code rest =>
          have space := allows code rfl
          exact ⟨[code], rest, rfl, [code], [], rfl, Or.inl ⟨code, rfl, space⟩, rfl⟩

/-- A guarded core is found just where it occurs. -/
theorem Branch.test_iff {branch : Branch} (isPlain : (all branch.core).plain = true)
    {text : JsString} : branch.regex.test text = true ↔ branch.Occurs text := by
  rw [Regex.test_iff]
  constructor
  · rintro ⟨pre, mid, post, rfl, fits⟩
    obtain ⟨taken, rest, rfl, left, fits⟩ := fits_all_append.mp fits
    obtain ⟨core, behind, rfl, middle, right⟩ := fits_all_append.mp fits
    refine ⟨pre ++ taken, core, behind ++ post, by simp, fits_moved isPlain middle _ _,
      fits_left left, fits_right right⟩
  · rintro ⟨pre, mid, post, rfl, middle, left, right⟩
    obtain ⟨taken, rest, rfl, behind⟩ := exists_fits_right right (pre ++ mid)
    obtain ⟨front, one, rfl, ahead⟩ := exists_fits_left left (mid ++ taken ++ rest)
    refine ⟨front, one ++ (mid ++ taken), rest, by simp, fits_all_append.mpr
      ⟨one, mid ++ taken, rfl, ahead, fits_all_append.mpr ⟨mid, taken, rfl, ?_, ?_⟩⟩⟩
    · exact fits_moved isPlain middle _ _
    · exact behind

/-! ## Texts with a mark between them -/

/-- A part that begins and ends with something else than white space and has none of the code
units of marks. -/
structure Phrase (marks : CodeUnit → Bool) (mid : JsString) : Prop where
  nonempty : mid ≠ []
  first : ∀ code, mid.head? = some code → isSpace code = false
  last : ∀ code, mid.getLast? = some code → isSpace code = false
  unmarked : ∀ code ∈ mid, marks code = false

def IsGap (gap : JsString) : Prop :=
  ∀ code ∈ gap, isSpace code = true

theorem isGap_single : IsGap [unit ' '] := by
  intro code member
  rw [List.mem_singleton.mp member]
  decide

/-- A text is made of two texts with a mark between them; white space separates the mark from a
text that is not empty. -/
structure Joined (marks : CodeUnit → Bool) (line first second : JsString) : Prop where
  parts : ∃ gap mark behind, line = first ++ gap ++ mark ++ (behind ++ second) ∧
    IsGap gap ∧ (first ≠ [] → gap ≠ []) ∧
    IsGap behind ∧ (second ≠ [] → behind ≠ []) ∧
    mark ≠ [] ∧ ∀ code ∈ mark, marks code = true ∧ isSpace code = false

section Joined

variable {marks : CodeUnit → Bool}

/-- A phrase stands before a mark or behind it. -/
theorem phrase_beside {left mark right pre mid post : JsString} (phrase : Phrase marks mid)
    (nonempty : mark ≠ []) (marked : ∀ code ∈ mark, marks code = true)
    (shape : left ++ mark ++ right = pre ++ mid ++ post) :
    (∃ more, left = pre ++ mid ++ more ∧ post = more ++ mark ++ right) ∨
      ∃ more, right = more ++ mid ++ post ∧ pre = left ++ mark ++ more := by
  have apart : ∀ code ∈ mid, code ∉ mark := by
    intro code inMid inMark
    exact Bool.false_ne_true ((phrase.unmarked code inMid).symm.trans (marked code inMark))
  rw [List.append_assoc left] at shape
  rcases List.append_eq_append_iff.mp shape with ⟨finished, sides, rest⟩ | ⟨more, rfl, rfl⟩
  · rcases List.append_eq_append_iff.mp sides with ⟨front, rfl, rfl⟩ | ⟨more, rfl, rfl⟩
    · cases finished with
      | nil => exact Or.inl ⟨[], by simp, by simpa using rest.symm⟩
      | cons code finished =>
          obtain ⟨first, others, rfl⟩ := List.exists_cons_of_ne_nil nonempty
          obtain ⟨rfl, -⟩ := List.cons.inj rest
          exact absurd List.mem_cons_self (apart first (by simp))
    · rw [List.append_assoc] at rest
      rcases List.append_eq_append_iff.mp rest with ⟨behind, rfl, rfl⟩ | ⟨finished, rfl, later⟩
      · exact Or.inr ⟨behind, (List.append_assoc ..).symm, (List.append_assoc ..).symm⟩
      · cases finished with
        | nil => exact Or.inr ⟨[], by simpa using later.symm, by simp⟩
        | cons code finished =>
            obtain ⟨first, others, rfl⟩ := List.exists_cons_of_ne_nil phrase.nonempty
            obtain ⟨rfl, -⟩ := List.cons.inj later
            exact absurd (by simp) (apart first List.mem_cons_self)
  · exact Or.inl ⟨more, rfl, (List.append_assoc ..).symm⟩

/-- A phrase that stands before white space stands in what is before it. -/
theorem phrase_before_gap {first gap pre mid more : JsString} (phrase : Phrase marks mid)
    (isGap : IsGap gap) (shape : first ++ gap = pre ++ mid ++ more) :
    ∃ post, first = pre ++ mid ++ post ∧ more = post ++ gap := by
  rcases List.append_eq_append_iff.mp shape with ⟨finished, sides, rest⟩ | ⟨post, rfl, rfl⟩
  · rcases List.eq_nil_or_concat finished with rfl | ⟨front, last, rfl⟩
    · exact ⟨[], by simpa using sides.symm, by simpa using rest.symm⟩
    · -- the phrase would end in white space
      have solid : isSpace last = false := by
        refine phrase.last last ?_
        rw [← List.getLast?_append_of_ne_nil pre phrase.nonempty, sides, List.concat_eq_append,
          ← List.append_assoc, List.getLast?_concat]
      have space := isGap last (by rw [rest]; simp)
      rw [solid] at space
      cases space
  · exact ⟨post, rfl, rfl⟩

/-- A phrase that stands behind white space stands in what is behind it. -/
theorem phrase_behind_gap {gap second more mid post : JsString} (phrase : Phrase marks mid)
    (isGap : IsGap gap) (shape : gap ++ second = more ++ mid ++ post) :
    ∃ pre, second = pre ++ mid ++ post ∧ more = gap ++ pre := by
  rw [List.append_assoc] at shape
  rcases List.append_eq_append_iff.mp shape with ⟨pre, rfl, rfl⟩ | ⟨finished, rfl, rest⟩
  · exact ⟨pre, (List.append_assoc ..).symm, rfl⟩
  · cases finished with
    | nil => exact ⟨[], by simpa using rest.symm, by simp⟩
    | cons code finished =>
        obtain ⟨first, others, rfl⟩ := List.exists_cons_of_ne_nil phrase.nonempty
        obtain ⟨rfl, -⟩ := List.cons.inj rest
        have space := isGap first (by simp)
        rw [phrase.first first rfl] at space
        cases space

/-- What is before a phrase in the first text is before it in the line. -/
theorem RightGuard.allows_gap {guard : RightGuard} {post gap : JsString} (isGap : IsGap gap)
    (allows : guard.Allows post) (rest : JsString) (separated : gap ≠ []) :
    guard.Allows (post ++ gap ++ rest) := by
  cases guard with
  | free => trivial
  | blank =>
      intro code first
      cases post with
      | nil =>
          obtain ⟨space, others, rfl⟩ := List.exists_cons_of_ne_nil separated
          rw [← Option.some.inj first]
          exact isGap space List.mem_cons_self
      | cons head others => exact allows code first

theorem RightGuard.allows_of_gap {guard : RightGuard} {post rest : JsString}
    (allows : guard.Allows (post ++ rest)) : guard.Allows post := by
  cases guard with
  | free => trivial
  | blank =>
      intro code first
      cases post with
      | nil => cases first
      | cons head others => exact allows code first

/-- Behind a blank nothing stands at the start. -/
theorem LeftGuard.allows_behind {guard : LeftGuard} {front gap pre : JsString} (isGap : IsGap gap)
    (separated : gap ≠ []) (nonempty : front ≠ []) :
    guard.Allows (front ++ (gap ++ pre)) ↔ guard.Allows (unit ' ' :: pre) := by
  cases guard with
  | free => exact Iff.rfl
  | start => exact iff_of_false (by simp [LeftGuard.Allows, nonempty]) nofun
  | blank =>
      rcases List.eq_nil_or_concat pre with rfl | ⟨others, last, rfl⟩
      · refine iff_of_true (fun code last => isGap code ?_) fun code last => ?_
        · rw [List.append_nil, List.getLast?_append_of_ne_nil front separated] at last
          exact List.mem_of_getLast? last
        · cases last
          decide
      · rw [LeftGuard.Allows, LeftGuard.Allows, List.concat_eq_append, ← List.append_assoc,
          ← List.append_assoc, List.getLast?_concat, ← List.cons_append, List.getLast?_concat]

theorem not_occurs_nil {branch : Branch}
    (phrased : ∀ mid, (all branch.core).Matches mid → Phrase marks mid) : ¬ branch.Occurs [] := by
  rintro ⟨pre, mid, post, shape, core, -⟩
  exact (phrased mid core).nonempty (List.append_eq_nil_iff.mp
    (List.append_eq_nil_iff.mp shape.symm).1).2

/-- A guarded phrase occurs in a line when it does in the first text, or in the second one behind a
blank. -/
theorem Branch.occurs_joined {branch : Branch}
    (phrased : ∀ mid, (all branch.core).Matches mid → Phrase marks mid)
    {line first second : JsString} (joined : Joined marks line first second) :
    branch.Occurs line ↔ branch.Occurs first ∨ branch.Occurs (unit ' ' :: second) := by
  obtain ⟨gap, mark, behind, rfl, isGap, gapped, isBehind, behindGapped, marked, isMark⟩ :=
    joined.parts
  constructor
  · rintro ⟨pre, mid, post, shape, core, left, right⟩
    have phrase := phrased mid core
    rcases phrase_beside phrase marked (fun code member => (isMark code member).1) shape with
      ⟨more, early, rfl⟩ | ⟨more, late, rfl⟩
    · obtain ⟨post, rfl, rfl⟩ := phrase_before_gap phrase isGap early
      rw [List.append_assoc, List.append_assoc] at right
      exact Or.inl ⟨pre, mid, post, rfl, core, left, RightGuard.allows_of_gap right⟩
    · obtain ⟨pre, rfl, rfl⟩ := phrase_behind_gap phrase isBehind late
      have separated := behindGapped (by simp [phrase.nonempty])
      refine Or.inr ⟨unit ' ' :: pre, mid, post, rfl, core, ?_, right⟩
      exact (LeftGuard.allows_behind isBehind separated (by simp [marked])).mp left
  · rintro (⟨pre, mid, post, rfl, core, left, right⟩ | ⟨pre, mid, post, shape, core, left, right⟩)
    · have separated := gapped (by simp [(phrased mid core).nonempty])
      refine ⟨pre, mid, post ++ gap ++ (mark ++ (behind ++ second)), by simp, core, left, ?_⟩
      exact RightGuard.allows_gap isGap right _ separated
    · have phrase := phrased mid core
      obtain ⟨pre, rfl, rfl⟩ := phrase_behind_gap phrase isGap_single shape
      have separated := behindGapped (by simp [phrase.nonempty])
      refine ⟨first ++ gap ++ mark ++ (behind ++ pre), mid, post, by simp, core, ?_, right⟩
      exact (LeftGuard.allows_behind isBehind separated (by simp [marked])).mpr left

/-- What occurs behind a blank occurs without it. -/
theorem Branch.occurs_of_behind {branch : Branch}
    (phrased : ∀ mid, (all branch.core).Matches mid → Phrase marks mid) {second : JsString}
    (occurs : branch.Occurs (unit ' ' :: second)) : branch.Occurs second := by
  obtain ⟨pre, mid, post, shape, core, left, right⟩ := occurs
  obtain ⟨pre, rfl, rfl⟩ := phrase_behind_gap (phrased mid core) isGap_single shape
  refine ⟨pre, mid, post, rfl, core, ?_, right⟩
  cases guard : branch.left with
  | free => trivial
  | start =>
      rw [guard] at left
      cases left
  | blank =>
      rw [guard] at left
      intro code last
      refine left code ?_
      rw [List.getLast?_append_of_ne_nil _ (by rintro rfl; cases last)]
      exact last

/-- What is not tied to the start occurs behind a blank as well. -/
theorem Branch.occurs_behind {branch : Branch} (anywhere : branch.left ≠ .start)
    {second : JsString} (occurs : branch.Occurs second) : branch.Occurs (unit ' ' :: second) := by
  obtain ⟨pre, mid, post, rfl, core, left, right⟩ := occurs
  refine ⟨unit ' ' :: pre, mid, post, rfl, core, ?_, right⟩
  cases guard : branch.left with
  | free => trivial
  | start => exact absurd guard anywhere
  | blank =>
      rw [guard] at left
      intro code last
      cases pre with
      | nil =>
          cases last
          decide
      | cons head others => exact left code (by rwa [List.getLast?_cons_cons] at last)

end Joined

end SpecAsCode.Js.Regex
