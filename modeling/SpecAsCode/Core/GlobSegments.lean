import SpecAsCode.Core.GlobSource

/-!
# Segments of patterns

A pattern matches a path segment by segment: `**` stands for any segments, at the end of a
pattern for at least one, and inside a segment `*` stands for any characters and `?` for one.
-/

namespace SpecAsCode.Core

open SpecAsCode.Js

/-! ## The meaning of a pattern -/

/-- A segment of a pattern matches a segment of a path. -/
inductive SegmentMatch : JsString → JsString → Prop
  | nil : SegmentMatch [] []
  | star {segment part : JsString} (run : JsString) (later : SegmentMatch segment part) :
      SegmentMatch (unit '*' :: segment) (run ++ part)
  | mark {segment part : JsString} (code : CodeUnit) (later : SegmentMatch segment part) :
      SegmentMatch (unit '?' :: segment) (code :: part)
  | letter {segment part : JsString} {code : CodeUnit} (notStar : code ≠ unit '*')
      (notMark : code ≠ unit '?') (later : SegmentMatch segment part) :
      SegmentMatch (code :: segment) (code :: part)

/-- The segments of a pattern match those of a path. -/
inductive SegmentsMatch : List JsString → List JsString → Prop
  | nil : SegmentsMatch [] []
  | segment {segment part : JsString} {segments parts : List JsString}
      (other : segment ≠ js "**") (here : SegmentMatch segment part)
      (later : SegmentsMatch segments parts) : SegmentsMatch (segment :: segments) (part :: parts)
  | spread {segments parts : List JsString} (skipped : List JsString) (more : segments ≠ [])
      (later : SegmentsMatch segments parts) :
      SegmentsMatch (js "**" :: segments) (skipped ++ parts)
  | final {parts : List JsString} (some : parts ≠ []) : SegmentsMatch [js "**"] parts

/-- A pattern matches nothing without segments. -/
theorem SegmentsMatch.parts_ne_nil {segments parts : List JsString}
    (matched : SegmentsMatch segments parts) (nonempty : segments ≠ []) : parts ≠ [] := by
  induction matched with
  | nil => exact absurd rfl nonempty
  | segment other here later inductionHypothesis => exact List.cons_ne_nil _ _
  | spread skipped more later inductionHypothesis =>
      exact List.append_ne_nil_of_right_ne_nil _ (inductionHypothesis more)
  | final some => exact some

/-! ## Inside a segment -/

theorem segmentToRegex_cons (code : CodeUnit) (segment : JsString) :
    segmentToRegex (code :: segment) =
      (if code = unit '*' then Piece.run else if code = unit '?' then .one else .literal code) ::
        segmentToRegex segment :=
  rfl

/-- The pieces of a segment take a segment of the text. -/
theorem matchPieces_segment {segment : JsString} (plain : slash ∉ segment) (pieces : List Piece)
    (text : JsString) :
    matchPieces (segmentToRegex segment ++ pieces) text = true ↔
      ∃ part tail, text = part ++ tail ∧ slash ∉ part ∧ SegmentMatch segment part ∧
        matchPieces pieces tail = true := by
  induction segment generalizing text with
  | nil =>
      constructor
      · exact fun matched => ⟨[], text, rfl, List.not_mem_nil, .nil, matched⟩
      · rintro ⟨part, tail, rfl, -, ⟨⟩, matched⟩
        exact matched
  | cons code segment inductionHypothesis =>
      rw [List.mem_cons, not_or] at plain
      rw [segmentToRegex_cons, List.cons_append, matchPieces_cons]
      simp only [inductionHypothesis plain.2]
      split_ifs with isStar isMark
      · subst isStar
        constructor
        · rintro ⟨run, _, rfl, runPlain, part, tail, rfl, partPlain, here, matched⟩
          exact ⟨run ++ part, tail, (List.append_assoc ..).symm,
            fun inside => (List.mem_append.mp inside).elim runPlain partPlain, .star run here,
            matched⟩
        · rintro ⟨_, tail, rfl, wholePlain, here, matched⟩
          cases here with
          | @star _ part run later =>
              rw [List.mem_append, not_or] at wholePlain
              exact ⟨run, part ++ tail, List.append_assoc .., wholePlain.1, part, tail, rfl,
                wholePlain.2, later, matched⟩
          | letter notStar notMark later => exact absurd rfl notStar
      · subst isMark
        constructor
        · rintro ⟨_, _, rfl, ⟨letter, rfl, other⟩, part, tail, rfl, partPlain, here, matched⟩
          refine ⟨letter :: part, tail, rfl, ?_, .mark letter here, matched⟩
          rw [List.mem_cons, not_or]
          exact ⟨Ne.symm other, partPlain⟩
        · rintro ⟨_, tail, rfl, wholePlain, here, matched⟩
          cases here with
          | @mark _ part letter later =>
              rw [List.mem_cons, not_or] at wholePlain
              exact ⟨[letter], part ++ tail, rfl, ⟨letter, rfl, Ne.symm wholePlain.1⟩, part, tail,
                rfl, wholePlain.2, later, matched⟩
          | letter notStar notMark later => exact absurd rfl notMark
      · constructor
        · rintro ⟨_, _, rfl, rfl, part, tail, rfl, partPlain, here, matched⟩
          refine ⟨code :: part, tail, rfl, ?_, .letter isStar isMark here, matched⟩
          rw [List.mem_cons, not_or]
          exact ⟨plain.1, partPlain⟩
        · rintro ⟨_, tail, rfl, wholePlain, here, matched⟩
          cases here with
          | star run later => exact absurd rfl isStar
          | mark letter later => exact absurd rfl isMark
          | @letter _ part _ notStar notMark later =>
              rw [List.mem_cons, not_or] at wholePlain
              exact ⟨[code], part ++ tail, rfl, rfl, part, tail, rfl, wholePlain.2, later, matched⟩

/-! ## From segment to segment -/

/-- What a text of segments is in front of a slash and behind it. -/
theorem joinSegments_cut {parts : List JsString} (plain : ∀ part ∈ parts, slash ∉ part)
    {first rest : JsString} (firstPlain : slash ∉ first)
    (same : joinSegments parts = first ++ slash :: rest) :
    ∃ more, more ≠ [] ∧ parts = first :: more ∧ rest = joinSegments more := by
  cases parts with
  | nil => exact absurd same.symm (List.append_ne_nil_of_right_ne_nil _ (List.cons_ne_nil _ _))
  | cons part more =>
      rw [List.forall_mem_cons] at plain
      by_cases alone : more = []
      · subst alone
        have whole : joinSegments [part] = part := List.intercalate_singleton
        rw [whole] at same
        exact absurd (same ▸ by simp) plain.1
      · rw [joinSegments_cons part alone] at same
        have divided := congrArg (List.splitOn slash) same
        rw [List.splitOn_append_cons_self_of_not_mem plain.1,
          List.splitOn_append_cons_self_of_not_mem firstPlain] at divided
        obtain rfl := (List.cons.inj divided).1
        exact ⟨more, alone, rfl, ((List.cons.inj (List.append_cancel_left same)).2).symm⟩

theorem joinSegments_slashed {parts skipped : List JsString}
    (plain : ∀ part ∈ parts, slash ∉ part) (nonempty : parts ≠ [])
    (skippedPlain : ∀ part ∈ skipped, slash ∉ part) {rest : JsString}
    (same : joinSegments parts = slashed skipped ++ rest) :
    ∃ more, more ≠ [] ∧ parts = skipped ++ more ∧ rest = joinSegments more := by
  induction skipped generalizing parts with
  | nil => exact ⟨parts, nonempty, rfl, same.symm⟩
  | cons first skipped inductionHypothesis =>
      rw [List.forall_mem_cons] at skippedPlain
      have cut : joinSegments parts = first ++ slash :: (slashed skipped ++ rest) := by
        rw [same]
        simp [slashed]
      obtain ⟨others, some, rfl, later⟩ := joinSegments_cut plain skippedPlain.1 cut
      rw [List.forall_mem_cons] at plain
      obtain ⟨more, left, rfl, last⟩ :=
        inductionHypothesis plain.2 some skippedPlain.2 later.symm
      exact ⟨more, left, rfl, last⟩

theorem eq_singleton_of_plain {parts : List JsString} (nonempty : parts ≠ [])
    (plain : slash ∉ joinSegments parts) : ∃ part, parts = [part] := by
  cases parts with
  | nil => exact absurd rfl nonempty
  | cons part more =>
      cases more with
      | nil => exact ⟨part, rfl⟩
      | cons next more =>
          rw [joinSegments_cons part (List.cons_ne_nil _ _)] at plain
          exact absurd (by simp) plain

theorem mem_joinSegments {parts : List JsString} {code : CodeUnit}
    (inside : code ∈ joinSegments parts) : code = slash ∨ ∃ part ∈ parts, code ∈ part := by
  induction parts with
  | nil => exact absurd inside List.not_mem_nil
  | cons part more inductionHypothesis =>
      by_cases alone : more = []
      · subst alone
        have whole : joinSegments [part] = part := List.intercalate_singleton
        rw [whole] at inside
        exact Or.inr ⟨part, List.mem_cons_self, inside⟩
      · rw [joinSegments_cons part alone, List.mem_append, List.mem_cons] at inside
        rcases inside with here | rfl | later
        · exact Or.inr ⟨part, List.mem_cons_self, here⟩
        · exact Or.inl rfl
        · exact (inductionHypothesis later).imp_right
            fun ⟨other, among, member⟩ => ⟨other, List.mem_cons_of_mem _ among, member⟩

theorem mem_joinSegments_of_mem {parts : List JsString} {part : JsString} (among : part ∈ parts)
    {code : CodeUnit} (inside : code ∈ part) : code ∈ joinSegments parts := by
  induction parts with
  | nil => exact absurd among List.not_mem_nil
  | cons first more inductionHypothesis =>
      by_cases alone : more = []
      · subst alone
        obtain rfl := List.mem_singleton.mp among
        have whole : joinSegments [part] = part := List.intercalate_singleton
        rw [whole]
        exact inside
      · rw [joinSegments_cons first alone, List.mem_append, List.mem_cons]
        rcases List.mem_cons.mp among with rfl | later
        · exact Or.inl inside
        · exact Or.inr (Or.inr (inductionHypothesis later))

/-- What is said of all parts of a path: they are segments without line terminators. -/
def IsPlainPart (part : JsString) : Prop :=
  IsSegment part ∧ ∀ code ∈ part, isLineTerminator code = false

/-- The pieces of a pattern match a path if and only if the segments do. -/
theorem matchPieces_segments {parts segments : List JsString} (nonempty : segments ≠ [])
    (plain : ∀ segment ∈ segments, slash ∉ segment) (some : parts ≠ [])
    (partsPlain : ∀ part ∈ parts, IsPlainPart part) :
    matchPieces (segmentsToRegex segments) (joinSegments parts) = true ↔
      SegmentsMatch segments parts := by
  have noSlash : ∀ part ∈ parts, slash ∉ part := fun part among => (partsPlain part among).1.2
  fun_induction segmentsToRegex segments generalizing parts with
  | case1 => exact absurd rfl nonempty
  | case2 =>
      rw [matchPieces_cons]
      refine iff_of_true ⟨joinSegments parts, [], (List.append_nil _).symm, ?_, rfl⟩ (.final some)
      intro code inside
      rcases mem_joinSegments inside with rfl | ⟨part, among, member⟩
      · decide
      · exact (partsPlain part among).2 code member
  | case3 segment other =>
      rw [List.forall_mem_singleton] at plain
      have pieces := matchPieces_segment plain [] (joinSegments parts)
      rw [List.append_nil] at pieces
      rw [pieces]
      constructor
      · rintro ⟨part, tail, whole, partPlain, here, ended⟩
        obtain rfl := List.isEmpty_iff.mp ended
        rw [List.append_nil] at whole
        obtain ⟨single, rfl⟩ := eq_singleton_of_plain some (whole ▸ partPlain)
        obtain rfl : single = part := List.intercalate_singleton.symm.trans whole
        exact .segment other here .nil
      · intro matched
        cases matched with
        | segment _ here later =>
            cases later
            rw [List.forall_mem_singleton] at noSlash
            exact ⟨_, [], by rw [List.append_nil]; exact List.intercalate_singleton, noSlash, here,
              rfl⟩
        | spread skipped more later => exact absurd rfl other
        | final some => exact absurd rfl other
  | case4 next rest inductionHypothesis =>
      rw [List.forall_mem_cons] at plain
      rw [matchPieces_cons]
      constructor
      · rintro ⟨taken, tail, split, ⟨skipped, rfl, every⟩, matched⟩
        obtain ⟨more, left, rfl, rfl⟩ := joinSegments_slashed noSlash some
          (fun part among => (every part among).2) split
        rw [List.forall_mem_append] at partsPlain noSlash
        exact .spread skipped (List.cons_ne_nil _ _) ((inductionHypothesis (List.cons_ne_nil _ _)
          plain.2 left partsPlain.2 noSlash.2).mp matched)
      · intro matched
        cases matched with
        | segment other _ _ => exact absurd rfl other
        | @spread _ more skipped _ later =>
            rw [List.forall_mem_append] at partsPlain noSlash
            have left := later.parts_ne_nil (List.cons_ne_nil next rest)
            exact ⟨slashed skipped, joinSegments more, joinSegments_append skipped left,
              ⟨skipped, rfl, fun part among => (partsPlain.1 part among).1⟩,
              (inductionHypothesis (List.cons_ne_nil _ _) plain.2 left partsPlain.2
                noSlash.2).mpr later⟩
  | case5 segment next rest other inductionHypothesis =>
      rw [List.forall_mem_cons] at plain
      rw [matchPieces_segment plain.1]
      constructor
      · rintro ⟨part, tail, split, partPlain, here, matched⟩
        obtain ⟨_, behind, rfl, rfl, matched⟩ := (matchPieces_cons _ _ _).mp matched
        obtain ⟨more, left, rfl, rfl⟩ := joinSegments_cut noSlash partPlain split
        rw [List.forall_mem_cons] at partsPlain noSlash
        exact .segment other here ((inductionHypothesis (List.cons_ne_nil _ _) plain.2 left
          partsPlain.2 noSlash.2).mp matched)
      · intro matched
        cases matched with
        | @segment _ part _ more _ here later =>
            rw [List.forall_mem_cons] at partsPlain noSlash
            have left := later.parts_ne_nil (List.cons_ne_nil next rest)
            refine ⟨part, slash :: joinSegments more, joinSegments_cons part left, noSlash.1, here,
              (matchPieces_cons _ _ _).mpr ⟨[slash], joinSegments more, rfl, rfl, ?_⟩⟩
            exact (inductionHypothesis (List.cons_ne_nil _ _) plain.2 left partsPlain.2
              noSlash.2).mpr later
        | spread skipped more later => exact absurd rfl other

/-! ## Patterns and paths -/

theorem joinSegments_segments (path : JsString) : joinSegments (segments path) = path :=
  List.intercalate_splitOn slash

theorem mem_dropDotSlash {text : JsString} {code : CodeUnit} (inside : code ∈ dropDotSlash text) :
    code ∈ text := by
  fun_induction dropDotSlash text with
  | case1 first second rest dotSlash inductionHypothesis =>
      exact List.mem_cons_of_mem _ (List.mem_cons_of_mem _ (inductionHypothesis inside))
  | case2 => exact inside
  | case3 => exact inside

theorem mem_dropLeadingSlashes {text : JsString} {code : CodeUnit}
    (inside : code ∈ dropLeadingSlashes text) : code ∈ text := by
  fun_induction dropLeadingSlashes text with
  | case1 second rest inductionHypothesis =>
      exact List.mem_cons_of_mem _ (inductionHypothesis inside)
  | case2 => exact inside
  | case3 => exact inside

/-- A normalized path has no character that the path does not have, but for slashes. -/
theorem mem_normalizeRelPath {path : JsString} {code : CodeUnit}
    (inside : code ∈ normalizeRelPath path) : code = slash ∨ code ∈ path := by
  rw [normalizeRelPath, List.mem_reverse] at inside
  have member := mem_dropDotSlash (List.mem_reverse.mp (mem_dropLeadingSlashes inside))
  obtain ⟨source, among, same⟩ := List.mem_map.mp member
  split_ifs at same with backslash
  · exact Or.inl same.symm
  · exact Or.inr (same ▸ among)

/-- The parts of a safe path. -/
theorem isSegment_of_safe {path : JsString} (safe : isSafeRelativePath path = true) :
    ∀ part ∈ segments (normalizeRelPath path), IsSegment part := by
  intro part among
  rw [isSafeRelativePath] at safe
  split_ifs at safe
  have named := List.all_eq_true.mp safe part among
  rw [Bool.and_eq_true, Bool.and_eq_true, bne_iff_ne] at named
  exact ⟨named.1.1, slash_not_mem_segments among⟩

/-- A pattern matches a safe path without line terminators if and only if its segments match
those of the path. -/
theorem globMatch_iff (pattern path : JsString) (safe : isSafeRelativePath path = true)
    (oneLine : ∀ code ∈ path, isLineTerminator code = false) :
    globMatch pattern path = true ↔
      SegmentsMatch (segments (normalizeRelPath pattern)) (segments (normalizeRelPath path)) := by
  have plain : ∀ part ∈ segments (normalizeRelPath path), IsPlainPart part := by
    intro part among
    refine ⟨isSegment_of_safe safe part among, fun code inside => ?_⟩
    have member : code ∈ normalizeRelPath path := by
      rw [← joinSegments_segments (normalizeRelPath path)]
      exact mem_joinSegments_of_mem among inside
    rcases mem_normalizeRelPath member with rfl | original
    · decide
    · exact oneLine code original
  have matched := matchPieces_segments (List.splitOn_ne_nil _ (normalizeRelPath pattern))
    (fun segment among => slash_not_mem_segments among)
    (List.splitOn_ne_nil _ (normalizeRelPath path)) plain
  rw [← segments, ← segments, joinSegments_segments] at matched
  exact matched

theorem segmentsMatch_nested :
    SegmentsMatch (segments (normalizeRelPath (js "src/**/[a]*.t?")))
      (segments (normalizeRelPath (js "./src/lib/x/[a]b.ts"))) := by
  have oneLine : (js "./src/lib/x/[a]b.ts").all (fun code => !isLineTerminator code) = true := by
    decide
  exact (globMatch_iff (js "src/**/[a]*.t?") (js "./src/lib/x/[a]b.ts") (by decide +kernel)
    (fun code inside => by simpa using List.all_eq_true.mp oneLine code inside)).mp
    (by decide +kernel)

end SpecAsCode.Core
