import SpecAsCode.Core.Glob
import Mathlib.Data.List.TakeWhile

/-!
# Overlap of glob patterns

Which pairs of patterns that match a common path are reported as overlapping.
-/

namespace SpecAsCode.Core

open SpecAsCode.Js

/-! ## Literal segments -/

/-- The segments from the first one with a wildcard on. -/
def wildSegments (pattern : JsString) : List JsString :=
  (segments (normalizeRelPath pattern)).dropWhile fun segment => !isWild segment

theorem literal_append_wild (pattern : JsString) :
    literalSegments pattern ++ wildSegments pattern = segments (normalizeRelPath pattern) :=
  List.takeWhile_append_dropWhile

theorem not_isWild_of_mem {pattern segment : JsString} (member : segment ∈ literalSegments pattern) :
    isWild segment = false := by
  have holds := List.mem_takeWhile_imp member
  simpa using holds

theorem slash_not_mem_segments {path segment : JsString} (member : segment ∈ segments path) :
    slash ∉ segment := by
  induction path generalizing segment with
  | nil =>
      rw [segments, List.splitOn_nil, List.mem_singleton] at member
      simp [member]
  | cons code path inductionHypothesis =>
      rw [segments, List.splitOn_cons_eq_if_modifyHead] at member
      split_ifs at member with here
      · rcases List.mem_cons.mp member with rfl | later
        · simp
        · exact inductionHypothesis later
      · cases parts : path.splitOn (unit '/') with
        | nil => exact absurd parts (List.splitOn_ne_nil _ _)
        | cons first rest =>
            rw [parts, List.modifyHead_cons] at member
            rcases List.mem_cons.mp member with rfl | later
            · have plain : slash ∉ first :=
                inductionHypothesis (by rw [segments, parts]; exact List.mem_cons_self)
              rw [List.mem_cons, not_or]
              exact ⟨fun same => here (by rw [← same]; decide), plain⟩
            · exact inductionHypothesis (by rw [segments, parts]; exact List.mem_cons_of_mem _ later)

/-- The segments with a slash after each of them. -/
def slashed (parts : List JsString) : JsString :=
  parts.flatMap fun segment => segment ++ [slash]

theorem slashed_append (parts others : List JsString) :
    slashed (parts ++ others) = slashed parts ++ slashed others :=
  List.flatMap_append

theorem joinSegments_cons (segment : JsString) {parts : List JsString} (more : parts ≠ []) :
    joinSegments (segment :: parts) = segment ++ slash :: joinSegments parts := by
  cases parts with
  | nil => exact absurd rfl more
  | cons next rest => simp [joinSegments, List.intercalate]

theorem joinSegments_append (parts : List JsString) {others : List JsString} (more : others ≠ []) :
    joinSegments (parts ++ others) = slashed parts ++ joinSegments others := by
  induction parts with
  | nil => rfl
  | cons segment parts inductionHypothesis =>
      rw [List.cons_append, joinSegments_cons segment (by simp [more]), inductionHypothesis]
      simp [slashed]

/-- Two lists of segments a text starts with: one of them starts the other. -/
theorem prefix_or_prefix {parts others : List JsString} (plain : ∀ segment ∈ parts, slash ∉ segment)
    (otherPlain : ∀ segment ∈ others, slash ∉ segment) {text otherText : JsString}
    (same : slashed parts ++ text = slashed others ++ otherText) :
    parts <+: others ∨ others <+: parts := by
  induction parts generalizing others with
  | nil => exact Or.inl List.nil_prefix
  | cons segment parts inductionHypothesis =>
      cases others with
      | nil => exact Or.inr List.nil_prefix
      | cons other others =>
          rw [List.forall_mem_cons] at plain otherPlain
          have split : segment ++ slash :: (slashed parts ++ text) =
              other ++ slash :: (slashed others ++ otherText) := by
            simpa [slashed] using same
          have before : segment = other := by
            have divided := congrArg (List.splitOn slash) split
            rw [List.splitOn_append_cons_self_of_not_mem plain.1,
              List.splitOn_append_cons_self_of_not_mem otherPlain.1] at divided
            exact (List.cons.inj divided).1
          subst before
          have rest := List.append_cancel_left split
          exact (inductionHypothesis plain.2 otherPlain.2 (List.cons.inj rest).2).imp
            (fun shorter => List.cons_prefix_cons.mpr ⟨rfl, shorter⟩)
            (fun shorter => List.cons_prefix_cons.mpr ⟨rfl, shorter⟩)

/-! ## Matching literal segments -/

theorem segmentToRegex_literal {segment : JsString} (literal : isWild segment = false) :
    segmentToRegex segment = segment.map Piece.literal := by
  simp only [isWild, Bool.or_eq_false_iff, List.contains_eq_mem, decide_eq_false_iff_not] at literal
  refine List.map_congr_left fun code member => ?_
  have notStar : code ≠ unit '*' := fun same => literal.1.2 (same ▸ member)
  have notMark : code ≠ unit '?' := fun same => literal.2 (same ▸ member)
  rw [if_neg notStar, if_neg notMark]

theorem ne_stars_of_literal {segment : JsString} (literal : isWild segment = false) :
    segment ≠ js "**" := by
  rintro rfl
  exact absurd literal (by decide)

theorem segmentsToRegex_literal_cons {segment : JsString} (literal : isWild segment = false)
    {parts : List JsString} (more : parts ≠ []) :
    segmentsToRegex (segment :: parts) =
      (segment ++ [slash]).map Piece.literal ++ segmentsToRegex parts := by
  cases parts with
  | nil => exact absurd rfl more
  | cons next rest =>
      rw [segmentsToRegex, if_neg (ne_stars_of_literal literal), segmentToRegex_literal literal]
      simp

theorem matchPieces_literal (segment : JsString) (pieces : List Piece) (text : JsString) :
    matchPieces (segment.map Piece.literal ++ pieces) text = true ↔
      ∃ rest, text = segment ++ rest ∧ matchPieces pieces rest = true := by
  induction segment generalizing text with
  | nil => simp
  | cons letter segment inductionHypothesis =>
      cases text with
      | nil => simp [matchPieces]
      | cons code text =>
          simp only [List.map_cons, List.cons_append, matchPieces, Bool.and_eq_true, beq_iff_eq,
            inductionHypothesis, List.cons.injEq]
          constructor
          · rintro ⟨rfl, rest, rfl, matched⟩
            exact ⟨rest, ⟨rfl, rfl⟩, matched⟩
          · rintro ⟨rest, ⟨rfl, rfl⟩, matched⟩
            exact ⟨rfl, rest, rfl, matched⟩

/-- Literal segments match themselves, and the other segments the rest of the text. -/
theorem match_literal_append {parts wild : List JsString}
    (literal : ∀ segment ∈ parts, isWild segment = false) (more : wild ≠ []) (text : JsString) :
    matchPieces (segmentsToRegex (parts ++ wild)) text = true ↔
      ∃ rest, text = slashed parts ++ rest ∧ matchPieces (segmentsToRegex wild) rest = true := by
  induction parts generalizing text with
  | nil => simp [slashed]
  | cons segment parts inductionHypothesis =>
      rw [List.forall_mem_cons] at literal
      rw [List.cons_append, segmentsToRegex_literal_cons literal.1 (by simp [more]),
        matchPieces_literal]
      constructor
      · rintro ⟨tail, rfl, matched⟩
        obtain ⟨rest, rfl, wildMatched⟩ := (inductionHypothesis literal.2 tail).mp matched
        exact ⟨rest, by simp [slashed], wildMatched⟩
      · rintro ⟨rest, rfl, wildMatched⟩
        exact ⟨slashed parts ++ rest, by simp [slashed],
          (inductionHypothesis literal.2 _).mpr ⟨rest, rfl, wildMatched⟩⟩

/-- A pattern without wildcards matches one text. -/
theorem match_literal {parts : List JsString} (literal : ∀ segment ∈ parts, isWild segment = false)
    (nonempty : parts ≠ []) (text : JsString) :
    matchPieces (segmentsToRegex parts) text = true ↔ text = joinSegments parts := by
  obtain ⟨first, last, rfl⟩ : ∃ first last, parts = first ++ [last] :=
    ⟨_, _, (List.dropLast_append_getLast nonempty).symm⟩
  rw [List.forall_mem_append, List.forall_mem_singleton] at literal
  have single : ∀ rest, matchPieces (segmentsToRegex [last]) rest = true ↔ rest = last := by
    intro rest
    have alone := matchPieces_literal last [] rest
    rw [List.append_nil] at alone
    rw [segmentsToRegex, if_neg (ne_stars_of_literal literal.2), segmentToRegex_literal literal.2,
      alone]
    simp [matchPieces]
  rw [match_literal_append literal.1 (by simp), joinSegments_append first (by simp)]
  simp only [single]
  simp [joinSegments]

/-! ## Overlap -/

/-- A common path. -/
def SharesPath (a b : JsString) : Prop :=
  ∃ path, isSafeRelativePath path = true ∧ globMatch a path = true ∧ globMatch b path = true

/-- The literal segments of `b` go on where those of `a` end, and the wildcards of `a` match
the segments in between. -/
def Covers (a b : JsString) : Prop :=
  ∃ between, between ≠ [] ∧ literalSegments b = literalSegments a ++ between ∧
    matchPieces (segmentsToRegex (wildSegments a)) (joinSegments between) = true

/-- The pairs of patterns whose common paths are noticed: equal ones, one that has no
wildcard or starts with one, and one whose wildcards match the literal segments by which the
other one is more specific. -/
def Detected (a b : JsString) : Prop :=
  normalizeRelPath a = normalizeRelPath b ∨ wildSegments a = [] ∨ wildSegments b = [] ∨
    literalPrefix a = [] ∨ literalPrefix b = [] ∨ Covers a b ∨ Covers b a

theorem globToRegExp_eq (pattern : JsString) :
    globToRegExp pattern = segmentsToRegex (literalSegments pattern ++ wildSegments pattern) := by
  rw [globToRegExp, literal_append_wild]

/-- A pattern with a wildcard matches the literal prefix of another one. -/
theorem match_literalPrefix_iff {a b : JsString} (wild : wildSegments a ≠ [])
    (nonempty : literalPrefix b ≠ []) :
    matchPieces (globToRegExp a) (literalPrefix b) = true ↔ Covers a b := by
  have literal : ∀ segment ∈ literalSegments a, isWild segment = false :=
    fun segment member => not_isWild_of_mem member
  rw [globToRegExp_eq, match_literal_append literal wild]
  constructor
  · rintro ⟨rest, split, matched⟩
    obtain ⟨first, last, shape⟩ : ∃ first last, literalSegments b = first ++ [last] := by
      refine ⟨_, _, (List.dropLast_append_getLast (l := literalSegments b) ?_).symm⟩
      intro empty
      exact nonempty (by rw [literalPrefix, empty]; rfl)
    have plain : ∀ pattern segment, segment ∈ literalSegments pattern → slash ∉ segment := by
      intro pattern segment member
      refine @slash_not_mem_segments (normalizeRelPath pattern) segment ?_
      rw [← literal_append_wild]
      exact List.mem_append_left _ member
    have joined : slashed first ++ last = slashed (literalSegments a) ++ rest := by
      rw [← split, literalPrefix, shape, joinSegments_append first (by simp)]
      simp [joinSegments]
    have lastPlain : slash ∉ last := plain b last (by simp [shape])
    obtain ⟨between, firstShape⟩ : literalSegments a <+: first := by
      rcases prefix_or_prefix (fun segment member => plain b segment (by simp [shape, member]))
        (plain a) joined with ⟨more, longer⟩ | shorter
      · cases more with
        | nil => exact ⟨[], by simpa using longer.symm⟩
        | cons segment more =>
            rw [← longer, slashed_append, List.append_assoc, List.append_cancel_left_eq] at joined
            exact absurd (joined ▸ by simp [slashed]) lastPlain
      · exact shorter
    refine ⟨between ++ [last], by simp, by rw [shape, ← firstShape, List.append_assoc], ?_⟩
    rw [← firstShape, slashed_append, List.append_assoc, List.append_cancel_left_eq] at joined
    rw [joinSegments_append between (by simp)]
    simp only [joinSegments, List.intercalate_singleton, joined]
    exact matched
  · rintro ⟨between, more, shape, matched⟩
    exact ⟨joinSegments between, by rw [literalPrefix, shape, joinSegments_append _ more], matched⟩

/-- A pattern without wildcards that has a path in common with another one. -/
theorem overlap_of_literal {a b : JsString} (literal : wildSegments a = []) (shares : SharesPath a b) :
    matchPieces (globToRegExp b) (literalPrefix a) = true := by
  obtain ⟨path, -, matchedA, matchedB⟩ := shares
  have whole := literal_append_wild a
  rw [literal, List.append_nil] at whole
  have nonempty : literalSegments a ≠ [] := by
    rw [whole]
    exact List.splitOn_ne_nil _ _
  rw [globMatch, globToRegExp, ← whole,
    match_literal (fun segment member => not_isWild_of_mem member) nonempty] at matchedA
  rw [literalPrefix, ← matchedA]
  exact matchedB

/-- Which patterns with a common path are reported. -/
theorem patternsOverlap_iff {a b : JsString} (shares : SharesPath a b) :
    patternsOverlap a b = true ↔ Detected a b := by
  have otherShares : SharesPath b a := by
    obtain ⟨path, safe, matchedA, matchedB⟩ := shares
    exact ⟨path, safe, matchedB, matchedA⟩
  rw [patternsOverlap]
  split_ifs with same empty
  · simp [Detected, same]
  · rcases empty with empty | empty <;> simp [Detected, empty]
  rw [not_or] at empty
  rw [Bool.or_eq_true]
  by_cases wildA : wildSegments a = []
  · simp [Detected, wildA, overlap_of_literal wildA shares]
  by_cases wildB : wildSegments b = []
  · simp [Detected, wildB, overlap_of_literal wildB otherShares]
  rw [match_literalPrefix_iff wildA empty.2, match_literalPrefix_iff wildB empty.1]
  simp [Detected, same, wildA, wildB, empty.1, empty.2]

end SpecAsCode.Core
