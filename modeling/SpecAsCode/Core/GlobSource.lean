import SpecAsCode.Core.GlobOverlap
import SpecAsCode.Js.RegexSource

/-!
# Sources of glob expressions

The source that a pattern is translated into, character by character.  Read as a regular
expression it has the pieces of the pattern between the two anchors, and it is found in a
path when the pieces match the whole path.
-/

namespace SpecAsCode.Core

open SpecAsCode.Js

/-! ## Translation -/

/-- `s.replace(/[.*+?^${}()|[\]\\]/g, "\\$&")`. -/
def escapeRegex (text : JsString) : JsString :=
  text.flatMap fun code =>
    if (js ".*+?^$\x7b\x7d()|[]\\").contains code then [unit '\\', code] else [code]

/-- The loop of `segmentToRegex`. -/
def segmentSource (segment : JsString) : JsString :=
  segment.flatMap fun code =>
    if code = unit '*' then js "[^/]*"
    else if code = unit '?' then js "[^/]"
    else escapeRegex [code]

/-- The loop of `globToRegExp`. -/
def segmentsSource : List JsString → JsString
  | [] => []
  | [segment] => if segment = js "**" then js ".*" else segmentSource segment
  | segment :: next :: rest =>
      if segment = js "**" then
        js "(?:[^/]+/)*" ++ segmentsSource (next :: rest)
      else
        segmentSource segment ++ js "/" ++ segmentsSource (next :: rest)

def globSource (pattern : JsString) : JsString :=
  js "^" ++ segmentsSource (segments (normalizeRelPath pattern)) ++ js "$"

/-- The source of a piece. -/
def Piece.source : Piece → JsString
  | .literal code => escapeRegex [code]
  | .one => js "[^/]"
  | .run => js "[^/]*"
  | .tail => js ".*"
  | .segments => js "(?:[^/]+/)*"

theorem segmentSource_eq (segment : JsString) :
    segmentSource segment = (segmentToRegex segment).flatMap Piece.source := by
  rw [segmentSource, segmentToRegex, List.flatMap_map]
  refine List.flatMap_congr fun code _ => ?_
  split_ifs <;> rfl

theorem segmentsSource_eq (parts : List JsString) :
    segmentsSource parts = (segmentsToRegex parts).flatMap Piece.source := by
  fun_induction segmentsToRegex parts with
  | case1 => rfl
  | case2 => rfl
  | case3 segment other => rw [segmentsSource, if_neg other, segmentSource_eq]
  | case4 next rest inductionHypothesis =>
      rw [segmentsSource, if_pos rfl, inductionHypothesis]
      rfl
  | case5 segment next rest other inductionHypothesis =>
      rw [segmentsSource, if_neg other, inductionHypothesis, segmentSource_eq, List.flatMap_append,
        List.append_assoc]
      rfl

/-! ## Reading the source -/

open Regex (Term Group Reader isSyntaxCharacter members dot)

/-- A character other than a slash. -/
def notSlash : Regex :=
  members true [slash]

/-- What a piece is read as. -/
def Piece.regex : Piece → Regex
  | .literal code => .one fun other => other == code
  | .one => notSlash
  | .run => .star notSlash
  | .tail => .star dot
  | .segments => .star (.all [.seq notSlash (.star notSlash), .one fun other => other == slash])

def Piece.term : Piece → Term
  | .literal code => ⟨Piece.regex (.literal code), true⟩
  | .one => ⟨Piece.regex .one, true⟩
  | .run => ⟨Piece.regex .run, false⟩
  | .tail => ⟨Piece.regex .tail, false⟩
  | .segments => ⟨Piece.regex .segments, false⟩

theorem escaped_iff (code : CodeUnit) :
    (js ".*+?^$\x7b\x7d()|[]\\").contains code = isSyntaxCharacter code := by
  have same : (js ".*+?^$\x7b\x7d()|[]\\").Perm (js "^$\\.*+?()[]\x7b\x7d|") := by decide
  rw [isSyntaxCharacter, Bool.eq_iff_iff, List.contains_iff_mem, List.contains_iff_mem]
  exact same.mem_iff

theorem read_piece (piece : Piece) (outer : List Group) (group : Group) :
    Reader.read ⟨outer, group, .outside⟩ piece.source =
      some ⟨outer, group.push piece.term, .outside⟩ := by
  cases piece with
  | literal code =>
      rw [Piece.source, escapeRegex, List.flatMap_singleton, escaped_iff]
      cases syntactic : isSyntaxCharacter code with
      | true =>
          have backslash : Reader.step ⟨outer, group, .outside⟩ (unit '\\') =
              some ⟨outer, group, .escaped⟩ := rfl
          rw [if_pos rfl, Reader.read, backslash, Option.bind_some, Reader.read, Reader.step,
            if_pos syntactic]
          rfl
      | false =>
          rw [if_neg Bool.false_ne_true, Reader.read, Reader.step, Reader.outside, if_pos syntactic]
          rfl
  | one => rfl
  | run => rfl
  | tail => rfl
  | segments => rfl

theorem read_pieces (pieces : List Piece) (group : Group) :
    Reader.read ⟨[], group, .outside⟩ (pieces.flatMap Piece.source) =
      some ⟨[], ⟨group.closed, (pieces.map Piece.term).reverse ++ group.terms⟩, .outside⟩ := by
  induction pieces generalizing group with
  | nil => rfl
  | cons piece pieces inductionHypothesis =>
      rw [List.flatMap_cons, Reader.read_append, read_piece, Option.bind_some, inductionHypothesis,
        List.map_cons, List.reverse_cons, List.append_assoc]
      rfl

theorem regex_term (piece : Piece) : piece.term.regex = piece.regex := by
  cases piece <;> rfl

/-- The source of a pattern is read as its pieces between the anchors. -/
theorem ofSource_globSource (pattern : JsString) :
    Regex.ofSource (globSource pattern) =
      some (.all (.start :: ((globToRegExp pattern).map Piece.regex ++ [.stop]))) := by
  rw [globSource, segmentsSource_eq, ← globToRegExp, Regex.ofSource, Reader.read_append,
    Reader.read_append]
  have opened : Reader.read ⟨[], .empty, .outside⟩ (js "^") =
      some ⟨[], ⟨[], [⟨.start, false⟩]⟩, .outside⟩ := rfl
  rw [opened, Option.bind_some, read_pieces, Option.bind_some]
  have closed : ∀ group : Group, Reader.read ⟨[], group, .outside⟩ (js "$") =
      some ⟨[], group.push ⟨.stop, false⟩, .outside⟩ := fun group => rfl
  rw [closed, Option.bind_some, Reader.finish]
  simp only [Group.regex, Group.push, Group.openTerms, List.foldl_nil, List.reverse_cons,
    List.reverse_append, List.reverse_reverse, List.reverse_nil, List.map_append, List.map_cons,
    List.map_map, List.map_nil, List.nil_append, List.cons_append]
  have regexes : (globToRegExp pattern).map (Term.regex ∘ Piece.term) =
      (globToRegExp pattern).map Piece.regex := List.map_congr_left fun piece _ => regex_term piece
  rw [regexes]

/-! ## Matching -/

theorem matchStar_iff (allowed : CodeUnit → Bool) (rest : JsString → Bool) (text : JsString) :
    matchStar allowed rest text = true ↔
      ∃ run tail, text = run ++ tail ∧ (∀ code ∈ run, allowed code = true) ∧ rest tail = true := by
  induction text with
  | nil =>
      constructor
      · exact fun matched => ⟨[], [], rfl, fun _ inside => absurd inside List.not_mem_nil, matched⟩
      · rintro ⟨run, tail, split, -, matched⟩
        rw [(List.append_eq_nil_iff.mp split.symm).2] at matched
        exact matched
  | cons code text inductionHypothesis =>
      rw [matchStar, Bool.or_eq_true, Bool.and_eq_true, inductionHypothesis]
      constructor
      · rintro (matched | ⟨here, run, tail, rfl, every, matched⟩)
        · exact ⟨[], code :: text, rfl, fun _ inside => absurd inside List.not_mem_nil, matched⟩
        · exact ⟨code :: run, tail, rfl, List.forall_mem_cons.mpr ⟨here, every⟩, matched⟩
      · rintro ⟨run, tail, split, every, matched⟩
        cases run with
        | nil =>
            rw [List.nil_append] at split
            exact Or.inl (split ▸ matched)
        | cons first run =>
            cases split
            rw [List.forall_mem_cons] at every
            exact Or.inr ⟨every.1, run, tail, rfl, every.2, matched⟩

/-- A segment of a path: it is not empty and has no slash in it. -/
def IsSegment (part : JsString) : Prop :=
  part ≠ [] ∧ slash ∉ part

theorem matchSegments_iff (rest : JsString → Bool) (text : JsString) :
    (matchSegments rest false text = true ↔
      ∃ parts tail, text = slashed parts ++ tail ∧ (∀ part ∈ parts, IsSegment part) ∧
        rest tail = true) ∧
    (matchSegments rest true text = true ↔
      ∃ more parts tail, text = more ++ slash :: (slashed parts ++ tail) ∧ slash ∉ more ∧
        (∀ part ∈ parts, IsSegment part) ∧ rest tail = true) := by
  induction text with
  | nil =>
      refine ⟨⟨fun matched => ⟨[], [], rfl, nofun, matched⟩, ?_⟩,
        iff_of_false nofun ?_⟩
      · rintro ⟨parts, tail, split, -, matched⟩
        rw [(List.append_eq_nil_iff.mp split.symm).2] at matched
        exact matched
      · rintro ⟨more, parts, tail, split, -⟩
        exact absurd split.symm (List.append_ne_nil_of_right_ne_nil _ (List.cons_ne_nil _ _))
  | cons code text inductionHypothesis =>
      constructor
      · rw [matchSegments, Bool.or_eq_true, Bool.and_eq_true, bne_iff_ne, inductionHypothesis.2]
        constructor
        · rintro (matched | ⟨other, more, parts, tail, rfl, plain, every, matched⟩)
          · exact ⟨[], code :: text, rfl, nofun, matched⟩
          · refine ⟨(code :: more) :: parts, tail, ?_, List.forall_mem_cons.mpr ⟨⟨?_, ?_⟩, every⟩,
              matched⟩
            · simp [slashed]
            · exact List.cons_ne_nil _ _
            · rw [List.mem_cons, not_or]
              exact ⟨Ne.symm other, plain⟩
        · rintro ⟨parts, tail, split, every, matched⟩
          cases parts with
          | nil => exact Or.inl (split ▸ matched)
          | cons part parts =>
              rw [List.forall_mem_cons] at every
              obtain ⟨first, more, rfl⟩ := List.exists_cons_of_ne_nil every.1.1
              have plain := every.1.2
              rw [List.mem_cons, not_or] at plain
              have shape : code :: text = first :: (more ++ slash :: (slashed parts ++ tail)) := by
                rw [split]
                simp [slashed]
              cases shape
              exact Or.inr ⟨Ne.symm plain.1, more, parts, tail, rfl, plain.2, every.2, matched⟩
      · rw [matchSegments]
        split_ifs with here
        · rw [inductionHypothesis.1]
          constructor
          · rintro ⟨parts, tail, rfl, every, matched⟩
            exact ⟨[], parts, tail, by rw [here]; rfl, List.not_mem_nil, every, matched⟩
          · rintro ⟨more, parts, tail, split, plain, every, matched⟩
            cases more with
            | nil =>
                cases split
                exact ⟨parts, tail, rfl, every, matched⟩
            | cons first more =>
                cases split
                exact absurd (here ▸ List.mem_cons_self) plain
        · rw [inductionHypothesis.2]
          constructor
          · rintro ⟨more, parts, tail, rfl, plain, every, matched⟩
            refine ⟨code :: more, parts, tail, rfl, ?_, every, matched⟩
            rw [List.mem_cons, not_or]
            exact ⟨Ne.symm here, plain⟩
          · rintro ⟨more, parts, tail, split, plain, every, matched⟩
            cases more with
            | nil =>
                cases split
                exact absurd rfl here
            | cons first more =>
                cases split
                rw [List.mem_cons, not_or] at plain
                exact ⟨more, parts, tail, rfl, plain.2, every, matched⟩

/-- What a piece takes of a text. -/
def Piece.Takes : Piece → JsString → Prop
  | .literal code, taken => taken = [code]
  | .one, taken => ∃ code, taken = [code] ∧ code ≠ slash
  | .run, taken => slash ∉ taken
  | .tail, taken => ∀ code ∈ taken, isLineTerminator code = false
  | .segments, taken => ∃ parts, taken = slashed parts ∧ ∀ part ∈ parts, IsSegment part

/-- The pieces match one after another. -/
theorem matchPieces_cons (piece : Piece) (pieces : List Piece) (text : JsString) :
    matchPieces (piece :: pieces) text = true ↔
      ∃ taken tail, text = taken ++ tail ∧ piece.Takes taken ∧ matchPieces pieces tail = true := by
  cases piece with
  | literal letter =>
      cases text with
      | nil =>
          refine iff_of_false Bool.false_ne_true ?_
          rintro ⟨taken, tail, split, rfl, -⟩
          cases split
      | cons code text =>
          rw [matchPieces, Bool.and_eq_true, beq_iff_eq]
          constructor
          · rintro ⟨rfl, matched⟩
            exact ⟨[code], text, rfl, rfl, matched⟩
          · rintro ⟨taken, tail, split, rfl, matched⟩
            cases split
            exact ⟨rfl, matched⟩
  | one =>
      cases text with
      | nil =>
          refine iff_of_false Bool.false_ne_true ?_
          rintro ⟨taken, tail, split, ⟨code, rfl, -⟩, -⟩
          cases split
      | cons code text =>
          rw [matchPieces, Bool.and_eq_true, bne_iff_ne]
          constructor
          · rintro ⟨other, matched⟩
            exact ⟨[code], text, rfl, ⟨code, rfl, other⟩, matched⟩
          · rintro ⟨taken, tail, split, ⟨letter, rfl, other⟩, matched⟩
            cases split
            exact ⟨other, matched⟩
  | run =>
      have takes : ∀ taken : JsString,
          (∀ code ∈ taken, (code != slash) = true) ↔ slash ∉ taken := by
        intro taken
        simp only [bne_iff_ne]
        exact ⟨fun every inside => every slash inside rfl,
          fun plain code inside same => plain (same ▸ inside)⟩
      rw [matchPieces, matchStar_iff]
      simp only [takes]
      rfl
  | tail =>
      rw [matchPieces, matchStar_iff]
      simp only [Bool.not_eq_true']
      rfl
  | segments =>
      rw [matchPieces, (matchSegments_iff _ text).1]
      constructor
      · rintro ⟨parts, tail, rfl, every, matched⟩
        exact ⟨slashed parts, tail, rfl, ⟨parts, rfl, every⟩, matched⟩
      · rintro ⟨taken, tail, rfl, ⟨parts, rfl, every⟩, matched⟩
        exact ⟨parts, tail, rfl, every, matched⟩

/-! ## The expression -/

theorem repeats_one (allowed : CodeUnit → Bool) {pre mid post : JsString} :
    Regex.Repeats (Regex.one allowed).Fits pre mid post ↔ ∀ code ∈ mid, allowed code = true := by
  constructor
  · intro repeated
    induction repeated with
    | nil pre post => exact nofun
    | cons nonempty here later inductionHypothesis =>
        obtain ⟨code, rfl, isAllowed⟩ := here
        exact List.forall_mem_cons.mpr ⟨isAllowed, inductionHypothesis⟩
  · intro every
    induction mid generalizing pre with
    | nil => exact .nil pre post
    | cons code mid inductionHypothesis =>
        rw [List.forall_mem_cons] at every
        exact @Regex.Repeats.cons _ pre [code] mid post (List.cons_ne_nil _ _)
          ⟨code, rfl, every.1⟩ (inductionHypothesis every.2)

theorem not_slash_iff (code : CodeUnit) : ([slash].contains code != true) = true ↔ code ≠ slash := by
  simp

theorem fits_segment {pre mid post : JsString} :
    (Regex.all [.seq notSlash (.star notSlash), .one fun other => other == slash]).Fits pre mid post ↔
      ∃ part, IsSegment part ∧ mid = part ++ [slash] := by
  constructor
  · rintro ⟨one, two, rfl, ⟨first, more, rfl, ⟨code, rfl, other⟩, repeated⟩,
      ⟨three, four, rfl, ⟨letter, rfl, isSlash⟩, rfl⟩⟩
    have every := (repeats_one _).mp repeated
    refine ⟨code :: more, ⟨List.cons_ne_nil _ _, ?_⟩, ?_⟩
    · rw [List.mem_cons, not_or]
      exact ⟨Ne.symm ((not_slash_iff code).mp other),
        fun inside => (not_slash_iff slash).mp (every slash inside) rfl⟩
    · rw [eq_of_beq isSlash]
      rfl
  · rintro ⟨part, ⟨nonempty, plain⟩, rfl⟩
    obtain ⟨first, more, rfl⟩ := List.exists_cons_of_ne_nil nonempty
    rw [List.mem_cons, not_or] at plain
    refine ⟨first :: more, [slash], rfl, ⟨[first], more, rfl, ⟨first, rfl, ?_⟩, ?_⟩,
      ⟨[slash], [], rfl, ⟨slash, rfl, beq_self_eq_true _⟩, rfl⟩⟩
    · exact (not_slash_iff first).mpr (Ne.symm plain.1)
    · exact (repeats_one _).mpr fun code inside =>
        (not_slash_iff code).mpr fun same => plain.2 (same ▸ inside)

theorem fits_piece (piece : Piece) {pre mid post : JsString} :
    piece.regex.Fits pre mid post ↔ piece.Takes mid := by
  cases piece with
  | literal letter =>
      constructor
      · rintro ⟨code, rfl, same⟩
        rw [eq_of_beq same]
        rfl
      · rintro rfl
        exact ⟨letter, rfl, beq_self_eq_true _⟩
  | one =>
      exact exists_congr fun code => and_congr_right fun _ => not_slash_iff code
  | run =>
      refine (repeats_one _).trans ⟨fun every inside => ?_, fun plain code inside => ?_⟩
      · exact (not_slash_iff slash).mp (every slash inside) rfl
      · exact (not_slash_iff code).mpr fun same => plain (same ▸ inside)
  | tail =>
      refine (repeats_one _).trans (forall₂_congr fun code _ => ?_)
      rw [Bool.not_eq_true']
      rfl
  | segments =>
      constructor
      · intro repeated
        change Regex.Repeats _ pre mid post at repeated
        induction repeated with
        | nil pre post => exact ⟨[], rfl, nofun⟩
        | cons nonempty here later inductionHypothesis =>
            obtain ⟨part, isSegment, rfl⟩ := fits_segment.mp here
            obtain ⟨parts, rfl, every⟩ := inductionHypothesis
            exact ⟨part :: parts, rfl, List.forall_mem_cons.mpr ⟨isSegment, every⟩⟩
      · rintro ⟨parts, rfl, every⟩
        induction parts generalizing pre with
        | nil => exact .nil pre post
        | cons part parts inductionHypothesis =>
            rw [List.forall_mem_cons] at every
            exact @Regex.Repeats.cons _ pre (part ++ [slash]) (slashed parts) post
              (List.append_ne_nil_of_right_ne_nil _ (List.cons_ne_nil _ _))
              (fits_segment.mpr ⟨part, every.1, rfl⟩) (inductionHypothesis every.2)

theorem fits_pieces (pieces : List Piece) {pre mid post : JsString} :
    (Regex.all (pieces.map Piece.regex)).Fits pre mid post ↔ matchPieces pieces mid = true := by
  induction pieces generalizing pre mid with
  | nil =>
      rw [matchPieces, List.isEmpty_iff]
      rfl
  | cons piece pieces inductionHypothesis =>
      rw [matchPieces_cons]
      refine exists_congr fun taken => exists_congr fun tail => and_congr_right fun _ => ?_
      exact and_congr (fits_piece piece) inductionHypothesis

/-- The expression of a pattern, found in a text. -/
theorem test_pieces (pieces : List Piece) (text : JsString) :
    (Regex.all (.start :: (pieces.map Piece.regex ++ [.stop]))).test text =
      matchPieces pieces text := by
  rw [Bool.eq_iff_iff, Regex.test_iff]
  constructor
  · rintro ⟨pre, mid, post, rfl, ⟨none, two, rfl, ⟨rfl, rfl⟩, fits⟩⟩
    obtain ⟨taken, last, rfl, fits, ⟨_, none, rfl, ⟨rfl, atEnd⟩, ended⟩⟩ :=
      Regex.fits_all_append.mp fits
    obtain ⟨rfl, rfl⟩ := List.append_eq_nil_iff.mp atEnd
    simpa using (fits_pieces pieces).mp fits
  · intro matched
    refine ⟨[], text, [], by simp, ⟨[], text, rfl, ⟨rfl, rfl⟩, ?_⟩⟩
    exact Regex.fits_all_append.mpr ⟨text, [], (List.append_nil text).symm,
      (fits_pieces pieces).mpr matched, ⟨[], [], rfl, ⟨rfl, rfl⟩, rfl⟩⟩

/-- `globMatch` is the test of the expression that the source of the pattern is read as. -/
theorem globMatch_eq_test (pattern path : JsString) :
    (Regex.ofSource (globSource pattern)).map (·.test (normalizeRelPath path)) =
      some (globMatch pattern path) := by
  rw [ofSource_globSource, Option.map_some, test_pieces]
  rfl

end SpecAsCode.Core
