import SpecAsCode.Js.JsString
import SpecAsCode.Lib.Bisection

/-!
# Source positions

An offset into a source text as a line and a column, both counted from one.  The line is
searched for among the starts of the lines.
-/

namespace SpecAsCode.Core

open SpecAsCode.Js
open SpecAsCode.Lib (bisect bisect_spec)

structure LineIndex where
  lineStarts : List Nat
  totalLength : Nat

structure SourcePosition where
  line : Nat
  column : Nat
  deriving DecidableEq

/-- The offsets behind the line feeds of a text that starts at an offset. -/
def startsFrom (offset : Nat) : JsString → List Nat
  | [] => []
  | code :: rest =>
      if code = unit '\n' then (offset + 1) :: startsFrom (offset + 1) rest
      else startsFrom (offset + 1) rest

def buildLineIndex (source : JsString) : LineIndex :=
  ⟨0 :: startsFrom 0 source, source.length⟩

/-- `Math.max(0, Math.min(offset, index.totalLength))`. -/
def clamped (index : LineIndex) (offset : Int) : Nat :=
  (max 0 (min offset index.totalLength)).toNat

def offsetToLoc (index : LineIndex) (offset : Int) : SourcePosition :=
  let line := bisect (fun mid => index.lineStarts.getD mid 0 ≤ clamped index offset) 0
    (index.lineStarts.length - 1)
  ⟨line + 1, clamped index offset - index.lineStarts.getD line 0 + 1⟩

/-! ## Line starts -/

/-- A line starts at the beginning of a text and behind every line feed. -/
def IsLineStart (source : JsString) (start : Nat) : Prop :=
  start = 0 ∨ ∃ before, start = before + 1 ∧ source[before]? = some (unit '\n')

theorem mem_startsFrom {offset start : Nat} {source : JsString} :
    start ∈ startsFrom offset source ↔
      ∃ before, start = offset + before + 1 ∧ source[before]? = some (unit '\n') := by
  induction source generalizing offset with
  | nil => simp [startsFrom]
  | cons code rest inductionHypothesis =>
      have later : start ∈ startsFrom (offset + 1) rest ↔
          ∃ before, start = offset + (before + 1) + 1 ∧
            (code :: rest)[before + 1]? = some (unit '\n') := by
        rw [inductionHypothesis]
        refine exists_congr fun before => ?_
        rw [List.getElem?_cons_succ]
        exact and_congr_left fun _ => by omega
      have split : (∃ before, start = offset + before + 1 ∧
          (code :: rest)[before]? = some (unit '\n')) ↔
          (start = offset + 1 ∧ code = unit '\n') ∨ start ∈ startsFrom (offset + 1) rest := by
        rw [later]
        constructor
        · rintro ⟨before, place, lineFeed⟩
          cases before with
          | zero => exact Or.inl ⟨place, Option.some.inj lineFeed⟩
          | succ before => exact Or.inr ⟨before, place, lineFeed⟩
        · rintro (⟨place, rfl⟩ | ⟨before, place, lineFeed⟩)
          · exact ⟨0, place, rfl⟩
          · exact ⟨before + 1, place, lineFeed⟩
      rw [split, startsFrom]
      split_ifs with lineFeed
      · rw [List.mem_cons, and_iff_left lineFeed]
      · exact (or_iff_right fun first => lineFeed first.2).symm

/-- The starts grow. -/
theorem pairwise_startsFrom (offset : Nat) (source : JsString) :
    (startsFrom offset source).Pairwise (· < ·) := by
  induction source generalizing offset with
  | nil => exact List.Pairwise.nil
  | cons code rest inductionHypothesis =>
      rw [startsFrom]
      split_ifs with lineFeed
      · refine List.pairwise_cons.mpr ⟨fun start member => ?_, inductionHypothesis _⟩
        obtain ⟨before, place, _⟩ := mem_startsFrom.mp member
        omega
      · exact inductionHypothesis _

theorem mem_lineStarts {source : JsString} {start : Nat} :
    start ∈ (buildLineIndex source).lineStarts ↔ IsLineStart source start := by
  refine List.mem_cons.trans (or_congr_right (mem_startsFrom.trans ?_))
  refine exists_congr fun before => and_congr_left fun _ => ?_
  rw [Nat.zero_add]

theorem pairwise_lineStarts (source : JsString) :
    (buildLineIndex source).lineStarts.Pairwise (· < ·) := by
  refine List.pairwise_cons.mpr ⟨fun start member => ?_, pairwise_startsFrom 0 source⟩
  obtain ⟨before, place, _⟩ := mem_startsFrom.mp member
  omega

/-! ## The line that is found -/

theorem getD_of_lt {starts : List Nat} {line : Nat} (inside : line < starts.length) :
    starts.getD line 0 = starts[line] := by
  rw [List.getD_eq_getElem?_getD, List.getElem?_eq_getElem inside, Option.getD_some]

theorem lineStart_le {source : JsString} {first second : Nat} (ordered : first ≤ second)
    (inside : second < (buildLineIndex source).lineStarts.length) :
    (buildLineIndex source).lineStarts.getD first 0 ≤
      (buildLineIndex source).lineStarts.getD second 0 := by
  have firstInside : first < (buildLineIndex source).lineStarts.length := by omega
  rw [getD_of_lt firstInside, getD_of_lt inside]
  rcases ordered.lt_or_eq with before | rfl
  · exact (List.pairwise_iff_getElem.mp (pairwise_lineStarts source) first second firstInside
      inside before).le
  · exact Nat.le_refl _

/-- What the search leaves: a line that starts at the offset or before it, and every line
that does is not behind it. -/
theorem bisect_lineStarts (source : JsString) (place : Nat) :
    let starts := (buildLineIndex source).lineStarts
    let line := bisect (fun mid => starts.getD mid 0 ≤ place) 0 (starts.length - 1)
    ∃ start, starts[line]? = some start ∧ start ≤ place ∧
      ∀ other ∈ starts, other ≤ place → other ≤ start := by
  intro starts line
  have nonempty : 0 < starts.length := Nat.succ_pos _
  have ordered : ∀ first second, first ≤ second → second ≤ starts.length - 1 →
      decide (starts.getD second 0 ≤ place) = true → decide (starts.getD first 0 ≤ place) = true :=
    fun first second upTo inside reached => decide_eq_true
      ((lineStart_le upTo (Nat.lt_of_le_of_lt inside (Nat.pred_lt nonempty.ne'))).trans
        (of_decide_eq_true reached))
  obtain ⟨-, below, found, rest⟩ :=
    @bisect_spec (fun mid => starts.getD mid 0 ≤ place) 0 (starts.length - 1) (Nat.zero_le _)
      (decide_eq_true (Nat.zero_le place)) ordered
  have inside : line < starts.length := Nat.lt_of_le_of_lt below (Nat.pred_lt nonempty.ne')
  refine ⟨starts[line], List.getElem?_eq_getElem inside,
    getD_of_lt inside ▸ of_decide_eq_true found, fun other member reached => ?_⟩
  obtain ⟨index, indexInside, rfl⟩ := List.getElem_of_mem member
  rw [← getD_of_lt indexInside] at reached ⊢
  by_cases behind : line < index
  · exact absurd reached (of_decide_eq_false (rest index behind (Nat.le_pred_of_lt indexInside)))
  · rw [← getD_of_lt inside]
    exact lineStart_le (Nat.le_of_not_lt behind) inside

example : offsetToLoc (buildLineIndex (js "a\nbc\n")) 3 = ⟨2, 2⟩ := by decide +kernel

example : offsetToLoc (buildLineIndex (js "a\nbc\n")) 99 = ⟨3, 1⟩ := by decide +kernel

end SpecAsCode.Core
