import Mathlib.Order.Basic
import Mathlib.Tactic.Ring

/-!
# Bisection

The last number of a range at which a test passes, when it passes at every number before one
at which it passes.
-/

namespace SpecAsCode.Lib

/-- The range is halved, with its middle rounded up, until one number is left. -/
def bisect (passes : Nat → Bool) (low high : Nat) : Nat :=
  if low < high then
    if passes ((low + high + 1) / 2) then
      bisect passes ((low + high + 1) / 2) high
    else
      bisect passes low ((low + high + 1) / 2 - 1)
  else
    low
termination_by high - low
decreasing_by all_goals omega

variable {passes : Nat → Bool}

/-- The number that is left: the test passes there, and nowhere behind it. -/
theorem bisect_spec {low high : Nat} (ordered : low ≤ high) (start : passes low = true)
    (closed : ∀ first second, first ≤ second → second ≤ high → passes second = true →
      passes first = true) :
    low ≤ bisect passes low high ∧ bisect passes low high ≤ high ∧
      passes (bisect passes low high) = true ∧
      ∀ later, bisect passes low high < later → later ≤ high → passes later = false := by
  fun_induction bisect passes low high with
  | case1 low high more here inductionHypothesis =>
      obtain ⟨above, below, found, rest⟩ := inductionHypothesis (by omega) here closed
      exact ⟨by omega, below, found, rest⟩
  | case2 low high more fails inductionHypothesis =>
      have closedBelow : ∀ first second, first ≤ second → second ≤ (low + high + 1) / 2 - 1 →
          passes second = true → passes first = true :=
        fun first second upTo inside => closed first second upTo (by omega)
      obtain ⟨above, below, found, rest⟩ := inductionHypothesis (by omega) start closedBelow
      refine ⟨above, by omega, found, fun later behind inside => ?_⟩
      by_cases near : later ≤ (low + high + 1) / 2 - 1
      · exact rest later behind near
      · exact Bool.eq_false_iff.mpr fun passed => fails (closed _ later (by omega) inside passed)
  | case3 low high single =>
      exact ⟨Nat.le_refl _, ordered, start, fun later behind inside => by omega⟩

end SpecAsCode.Lib
