import Mathlib.Tactic.SplitIfs
import Mathlib.Algebra.Order.Group.Nat

/-!
# Bisection

A search for a large number that is let through, halving the range that is left. It is right
where the test is not monotone too, as far as a stretch is let through without a gap.
-/

namespace Bisection

/-- The search in `low … high`, which starts above zero; `found` was let through before. -/
def largest (fits : ℕ → Bool) (found low high : ℕ) : ℕ :=
  if 0 < low ∧ low ≤ high then
    let middle := (low + high) / 2
    if fits middle then largest fits middle (middle + 1) high else largest fits found low (middle - 1)
  else
    found
termination_by high + 1 - low

variable {fits : ℕ → Bool} {found low high bound : ℕ}

theorem largest_cases (fits : ℕ → Bool) (found low high : ℕ) :
    largest fits found low high = found ∨ fits (largest fits found low high) = true := by
  induction found, low, high using largest.induct fits with
  | case1 found low high range middle through ih =>
      rw [largest, if_pos range, if_pos through]
      rcases ih with same | through'
      · right
        rw [same]
        exact through
      · exact Or.inr through'
  | case2 found low high range middle stopped ih =>
      rw [largest, if_pos range, if_neg stopped]
      exact ih
  | case3 found low high done =>
      rw [largest, if_neg done]
      exact Or.inl rfl

theorem le_largest (next : low = found + 1) (within : bound ≤ high)
    (through : ∀ middle ≤ bound, fits middle = true) : bound ≤ largest fits found low high := by
  induction found, low, high using largest.induct fits with
  | case1 found low high range middle isThrough ih =>
      rw [largest, if_pos range, if_pos isThrough]
      exact ih rfl within
  | case2 found low high range middle stopped ih =>
      rw [largest, if_pos range, if_neg stopped]
      have above : bound < middle := by
        by_contra notAbove
        exact stopped (through middle (by omega))
      exact ih next (by omega)
  | case3 found low high done =>
      rw [largest, if_neg done]
      omega

end Bisection
