import Mathlib.Algebra.Order.Round
import Mathlib.Tactic

/-!
# Rounding within bounds

Rounding to the nearest integer keeps the order, so whole bounds stay bounds.
-/

namespace Rounding

set_option autoImplicit false

variable {α : Type*} [Field α] [LinearOrder α] [IsStrictOrderedRing α] [FloorRing α]

theorem round_le_round {left right : α} (order : left ≤ right) : round left ≤ round right := by
  rw [round_eq_div, round_eq_div]
  apply Int.ediv_le_ediv (by decide)
  apply add_le_add_left
  apply Int.floor_le_floor
  exact mul_le_mul_of_nonneg_left order zero_le_two

theorem le_round {low : ℤ} {value : α} (above : (low : α) ≤ value) : low ≤ round value := by
  have whole : round (low : α) = low := round_intCast low
  exact whole.symm.trans_le (round_le_round above)

theorem round_le {high : ℤ} {value : α} (below : value ≤ high) : round value ≤ high := by
  have whole : round (high : α) = high := round_intCast high
  exact (round_le_round below).trans_eq whole

/-- Half of the way to a whole target, the odd half up. -/
theorem round_midpoint (value target : ℤ) :
    round (((value : α) + target) / 2) = target - (target - value) / 2 := by
  have sum : ((value : α) + target) / 2 = ((value + target : ℤ) : α) / 2 := by
    push_cast
    rfl
  have twice : (2 : α) * (((value + target : ℤ) : α) / 2) = ((value + target : ℤ) : α) := by
    field_simp
  rw [sum, round_eq_div, twice, Int.floor_intCast]
  omega

theorem toward_succ (value target : ℤ) (steps : ℕ) :
    target - (target - (target - (target - value) / 2)) / 2 ^ steps =
      target - (target - value) / 2 ^ (steps + 1) := by
  rw [sub_sub_cancel, Int.ediv_ediv_of_nonneg (by decide), pow_succ']

end Rounding
