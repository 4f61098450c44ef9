import Mathlib.Tactic

/-!
# Scaled numerals

A number cut to its leading bits by a power of two: the least exponent that makes it fit a
mantissa of a given width, and what the cut loses.
-/

namespace Scaling

set_option autoImplicit false

/-- The least exponent that leaves a mantissa of the width. -/
def Scaled (width value exponent : Nat) : Prop :=
  IsLeast {power | value / 2 ^ power < 2 ^ width} exponent

theorem exists_scaled (width value : Nat) : ∃ exponent, Scaled width value exponent := by
  have fits : ∃ power, value / 2 ^ power < 2 ^ width := by
    refine ⟨value, ?_⟩
    rw [Nat.div_eq_of_lt Nat.lt_two_pow_self]
    positivity
  exact ⟨Nat.find fits, Nat.find_spec fits, fun _ other => Nat.find_min' fits other⟩

namespace Scaled

variable {width value exponent : Nat}

theorem exponent_le (scaled : Scaled width value exponent) {power : Nat}
    (fits : value < 2 ^ (width + power)) : exponent ≤ power := by
  apply scaled.2
  rw [Set.mem_ofPred_eq]
  apply Nat.div_lt_of_lt_mul
  rwa [← pow_add, Nat.add_comm]

theorem eq_zero_of_lt (scaled : Scaled width value exponent) (small : value < 2 ^ width) :
    exponent = 0 := Nat.le_zero.mp (scaled.exponent_le small)

theorem halve (scaled : Scaled width value exponent) (wide : 2 ^ width ≤ value) :
    ∃ fewer, exponent = fewer + 1 ∧ Scaled width (value / 2) fewer := by
  have step (power : Nat) : value / 2 / 2 ^ power = value / 2 ^ (power + 1) := by
    rw [Nat.div_div_eq_div_mul, pow_succ']
  cases exponent with
  | zero =>
      have fits := scaled.1
      rw [Set.mem_ofPred_eq, pow_zero, Nat.div_one] at fits
      omega
  | succ fewer =>
      refine ⟨fewer, rfl, ?_, ?_⟩
      · rw [Set.mem_ofPred_eq, step]
        exact scaled.1
      · intro power fits
        rw [Set.mem_ofPred_eq, step] at fits
        exact Nat.le_of_succ_le_succ (scaled.2 fits)

theorem mantissa_lt (scaled : Scaled width value exponent) : value / 2 ^ exponent < 2 ^ width :=
  scaled.1

theorem loss_lt (value exponent : Nat) :
    value - value / 2 ^ exponent * 2 ^ exponent < 2 ^ exponent := by
  have split := Nat.div_add_mod' value (2 ^ exponent)
  have rest := Nat.mod_lt value (Nat.two_pow_pos exponent)
  omega

/-- The unit of the mantissa is small against a number that had to be cut. -/
theorem unit_le (scaled : Scaled (width + 1) value exponent) (wide : 2 ^ (width + 1) ≤ value) :
    2 ^ exponent * 2 ^ width ≤ value := by
  obtain ⟨fewer, rfl, _⟩ := scaled.halve wide
  have early : ¬ value / 2 ^ fewer < 2 ^ (width + 1) :=
    fun fits => Nat.not_succ_le_self fewer (scaled.2 fits)
  rw [Nat.not_lt, Nat.le_div_iff_mul_le (Nat.two_pow_pos fewer)] at early
  calc 2 ^ (fewer + 1) * 2 ^ width = 2 ^ (width + 1) * 2 ^ fewer := by ring
    _ ≤ value := early

end Scaled

end Scaling
