import Mathlib.Tactic

/-!
# Words of a fixed width

The conversions a language without machine words makes at its bit operators, and
the signed difference of two numbers that are known up to a wrap.
-/

namespace Word

set_option autoImplicit false

/-- The value of `>>> 0`, and with 16 bits of `& 0xFFFF`. -/
def wrapUnsigned (width : Nat) (value : Int) : Nat := (value % 2 ^ width).toNat

/-- `x | 0`. -/
def toInt32 (value : Int) : Int := value.bmod (2 ^ 32)

/-- The difference folded into the signed range of the width. -/
def signedDelta (width : Nat) (left right : Int) : Int :=
  let delta := (left - right) % 2 ^ width
  if delta ≥ 2 ^ (width - 1) then delta - 2 ^ width else delta

theorem wrap_unsigned_lt (width : Nat) (value : Int) : wrapUnsigned width value < 2 ^ width := by
  have positive : (0 : Int) < 2 ^ width := by positivity
  have bounded := Int.emod_lt_of_pos value positive
  have nonneg := Int.emod_nonneg value positive.ne'
  zify
  rw [wrapUnsigned, Int.toNat_of_nonneg nonneg]
  exact_mod_cast bounded

theorem wrap_unsigned_cast (width : Nat) (value : Int) :
    (wrapUnsigned width value : Int) = value % 2 ^ width :=
  Int.toNat_of_nonneg (Int.emod_nonneg value (by positivity))

theorem wrap_unsigned_mod_eq (width : Nat) (value : Int) :
    (wrapUnsigned width value : Int) ≡ value [ZMOD 2 ^ width] := by
  rw [wrap_unsigned_cast]
  exact Int.mod_modEq value _

theorem wrap_sub_offset_mod_eq (width : Nat) (left right offset : Int) :
    (wrapUnsigned width (left - offset) : Int) - wrapUnsigned width (right - offset) ≡
      left - right [ZMOD 2 ^ width] := by
  have moved := (wrap_unsigned_mod_eq width (left - offset)).sub
    (wrap_unsigned_mod_eq width (right - offset))
  rwa [sub_sub_sub_cancel_right] at moved

theorem wrap_unsigned_congr {width : Nat} {left right : Int}
    (same : left ≡ right [ZMOD 2 ^ width]) : wrapUnsigned width left = wrapUnsigned width right :=
  congrArg Int.toNat same

theorem wrap_unsigned_of_lt {width value : Nat} (small : value < 2 ^ width) :
    wrapUnsigned width value = value := by
  zify
  rw [wrap_unsigned_cast]
  exact Int.emod_eq_of_lt (by positivity) (by exact_mod_cast small)

theorem wrap_unsigned_mod (width : Nat) (value : Int) :
    wrapUnsigned width value % 2 ^ width = wrapUnsigned width value :=
  Nat.mod_eq_of_lt (wrap_unsigned_lt width value)

theorem signed_delta_mod_eq (width : Nat) (left right : Int) :
    signedDelta width left right ≡ left - right [ZMOD 2 ^ width] := by
  have folded := Int.mod_modEq (left - right) (2 ^ width)
  simp only [signedDelta]
  split
  · exact Int.sub_modulus_modEq_iff.mpr folded
  · exact folded

theorem signed_delta_range {width : Nat} (positive : 0 < width) (left right : Int) :
    -2 ^ (width - 1) ≤ signedDelta width left right ∧
      signedDelta width left right < 2 ^ (width - 1) := by
  have whole : (2 : Int) ^ width = 2 * 2 ^ (width - 1) := by
    rw [← pow_succ', Nat.sub_add_cancel positive]
  have nonneg := Int.emod_nonneg (left - right) (show (2 : Int) ^ width ≠ 0 by positivity)
  have bounded := Int.emod_lt_of_pos (left - right) (show (0 : Int) < 2 ^ width by positivity)
  simp only [signedDelta]
  split <;> constructor <;> omega

theorem signed_delta_congr {width : Nat} {left right first second : Int}
    (same : left - right ≡ first - second [ZMOD 2 ^ width]) :
    signedDelta width left right = signedDelta width first second := by
  have folded : (left - right) % 2 ^ width = (first - second) % 2 ^ width := same
  simp only [signedDelta, folded]

theorem signed_delta_eq {width : Nat} (positive : 0 < width) {left right first second : Int}
    (leftSame : left ≡ first [ZMOD 2 ^ width]) (rightSame : right ≡ second [ZMOD 2 ^ width])
    (near : 2 * (first - second).natAbs < 2 ^ width) :
    signedDelta width left right = first - second := by
  have whole : (2 : Int) ^ width = 2 * 2 ^ (width - 1) := by
    rw [← pow_succ', Nat.sub_add_cancel positive]
  have range := signed_delta_range positive left right
  have same := (signed_delta_mod_eq width left right).trans (leftSame.sub rightSame)
  have apart : 2 * ((first - second).natAbs : Int) < 2 ^ width := by exact_mod_cast near
  have above : first - second < 2 ^ (width - 1) := by omega
  have below : -2 ^ (width - 1) < first - second := by omega
  obtain ⟨turns, difference⟩ := same.dvd
  have none : turns = 0 := by
    have upper : turns < 1 := by nlinarith
    have lower : -1 < turns := by nlinarith
    omega
  rw [none] at difference
  omega

theorem to_int32_signed_delta (left right : Int) :
    toInt32 (signedDelta 32 left right) = signedDelta 32 left right := by
  have range := signed_delta_range (show 0 < 32 by decide) left right
  rw [toInt32, Int.bmod_eq_of_le] <;> omega

/-- Taking off the signed difference to a word lands on the word. -/
theorem wrap_sub_signed_delta {width want : Nat} (small : want < 2 ^ width) (value : Int) :
    wrapUnsigned width (value - signedDelta width value want) = want := by
  have landed : value - signedDelta width value want ≡ want [ZMOD 2 ^ width] := by
    have moved := (Int.ModEq.refl value).sub (signed_delta_mod_eq width value want)
    rwa [sub_sub_cancel] at moved
  rw [wrap_unsigned_congr landed, wrap_unsigned_of_lt small]

end Word
