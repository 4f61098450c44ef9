import Mathlib.Data.Int.Log
import Mathlib.Tactic

/-!
# Rounding to a binary format

Numbers with a significand of so many bits and any exponent; what lies between them is rounded
to the nearest one, ties to the even one. Rounding keeps the order and the whole numbers that
the significand can hold, and errs by at most half of the last bit.
-/

namespace FloatingPoint

set_option autoImplicit false

variable {K : Type*} [Field K] [LinearOrder K] [FloorRing K]

/-- The nearest integer, of two the even one. -/
def roundEven (value : K) : ℤ :=
  if value - ⌊value⌋ < 1 / 2 ∨ (value - ⌊value⌋ = 1 / 2 ∧ ⌊value⌋ % 2 = 0) then ⌊value⌋
  else ⌊value⌋ + 1

/-- The distance between neighbours where the value lies. -/
def spacing (bits : ℕ) (value : K) : K := 2 ^ (Int.log 2 |value| + 1 - bits)

def nearest (bits : ℕ) (value : K) : K :=
  roundEven (value / spacing bits value) * spacing bits value

/-- Double precision, within the range of its exponents. -/
abbrev double (value : K) : K := nearest 53 value

theorem floor_le_round_even (value : K) : ⌊value⌋ ≤ roundEven value := by
  rw [roundEven]
  split_ifs
  · exact le_rfl
  · exact (lt_add_one _).le

theorem round_even_le_succ (value : K) : roundEven value ≤ ⌊value⌋ + 1 := by
  rw [roundEven]
  split_ifs
  · exact (lt_add_one _).le
  · exact le_rfl

variable [IsStrictOrderedRing K]

@[simp] theorem round_even_int_cast (value : ℤ) : roundEven (value : K) = value := by
  rw [roundEven, Int.floor_intCast, sub_self, if_pos (.inl (by positivity))]

theorem round_even_mono {small large : K} (ordered : small ≤ large) :
    roundEven small ≤ roundEven large := by
  rcases (Int.floor_le_floor ordered).lt_or_eq with apart | same
  · exact (round_even_le_succ small).trans
      ((Int.add_one_le_of_lt apart).trans (floor_le_round_even large))
  · rw [roundEven, roundEven, same]
    split_ifs with down downLarge downLarge
    · exact le_rfl
    · exact (lt_add_one _).le
    · -- Where the larger value is rounded down, the smaller one is too.
      refine absurd ?_ down
      rcases downLarge with low | ⟨half, even⟩
      · exact .inl ((sub_le_sub_right ordered _).trans_lt low)
      · rcases ((sub_le_sub_right ordered _).trans_eq half).lt_or_eq with low | tie
        · exact .inl low
        · exact .inr ⟨tie, even⟩
    · exact le_rfl

theorem le_round_even {low : ℤ} {value : K} (above : (low : K) ≤ value) :
    low ≤ roundEven value :=
  (round_even_int_cast (K := K) low).symm.trans_le (round_even_mono above)

theorem round_even_le {high : ℤ} {value : K} (below : value ≤ high) : roundEven value ≤ high :=
  (round_even_mono below).trans_eq (round_even_int_cast high)

theorem round_even_error (value : K) : |(roundEven value : K) - value| ≤ 1 / 2 := by
  have below := Int.floor_le value
  have above := Int.lt_floor_add_one value
  rw [roundEven, abs_le]
  split_ifs with down
  · rcases down with low | ⟨half, -⟩
    · exact ⟨by linarith, by linarith⟩
    · exact ⟨by linarith, by linarith⟩
  · rw [not_or, not_lt] at down
    push_cast
    exact ⟨by linarith, by linarith [down.1]⟩

section Nearest

variable {bits : ℕ} {value : K}

theorem spacing_pos (bits : ℕ) (value : K) : 0 < spacing bits value := zpow_pos two_pos _

omit [IsStrictOrderedRing K] in
theorem spacing_scaled (bits count : ℕ) (value : K) :
    2 ^ count * spacing bits value = 2 ^ (Int.log 2 |value| + 1 - bits + count) := by
  rw [spacing, zpow_add₀ two_ne_zero _ (count : ℤ), zpow_natCast, mul_comm]

theorem nearest_of_steps {steps : ℤ} (whole : value = steps * spacing bits value) :
    nearest bits value = value := by
  have quotient : value / spacing bits value = steps :=
    (div_eq_iff (spacing_pos bits value).ne').mpr whole
  rw [nearest, quotient, round_even_int_cast, ← whole]

@[simp] theorem nearest_zero (bits : ℕ) : nearest bits (0 : K) = 0 := by
  apply @nearest_of_steps K _ _ _ _ bits 0 0
  rw [Int.cast_zero, zero_mul]

/-- Half of the last bit against the value. -/
theorem nearest_error (bits : ℕ) (value : K) :
    |nearest bits value - value| ≤ |value| / 2 ^ bits := by
  by_cases zero : value = 0
  · rw [zero, nearest_zero, sub_zero, abs_zero, zero_div]
  · have positive := spacing_pos bits value
    have scaled : nearest bits value - value =
        (roundEven (value / spacing bits value) - value / spacing bits value) *
          spacing bits value := by
      rw [nearest, sub_mul, div_mul_cancel₀ value positive.ne']
    have near := mul_le_mul_of_nonneg_right (round_even_error (value / spacing bits value))
      positive.le
    have power := Int.zpow_log_le_self (b := 2) one_lt_two (abs_pos.mpr zero)
    rw [scaled, abs_mul, abs_of_pos positive]
    apply near.trans
    rw [spacing, zpow_sub₀ two_ne_zero, zpow_add₀ two_ne_zero, zpow_one, zpow_natCast]
    calc (1 : K) / 2 * (2 ^ Int.log 2 |value| * 2 / 2 ^ bits)
        = 2 ^ Int.log 2 |value| / 2 ^ bits := by ring
      _ ≤ |value| / 2 ^ bits := by
          apply div_le_div_of_nonneg_right _ (by positivity)
          exact_mod_cast power

theorem nearest_nonneg (nonneg : 0 ≤ value) : 0 ≤ nearest bits value := by
  have quotient : ((0 : ℤ) : K) ≤ value / spacing bits value := by
    rw [Int.cast_zero]
    exact div_nonneg nonneg (spacing_pos bits value).le
  exact mul_nonneg (Int.cast_nonneg (le_round_even quotient)) (spacing_pos bits value).le

theorem nearest_close (bits : ℕ) (nonneg : 0 ≤ value) :
    0 ≤ nearest bits value ∧ value - value / 2 ^ bits ≤ nearest bits value ∧
      nearest bits value ≤ value + value / 2 ^ bits := by
  have error := abs_le.mp (nearest_error bits value)
  rw [abs_of_nonneg nonneg] at error
  exact ⟨nearest_nonneg nonneg, by linarith [error.1], by linarith [error.2]⟩

/-- The powers of two around a value stay around it. -/
theorem nearest_between (some : 0 < bits) (positive : 0 < value) :
    2 ^ Int.log 2 value ≤ nearest bits value ∧
      nearest bits value ≤ 2 ^ (Int.log 2 value + 1) := by
  have step := spacing_pos bits value
  have low := spacing_scaled bits (bits - 1) value
  have high := spacing_scaled bits bits value
  rw [abs_of_pos positive] at low high
  rw [show Int.log 2 value + 1 - bits + (bits - 1 : ℕ) = Int.log 2 value by omega] at low
  rw [sub_add_cancel] at high
  constructor
  · rw [nearest, ← low]
    apply mul_le_mul_of_nonneg_right _ step.le
    have below : (((2 ^ (bits - 1) : ℕ) : ℤ) : K) ≤ value / spacing bits value := by
      rw [le_div_iff₀ step]
      push_cast
      rw [low]
      exact_mod_cast Int.zpow_log_le_self one_lt_two positive
    exact_mod_cast le_round_even below
  · rw [nearest, ← high]
    apply mul_le_mul_of_nonneg_right _ step.le
    have above : value / spacing bits value ≤ (((2 ^ bits : ℕ) : ℤ) : K) := by
      rw [div_le_iff₀ step]
      push_cast
      rw [high]
      exact_mod_cast (Int.lt_zpow_succ_log_self one_lt_two value).le
    exact_mod_cast round_even_le above

theorem nearest_mono (some : 0 < bits) {small large : K} (nonneg : 0 ≤ small)
    (ordered : small ≤ large) : nearest bits small ≤ nearest bits large := by
  rcases nonneg.eq_or_lt with zero | positive
  · rw [← zero, nearest_zero]
    exact nearest_nonneg (nonneg.trans ordered)
  · have larger := positive.trans_le ordered
    rcases (Int.log_mono_right (b := 2) positive ordered).lt_or_eq with apart | same
    · calc nearest bits small
          ≤ 2 ^ (Int.log 2 small + 1) := (nearest_between some positive).2
        _ ≤ 2 ^ Int.log 2 large := zpow_le_zpow_right₀ one_le_two apart
        _ ≤ nearest bits large := (nearest_between some larger).1
    · have spaced : spacing bits small = spacing bits large := by
        rw [spacing, spacing, abs_of_pos positive, abs_of_pos larger, same]
      rw [nearest, nearest, spaced]
      apply mul_le_mul_of_nonneg_right _ (spacing_pos bits large).le
      exact Int.cast_le.mpr (round_even_mono
        (div_le_div_of_nonneg_right ordered (spacing_pos bits large).le))

/-- What the significand can hold is exact. -/
theorem nearest_nat_cast (some : 0 < bits) {number : ℕ} (small : number ≤ 2 ^ bits) :
    nearest bits (number : K) = number := by
  rcases small.lt_or_eq with below | full
  · by_cases zero : number = 0
    · rw [zero, Nat.cast_zero, nearest_zero]
    · have size : Nat.log 2 number < bits := Nat.log_lt_of_lt_pow zero below
      apply @nearest_of_steps K _ _ _ _ bits _ (number * 2 ^ (bits - 1 - Nat.log 2 number) : ℕ)
      have step := spacing_scaled bits (bits - 1 - Nat.log 2 number) (number : K)
      rw [Nat.abs_cast, Int.log_natCast, show (Nat.log 2 number : ℤ) + 1 - bits +
        (bits - 1 - Nat.log 2 number : ℕ) = 0 by omega, zpow_zero] at step
      push_cast
      rw [mul_assoc, step, mul_one]
  · apply @nearest_of_steps K _ _ _ _ bits _ (2 ^ (bits - 1) : ℕ)
    have step := spacing_scaled bits (bits - 1) (number : K)
    rw [Nat.abs_cast, Int.log_natCast, full, Nat.log_pow one_lt_two,
      show (bits : ℤ) + 1 - bits + (bits - 1 : ℕ) = bits by omega, zpow_natCast] at step
    rw [full]
    push_cast at step ⊢
    exact step.symm

theorem le_nearest (some : 0 < bits) {number : ℕ} (small : number ≤ 2 ^ bits)
    (above : number ≤ value) : number ≤ nearest bits value :=
  (nearest_nat_cast some small).symm.trans_le (nearest_mono some (Nat.cast_nonneg number) above)

theorem nearest_le (some : 0 < bits) {number : ℕ} (small : number ≤ 2 ^ bits)
    (nonneg : 0 ≤ value) (below : value ≤ number) : nearest bits value ≤ number :=
  (nearest_mono some nonneg below).trans_eq (nearest_nat_cast some small)

end Nearest

end FloatingPoint
