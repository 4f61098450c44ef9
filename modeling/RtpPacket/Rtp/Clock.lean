import RtpPacket.Rtp.Packetizer

/-!
# The media clock

What `usToRtp` makes of whole microseconds is the number of whole ticks gone by, as 32 bits
show it; rounding may make it one more.
-/

namespace RtpPacket.Rtp

open FloatingPoint Word

set_option autoImplicit false

theorem truncate_of_nonneg {value : Rat} (nonneg : 0 ≤ value) : truncate value = ⌊value⌋ := by
  rw [truncate, if_pos nonneg]
  rfl

theorem remainder_of_nonneg {value : Rat} (nonneg : 0 ≤ value) {modulus : Int}
    (positive : 0 < modulus) :
    0 ≤ remainder value modulus ∧
      remainder value modulus = value - modulus * ⌊value / modulus⌋ := by
  have scale : (0 : Rat) < modulus := Int.cast_pos.mpr positive
  have quotient : 0 ≤ value / modulus := div_nonneg nonneg scale.le
  have same : remainder value modulus = value - modulus * ⌊value / modulus⌋ := by
    rw [remainder, truncate_of_nonneg quotient]
  have below := mul_le_mul_of_nonneg_left (Int.floor_le (value / (modulus : Rat))) scale.le
  rw [mul_div_cancel₀ value scale.ne'] at below
  refine ⟨?_, same⟩
  rw [same]
  linarith

theorem remainder_nat_cast (value modulus : Nat) :
    remainder value modulus = (value % modulus : Nat) := by
  have quotient : ⌊(value : Rat) / modulus⌋ = (value / modulus : Nat) := by
    rw [Rat.floor_natCast_div_natCast, Int.natCast_ediv]
  have whole : ((value / modulus * modulus + value % modulus : Nat) : Rat) = value := by
    rw [Nat.div_add_mod']
  rw [remainder, Int.cast_natCast, truncate_of_nonneg (by positivity), quotient,
    Int.cast_natCast, ← whole, Nat.cast_add, Nat.cast_mul]
  ring

/-- Whole seconds and the rest, each in ticks. -/
def ticks (us clockRate : Nat) : Rat :=
  double (((us / 1000000 % 4294967296 * clockRate : Nat) : Rat) +
    double (((us % 1000000 * clockRate : Nat) : Rat) / 1000000))

/-- The ticks that a time counts as, with the cycles that `usToRtp` drops. -/
def counted (us clockRate : Nat) : Int :=
  ⌊ticks us clockRate⌋ + 4294967296 * (us / 1000000 / 4294967296 * clockRate : Nat)

theorem us_to_ticks (us clockRate : Nat) :
    us * clockRate / 1000000 =
      us / 1000000 % 4294967296 * clockRate + us % 1000000 * clockRate / 1000000 +
        4294967296 * (us / 1000000 / 4294967296 * clockRate) := by
  have split : us * clockRate =
      us % 1000000 * clockRate + us / 1000000 * clockRate * 1000000 := by
    rw [mul_right_comm, ← add_mul, add_comm, Nat.div_add_mod']
  have cycles : us / 1000000 * clockRate = us / 1000000 % 4294967296 * clockRate +
      4294967296 * (us / 1000000 / 4294967296 * clockRate) := by
    rw [← mul_assoc, ← add_mul, Nat.mod_add_div]
  rw [split, Nat.add_mul_div_right _ _ (by decide), cycles]
  ring

section Exact

variable {us clockRate : Nat} (exact : us < 2 ^ 53)

include exact

/-- No second is lost or won. -/
theorem floor_double_seconds : (double ((us : Rat) / 1000000)).floor = (us / 1000000 : Nat) := by
  have small : us / 1000000 ≤ 2 ^ 53 := by omega
  have rest : us + 1 ≤ (us / 1000000 + 1) * 1000000 := by omega
  have low : ((us / 1000000 : Nat) : Rat) ≤ double ((us : Rat) / 1000000) :=
    le_nearest (by decide) small (by exact_mod_cast @Nat.cast_div_le Rat _ _ _ us 1000000)
  have error := (nearest_close 53 (show 0 ≤ (us : Rat) / 1000000 by positivity)).2.2
  have bound : (us : Rat) < 2 ^ 53 := by exact_mod_cast exact
  have next : (us : Rat) + 1 ≤ ((us / 1000000 : Nat) + 1) * 1000000 := by exact_mod_cast rest
  have high : double ((us : Rat) / 1000000) < (us / 1000000 : Nat) + 1 := by
    have last : (us : Rat) / 1000000 / 2 ^ 53 < 1 / 1000000 := by
      rw [div_div, div_lt_div_iff₀ (by positivity) (by positivity)]
      linarith
    linarith
  exact Int.floor_eq_iff.mpr ⟨by exact_mod_cast low, by exact_mod_cast high⟩

/-- Before the two parts are added up every number is whole and held as it is. -/
theorem us_to_rtp_ticks (rate : clockRate ≤ 1000000) :
    usToRtp us clockRate = wrapUnsigned 32 ⌊ticks us clockRate⌋ := by
  have held {number : Nat} (small : number ≤ 2 ^ 53) : double (number : Rat) = number :=
    nearest_nat_cast (by decide) small
  have below : us / 1000000 % 4294967296 * clockRate ≤ 2 ^ 53 :=
    calc us / 1000000 % 4294967296 * clockRate
        ≤ us / 1000000 * 1000000 := Nat.mul_le_mul (Nat.mod_le _ _) rate
      _ ≤ 2 ^ 53 := by omega
  have part : us % 1000000 * clockRate ≤ 2 ^ 53 :=
    calc us % 1000000 * clockRate
        ≤ 1000000 * 1000000 := Nat.mul_le_mul (Nat.mod_lt us (by decide)).le rate
      _ ≤ 2 ^ 53 := by decide
  have taken : double (((us / 1000000 : Nat) : Rat) * 1000000) =
      (us / 1000000 * 1000000 : Nat) := by
    rw [← held (show us / 1000000 * 1000000 ≤ 2 ^ 53 by omega), Nat.cast_mul, Nat.cast_ofNat]
  have rest : double ((us : Rat) - (us / 1000000 * 1000000 : Nat)) = (us % 1000000 : Nat) := by
    rw [← Nat.cast_sub (by omega), held (by omega)]
    congr 1
    omega
  have reduced : remainder ((us / 1000000 : Nat) : Rat) 4294967296 =
      (us / 1000000 % 4294967296 : Nat) := remainder_nat_cast _ 4294967296
  have sum : (0 : Rat) ≤ ticks us clockRate := nearest_nonneg (add_nonneg (Nat.cast_nonneg _)
    (nearest_nonneg (by positivity)))
  obtain ⟨wrappedNonneg, wrapped⟩ :=
    remainder_of_nonneg sum (show (0 : Int) < 4294967296 by norm_num)
  rw [usToRtp, floor_double_seconds exact, Int.cast_natCast, taken, rest, reduced, ← Nat.cast_mul,
    ← Nat.cast_mul, held below, held part, ← ticks, truncate_of_nonneg wrappedNonneg, wrapped,
    ← Int.cast_mul, Int.floor_sub_intCast]
  -- The reduction drops whole multiples of the modulus.
  apply wrap_unsigned_congr
  rw [Int.modEq_iff_dvd, sub_sub_cancel]
  exact Dvd.intro _ rfl

theorem ticks_between (rate : clockRate ≤ 1000000) :
    ((us / 1000000 % 4294967296 * clockRate + us % 1000000 * clockRate / 1000000 : Nat) : Rat) ≤
        ticks us clockRate ∧
      ticks us clockRate ≤
        (us / 1000000 % 4294967296 * clockRate + us % 1000000 * clockRate / 1000000 + 1 : Nat) := by
  have whole : us / 1000000 % 4294967296 * clockRate ≤ us / 1000000 * 1000000 :=
    Nat.mul_le_mul (Nat.mod_le _ _) rate
  have part : us % 1000000 * clockRate ≤ us % 1000000 * 1000000 := Nat.mul_le_mul le_rfl rate
  have small : us / 1000000 % 4294967296 * clockRate + us % 1000000 * clockRate / 1000000 + 1 ≤
      2 ^ 53 := by omega
  have low : ((us % 1000000 * clockRate / 1000000 : Nat) : Rat) ≤
      double (((us % 1000000 * clockRate : Nat) : Rat) / 1000000) :=
    le_nearest (by decide) (by omega)
      (by exact_mod_cast @Nat.cast_div_le Rat _ _ _ (us % 1000000 * clockRate) 1000000)
  have high : double (((us % 1000000 * clockRate : Nat) : Rat) / 1000000) ≤
      (us % 1000000 * clockRate / 1000000 + 1 : Nat) := by
    apply nearest_le (by decide) (by omega) (by positivity)
    rw [div_le_iff₀ (by positivity)]
    have next := Nat.lt_mul_div_succ (us % 1000000 * clockRate) (show 0 < 1000000 by decide)
    rw [mul_comm 1000000] at next
    exact_mod_cast next.le
  constructor
  · apply le_nearest (by decide) (by omega)
    rw [Nat.cast_add]
    exact add_le_add_right low _
  · apply nearest_le (by decide) small (add_nonneg (Nat.cast_nonneg _) (nearest_nonneg
      (by positivity)))
    rw [add_assoc, Nat.cast_add]
    exact add_le_add_right high _

theorem us_to_rtp_counted (rate : clockRate ≤ 1000000) :
    usToRtp us clockRate = wrapUnsigned 32 (counted us clockRate) := by
  rw [us_to_rtp_ticks exact rate]
  apply wrap_unsigned_congr
  rw [Int.modEq_iff_dvd, counted, add_sub_cancel_left]
  exact Dvd.intro _ rfl

/-- The ticks gone by, and at most one more. -/
theorem counted_near (rate : clockRate ≤ 1000000) :
    (us * clockRate / 1000000 : Nat) ≤ counted us clockRate ∧
      counted us clockRate ≤ (us * clockRate / 1000000 : Nat) + 1 := by
  obtain ⟨low, high⟩ := ticks_between exact rate
  have least := Int.le_floor.mpr (show ((_ : Nat) : Int) ≤ (_ : Rat) by exact_mod_cast low)
  have most := Int.floor_le_floor high
  rw [Int.floor_natCast] at most
  rw [us_to_ticks, counted]
  push_cast at least most ⊢
  omega

end Exact

/-- Rounding lets no time pass a later one: in one second the sums keep their order, and in
different ones the ticks gone by differ. -/
theorem counted_mono {first second clockRate : Nat} (ordered : first ≤ second)
    (exact : second < 2 ^ 53) (some : 0 < clockRate) (rate : clockRate ≤ 1000000) :
    counted first clockRate ≤ counted second clockRate := by
  have before := (counted_near (ordered.trans_lt exact) rate).2
  have after := (counted_near exact rate).1
  have gone : first * clockRate / 1000000 ≤ second * clockRate / 1000000 :=
    Nat.div_le_div_right (Nat.mul_le_mul_right clockRate ordered)
  rcases gone.lt_or_eq with apart | same
  · omega
  · have seconds (us : Nat) : us * clockRate / 1000000 / clockRate = us / 1000000 := by
      rw [Nat.div_div_eq_div_mul, Nat.mul_div_mul_right _ _ some]
    have here : first / 1000000 = second / 1000000 := by
      rw [← seconds first, ← seconds second, same]
    have rest : first % 1000000 * clockRate ≤ second % 1000000 * clockRate :=
      Nat.mul_le_mul_right clockRate (by omega)
    have parts : double (((first % 1000000 * clockRate : Nat) : Rat) / 1000000) ≤
        double (((second % 1000000 * clockRate : Nat) : Rat) / 1000000) :=
      nearest_mono (by decide) (by positivity)
        (div_le_div_of_nonneg_right (by exact_mod_cast rest) (by positivity))
    have sums : ticks first clockRate ≤ ticks second clockRate := by
      rw [ticks, ticks, here]
      exact nearest_mono (by decide) (add_nonneg (Nat.cast_nonneg _) (nearest_nonneg
        (by positivity))) (add_le_add_right parts _)
    rw [counted, counted, here]
    exact add_le_add_left (Int.floor_le_floor sums) _

/-- What 32 bits show of two times less than a cycle apart is how far they are apart, give or
take a tick. -/
theorem us_to_rtp_gap {first second clockRate : Nat} (ordered : first ≤ second)
    (exact : second < 2 ^ 53) (some : 0 < clockRate) (rate : clockRate ≤ 1000000)
    (cycle : second * clockRate / 1000000 + 1 < first * clockRate / 1000000 + 2 ^ 32) :
    second * clockRate / 1000000 ≤ first * clockRate / 1000000 +
        wrapUnsigned 32 ((usToRtp second clockRate : Int) - usToRtp first clockRate) + 1 ∧
      first * clockRate / 1000000 +
          wrapUnsigned 32 ((usToRtp second clockRate : Int) - usToRtp first clockRate) ≤
        second * clockRate / 1000000 + 1 := by
  have before := counted_near (ordered.trans_lt exact) rate
  have after := counted_near exact rate
  have forward := counted_mono ordered exact some rate
  have same : (usToRtp second clockRate : Int) - usToRtp first clockRate ≡
      counted second clockRate - counted first clockRate [ZMOD 2 ^ 32] := by
    rw [us_to_rtp_counted exact rate, us_to_rtp_counted (ordered.trans_lt exact) rate]
    exact (wrap_unsigned_mod_eq 32 _).sub (wrap_unsigned_mod_eq 32 _)
  have gap : (wrapUnsigned 32 ((usToRtp second clockRate : Int) - usToRtp first clockRate) : Int) =
      counted second clockRate - counted first clockRate := by
    rw [wrap_unsigned_congr same, wrap_unsigned_cast]
    exact Int.emod_eq_of_lt (sub_nonneg.mpr forward) (by omega)
  omega

end RtpPacket.Rtp
