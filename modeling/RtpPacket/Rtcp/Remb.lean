import RtpPacket.Lib.Scaling
import RtpPacket.Rtcp.Compound

/-!
# Bitrate estimates

An estimate travels as a mantissa of eighteen bits and an exponent. The writer halves the
mantissa with a shift, which first folds it to a signed word, so only bitrates below
`2 ^ 31` arrive.
-/

namespace RtpPacket.Rtcp

open ByteCodec Scaling Word

set_option autoImplicit false

structure RembFeedback where
  bitrate : Nat
  ssrcs : List Nat
  deriving DecidableEq, Repr

def parseREMB (fci : Bytes) : Option RembFeedback :=
  if fci.length < 8 then none
  else if fci.take 4 ≠ rembIdentifier then none
  else
    let numSsrc := readBE 1 fci 4
    let brExp := readBE 1 fci 5 / 4 % 0x40
    let mantissa := readBE 1 fci 5 % 4 * 0x10000 + readBE 2 fci 6
    some
      { bitrate := mantissa * 2 ^ brExp
        ssrcs := ((List.range numSsrc).takeWhile fun i => 8 + i * 4 + 4 ≤ fci.length).map
          fun i => readBE 4 fci (8 + i * 4) }

def rembFields (numSsrcs exp : Nat) (mantissa : Int) (ssrcBytes : Bytes) : Bytes :=
  rembIdentifier ++ (encodeBE 1 numSsrcs ++
    (encodeBE 1 (exp % 0x40 * 4 + (mantissa / 0x10000 % 4).toNat) ++
      (encodeBE 2 (mantissa % 0x10000).toNat ++ ssrcBytes)))

theorem build_remb {senderSsrc : Nat} {mediaSsrcs : List Nat} {bitrate : Rat}
    (few : mediaSsrcs.length ≤ 255) :
    ∃ packet, buildREMB senderSsrc mediaSsrcs bitrate = .ok packet ∧
      packet.drop 12 = rembFields mediaSsrcs.length (rembExponent bitrate).1
        (rembExponent bitrate).2 (mediaSsrcs.flatMap (encodeBE 4)) := by
  have length : writeUInt16BE (2 + 1 + mediaSsrcs.length) =
      .ok (encodeBE 2 (2 + 1 + mediaSsrcs.length)) := write_uint16_of_lt (by omega)
  refine ⟨_, by rw [buildREMB, length]; rfl, ?_⟩
  simp only [List.append_assoc]
  rfl

theorem remb_number {exp : Nat} {mantissa : Int} {byte low : Nat}
    (shared : byte = exp % 0x40 * 4 + (mantissa / 0x10000 % 4).toNat)
    (rest : low = (mantissa % 0x10000).toNat) :
    byte / 4 % 0x40 = exp % 0x40 ∧
      byte % 4 * 0x10000 + low = (mantissa % 2 ^ 18).toNat := by
  constructor
  · omega
  · norm_num
    omega

theorem parse_remb_fields {ssrcs : List Nat} (few : ssrcs.length ≤ 255) (exp : Nat)
    (mantissa : Int) :
    parseREMB (rembFields ssrcs.length exp mantissa (ssrcs.flatMap (encodeBE 4))) = some
      { bitrate := (mantissa % 2 ^ 18).toNat * 2 ^ (exp % 0x40)
        ssrcs := ssrcs.map (· % 2 ^ 32) } := by
  have length : (rembFields ssrcs.length exp mantissa (ssrcs.flatMap (encodeBE 4))).length =
      8 + 4 * ssrcs.length := by
    simp only [rembFields, List.length_append, encode_be_length, encode_many_length, rembIdentifier,
      List.length_cons, List.length_nil]
    omega
  have field (width offset : Nat) :
      readBE width (rembFields ssrcs.length exp mantissa (ssrcs.flatMap (encodeBE 4)))
          (4 + offset) =
        readBE width (encodeBE 1 ssrcs.length ++
          (encodeBE 1 (exp % 0x40 * 4 + (mantissa / 0x10000 % 4).toNat) ++
            (encodeBE 2 (mantissa % 0x10000).toNat ++ ssrcs.flatMap (encodeBE 4)))) offset :=
    read_be_past rfl _ _
  have counted := field 1 0
  have shared := field 1 1
  have low := field 2 2
  simp (disch := omega) only [read_be_beyond, Nat.reduceSub,
    read_be_encode, Nat.reduceAdd] at counted shared low
  rw [Nat.mod_eq_of_lt (by omega)] at counted shared low
  obtain ⟨exponent, number⟩ := remb_number shared low
  have listed (index : Nat) :
      readBE 4 (rembFields ssrcs.length exp mantissa (ssrcs.flatMap (encodeBE 4)))
          (8 + index * 4) =
        readBE 4 (ssrcs.flatMap (encodeBE 4) ++ []) (index * 4) := by
    rw [List.append_nil, rembFields, ← List.append_assoc, ← List.append_assoc, ← List.append_assoc]
    exact read_be_past (by simp [rembIdentifier]) _ _
  have all : (List.range ssrcs.length).takeWhile
      (fun i => 8 + i * 4 + 4 ≤ 8 + 4 * ssrcs.length) = List.range ssrcs.length := by
    rw [List.takeWhile_eq_self_iff]
    intro index member
    have inside := List.mem_range.mp member
    rw [decide_eq_true_eq]
    omega
  have tag : (rembFields ssrcs.length exp mantissa (ssrcs.flatMap (encodeBE 4))).take 4 =
      rembIdentifier := List.take_left' rfl
  rw [parseREMB, if_neg (by omega), if_neg (not_not.mpr tag)]
  simp only [counted, exponent, number, length, all, listed, read_be_many]
  rfl

theorem mantissa_arrives {mantissa : Nat} (fits : mantissa < 2 ^ 18) :
    ((mantissa : Int) % 2 ^ 18).toNat = mantissa := by
  norm_num at fits ⊢
  omega

/-- Below `2 ^ 31` the shift is a halving. -/
theorem remb_loop_scaled {fuel exp value exponent : Nat} (scaled : Scaled 18 value exponent)
    (small : value < 2 ^ 31) (enough : exponent ≤ fuel) :
    rembExponentLoop fuel (exp, value) =
      (exp + exponent, ((value / 2 ^ exponent : Nat) : Int)) := by
  induction fuel generalizing exp value exponent with
  | zero =>
      rw [Nat.le_zero.mp enough, pow_zero, Nat.div_one]
      rfl
  | succ fuel ih =>
      rw [rembExponentLoop]
      split_ifs with wide
      · obtain ⟨fewer, rfl, halved⟩ := scaled.halve (by norm_num; omega)
        have unchanged : toInt32 value = value := by
          rw [toInt32, Int.bmod_eq_of_le] <;> omega
        have half : ((value : Int) / 2) = ((value / 2 : Nat) : Int) := rfl
        rw [unchanged, half, ih halved (by omega) (by omega), Nat.div_div_eq_div_mul, pow_succ',
          Nat.add_assoc, Nat.add_comm 1]
      · rw [scaled.eq_zero_of_lt (by norm_num; omega), pow_zero, Nat.div_one]
        rfl

structure Estimate where
  senderSsrc : Nat
  ssrcs : List (Fin (2 ^ 32))
  few : ssrcs.length ≤ 255
  bitrate : Nat

namespace Estimate

/-- As much of the bitrate as eighteen bits hold. -/
structure Close (estimate : Estimate) (feedback : RembFeedback) : Prop where
  ssrcs : feedback.ssrcs = estimate.ssrcs.map (·.val)
  below : feedback.bitrate ≤ estimate.bitrate
  loss : ∀ exponent, Scaled 18 estimate.bitrate exponent →
    estimate.bitrate - feedback.bitrate < 2 ^ exponent

def Arrives (estimate : Estimate) : Prop :=
  ∃ packet feedback,
    buildREMB estimate.senderSsrc (estimate.ssrcs.map (·.val)) estimate.bitrate = .ok packet ∧
      parseREMB (packet.drop 12) = some feedback ∧ estimate.Close feedback

theorem received (estimate : Estimate) :
    ∃ packet, buildREMB estimate.senderSsrc (estimate.ssrcs.map (·.val)) estimate.bitrate =
        .ok packet ∧
      parseREMB (packet.drop 12) = some
        { bitrate := ((rembExponent estimate.bitrate).2 % 2 ^ 18).toNat *
            2 ^ ((rembExponent estimate.bitrate).1 % 0x40)
          ssrcs := estimate.ssrcs.map (·.val) } := by
  have few : (estimate.ssrcs.map (·.val)).length ≤ 255 :=
    (List.length_map _).trans_le estimate.few
  obtain ⟨packet, built, fields⟩ := @build_remb estimate.senderSsrc _
    estimate.bitrate few
  refine ⟨packet, built, ?_⟩
  have fits : (estimate.ssrcs.map (·.val)).map (· % 2 ^ 32) = estimate.ssrcs.map (·.val) := by
    rw [List.map_map]
    apply List.map_congr_left
    intro ssrc _
    exact Nat.mod_eq_of_lt ssrc.isLt
  rw [fields, parse_remb_fields few, fits]

theorem floor_nat (bitrate : Nat) : (bitrate : Rat).floor = bitrate :=
  Rat.floor_intCast bitrate

theorem remb_exponent_narrow {bitrate exponent : Nat} (scaled : Scaled 18 bitrate exponent)
    (small : bitrate < 2 ^ 31) :
    rembExponent bitrate = (exponent, ((bitrate / 2 ^ exponent : Nat) : Int)) := by
  rw [rembExponent, floor_nat, remb_loop_scaled scaled small
    (scaled.exponent_le (by norm_num; omega)), Nat.zero_add]

theorem remb_exponent_wide {bitrate : Nat} (wide : 2 ^ 31 ≤ bitrate) :
    rembExponent bitrate = rembExponentLoop 12 (1, toInt32 bitrate / 2) := by
  rw [rembExponent, rembExponentLoop, floor_nat, if_pos (by omega)]

theorem to_int32_wide {bitrate : Nat} (wide : 2 ^ 31 ≤ bitrate) :
    toInt32 bitrate < 2 ^ 31 ∧ (0 ≤ toInt32 bitrate → 2 ^ 32 ≤ bitrate) := by
  have high := Int.bmod_lt (x := (bitrate : Int)) (m := 2 ^ 32) (by decide)
  rw [toInt32]
  constructor
  · omega
  · intro nonneg
    by_contra low
    rw [Int.bmod_def, Int.emod_eq_of_lt (by omega) (by omega), if_neg (by omega)] at nonneg
    omega

/-- At least half of a wide bitrate is lost. -/
theorem wide_bitrate_halved {bitrate : Nat} (wide : 2 ^ 31 ≤ bitrate) :
    ((rembExponent bitrate).2 % 2 ^ 18).toNat * 2 ^ ((rembExponent bitrate).1 % 0x40) * 2 ≤
      bitrate := by
  obtain ⟨high, positive⟩ := to_int32_wide wide
  rw [remb_exponent_wide wide]
  by_cases long : toInt32 bitrate / 2 > 0x3FFFF
  · obtain ⟨mantissa, half⟩ := Int.eq_ofNat_of_zero_le (show 0 ≤ toInt32 bitrate / 2 by omega)
    obtain ⟨exponent, scaled⟩ := exists_scaled 18 mantissa
    have few : exponent ≤ 12 := scaled.exponent_le (by norm_num; omega)
    have cut := Nat.div_mul_le_self mantissa (2 ^ exponent)
    rw [half, remb_loop_scaled scaled (by omega) few,
      mantissa_arrives scaled.mantissa_lt, Nat.mod_eq_of_lt (by omega),
      pow_add, pow_one]
    have wider := positive (by omega)
    calc mantissa / 2 ^ exponent * (2 * 2 ^ exponent) * 2
        = mantissa / 2 ^ exponent * 2 ^ exponent * 4 := by ring
      _ ≤ mantissa * 4 := Nat.mul_le_mul_right 4 cut
      _ ≤ bitrate := by omega
  · rw [rembExponentLoop, if_neg long]
    norm_num
    omega

theorem wide_estimate_never_arrives {estimate : Estimate} (wide : 2 ^ 31 ≤ estimate.bitrate) :
    ¬ estimate.Arrives := by
  obtain ⟨packet, built, parses⟩ := estimate.received
  obtain ⟨exponent, scaled⟩ := exists_scaled 18 estimate.bitrate
  intro arrives
  obtain ⟨other, feedback, otherBuilt, otherParses, close⟩ := arrives
  cases built.symm.trans otherBuilt
  cases parses.symm.trans otherParses
  have halved := wide_bitrate_halved wide
  have unit := scaled.unit_le (by norm_num; omega)
  have loss := close.loss exponent scaled
  dsimp only at loss
  omega

theorem arrives_iff (estimate : Estimate) : estimate.Arrives ↔ estimate.bitrate < 2 ^ 31 := by
  constructor
  · intro arrives
    by_contra wide
    exact wide_estimate_never_arrives (Nat.not_lt.mp wide) arrives
  · intro small
    obtain ⟨packet, built, parses⟩ := estimate.received
    obtain ⟨exponent, scaled⟩ := exists_scaled 18 estimate.bitrate
    have few : exponent ≤ 13 := scaled.exponent_le (by norm_num; omega)
    rw [remb_exponent_narrow scaled small, mantissa_arrives scaled.mantissa_lt,
      Nat.mod_eq_of_lt (by omega)] at parses
    refine ⟨packet, _, built, parses, rfl, Nat.div_mul_le_self _ _, ?_⟩
    intro least isLeast
    rw [isLeast.unique scaled]
    exact Scaled.loss_lt _ _

def wideEstimate : Estimate where
  senderSsrc := 1
  ssrcs := [7]
  few := by decide
  bitrate := 2 ^ 31

/-- It is received as no bitrate at all. -/
theorem wide_estimate_lost :
    (buildREMB 1 [7] (2 ^ 31)).toOption.bind (fun packet => parseREMB (packet.drop 12)) =
        some ⟨0, [7]⟩ ∧
      ¬ wideEstimate.Arrives :=
  ⟨by decide +kernel, wide_estimate_never_arrives (le_refl _)⟩

end Estimate

end RtpPacket.Rtcp
