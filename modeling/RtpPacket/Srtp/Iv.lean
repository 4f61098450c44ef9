import RtpPacket.Lib.ByteCodec

/-!
# Initialisation vectors

`buildRtpIv` and its siblings are transcriptions of the byte stores of the
source: the salt is copied, the tail is cleared, and single bytes are XORed in.
`rfcRtpIv` is the value the comment above `_buildRtpIv` names, as one 128-bit
number. The two agree only while the rollover counter is zero: the source puts
the low half of the counter two bytes too early and drops the high half.
-/

namespace RtpPacket.Srtp

open ByteCodec

set_option autoImplicit false

def xorAt (iv : Bytes) (position : Nat) (value : Byte) : Bytes :=
  iv.modify position (· ^^^ value)

def buildRtpIv (salt : Bytes) (ssrc packetIndex : Nat) : Bytes :=
  let iv := salt.take 14 ++ [0, 0]
  let iv := xorAt iv 4 (byteAt ssrc 24)
  let iv := xorAt iv 5 (byteAt ssrc 16)
  let iv := xorAt iv 6 (byteAt ssrc 8)
  let iv := xorAt iv 7 (byteAt ssrc 0)
  let hi := packetIndex / 0x10000 % 2 ^ 32
  let lo := packetIndex % 0x10000
  let iv := xorAt iv 8 (byteAt hi 8)
  let iv := xorAt iv 9 (byteAt hi 0)
  let iv := xorAt iv 12 (byteAt lo 8)
  xorAt iv 13 (byteAt lo 0)

def buildRtcpIv (salt : Bytes) (ssrc index : Nat) : Bytes :=
  let iv := salt.take 14 ++ [0, 0]
  let iv := xorAt iv 4 (byteAt ssrc 24)
  let iv := xorAt iv 5 (byteAt ssrc 16)
  let iv := xorAt iv 6 (byteAt ssrc 8)
  let iv := xorAt iv 7 (byteAt ssrc 0)
  let idx := index % 2 ^ 31
  let roc := idx / 0x10000
  let seq := idx % 0x10000
  let iv := xorAt iv 10 (byteAt roc 8)
  let iv := xorAt iv 11 (byteAt roc 0)
  let iv := xorAt iv 12 (byteAt seq 8)
  xorAt iv 13 (byteAt seq 0)

def buildGcmRtpIv (salt : Bytes) (ssrc roc seq : Nat) : Bytes :=
  let iv := salt.take 12
  let iv := xorAt iv 2 (byteAt ssrc 24)
  let iv := xorAt iv 3 (byteAt ssrc 16)
  let iv := xorAt iv 4 (byteAt ssrc 8)
  let iv := xorAt iv 5 (byteAt ssrc 0)
  let iv := xorAt iv 6 (byteAt roc 24)
  let iv := xorAt iv 7 (byteAt roc 16)
  let iv := xorAt iv 8 (byteAt roc 8)
  let iv := xorAt iv 9 (byteAt roc 0)
  let iv := xorAt iv 10 (byteAt seq 8)
  xorAt iv 11 (byteAt seq 0)

def buildGcmRtcpIv (salt : Bytes) (ssrc index : Nat) : Bytes :=
  let idx := index % 2 ^ 31
  let iv := salt.take 12
  let iv := xorAt iv 2 (byteAt ssrc 24)
  let iv := xorAt iv 3 (byteAt ssrc 16)
  let iv := xorAt iv 4 (byteAt ssrc 8)
  let iv := xorAt iv 5 (byteAt ssrc 0)
  let iv := xorAt iv 8 (byteAt idx 24)
  let iv := xorAt iv 9 (byteAt idx 16)
  let iv := xorAt iv 10 (byteAt idx 8)
  xorAt iv 11 (byteAt idx 0)

/-- The salt, the source identifier and the 48-bit packet index as one number,
each shifted to its place and XORed, written big-endian. -/
def rfcRtpIv (salt : Bytes) (ssrc packetIndex : Nat) : Bytes :=
  encodeBE 16 (decodeBE salt * 2 ^ 16 ^^^ ssrc * 2 ^ 64 ^^^ packetIndex * 2 ^ 16)

theorem list_of_length_fourteen {salt : Bytes} (length : salt.length = 14) :
    ∃ s0 s1 s2 s3 s4 s5 s6 s7 s8 s9 s10 s11 s12 s13,
      salt = [s0, s1, s2, s3, s4, s5, s6, s7, s8, s9, s10, s11, s12, s13] := by
  match salt, length with
  | [s0, s1, s2, s3, s4, s5, s6, s7, s8, s9, s10, s11, s12, s13], _ =>
      exact ⟨s0, s1, s2, s3, s4, s5, s6, s7, s8, s9, s10, s11, s12, s13, rfl⟩

theorem salt_field (salt : Bytes) (length : salt.length = 14) :
    encodeBE 16 (decodeBE salt * 2 ^ 16) = salt ++ [0, 0] := by
  have shifted : decodeBE salt * 2 ^ 16 / 256 ^ 2 = decodeBE salt := by omega
  have low : encodeBE 2 (decodeBE salt * 2 ^ 16) = encodeBE 2 0 := by
    apply encode_be_congr
    omega
  rw [encode_be_append 14 2, shifted, low, encode_be_zero]
  rw [← length, encode_be_decode]
  rfl

theorem ssrc_field {ssrc : Nat} (bound : ssrc < 2 ^ 32) :
    encodeBE 16 (ssrc * 2 ^ 64) =
      [0, 0, 0, 0] ++ encodeBE 4 ssrc ++ List.replicate 8 0 := by
  have shifted : ssrc * 2 ^ 64 / 256 ^ 8 = ssrc := by omega
  have high : ssrc / 256 ^ 4 = 0 := by omega
  have low : encodeBE 8 (ssrc * 2 ^ 64) = encodeBE 8 0 := by
    apply encode_be_congr
    omega
  rw [encode_be_append 8 8, shifted, low, encode_be_append 4 4, high,
    encode_be_zero, encode_be_zero]
  rfl

theorem index_field {packetIndex : Nat} (bound : packetIndex < 2 ^ 48) :
    encodeBE 16 (packetIndex * 2 ^ 16) =
      List.replicate 8 0 ++ encodeBE 6 packetIndex ++ [0, 0] := by
  have shifted : packetIndex * 2 ^ 16 / 256 ^ 2 = packetIndex := by omega
  have high : packetIndex / 256 ^ 6 = 0 := by omega
  have low : encodeBE 2 (packetIndex * 2 ^ 16) = encodeBE 2 0 := by
    apply encode_be_congr
    omega
  rw [encode_be_append 14 2, shifted, low, encode_be_append 8 6, high,
    encode_be_zero, encode_be_zero]
  rfl

theorem byte_at_eq_iff (left right leftShift rightShift : Nat) :
    byteAt left leftShift = byteAt right rightShift ↔
      left / 2 ^ leftShift % 256 = right / 2 ^ rightShift % 256 := by
  rw [← UInt8.toNat_inj, byte_at_to_nat, byte_at_to_nat]

theorem xor_byte_at_unchanged_iff (byte : Byte) (value shift : Nat) :
    byte = byte ^^^ byteAt value shift ↔ value / 2 ^ shift % 256 = 0 := by
  constructor
  · intro same
    have zero : byteAt value shift = 0 := by
      have cancelled := congrArg (byte ^^^ ·) same
      simp only [UInt8.xor_self, ← UInt8.xor_assoc, UInt8.zero_xor] at cancelled
      exact cancelled.symm
    rw [← byte_at_to_nat, zero]
    rfl
  · intro zero
    have empty : byteAt value shift = 0 := byte_eq_of_to_nat (by rw [byte_at_to_nat, zero]; rfl)
    rw [empty, UInt8.xor_zero]

/-- What survives of the index in the source's IV: its low 32 bits. -/
theorem rtp_iv_eq_iff {salt : Bytes} (saltLength : salt.length = 14)
    {ssrc packetIndex otherSsrc otherIndex : Nat}
    (ssrcBound : ssrc < 2 ^ 32) (otherSsrcBound : otherSsrc < 2 ^ 32) :
    buildRtpIv salt ssrc packetIndex = buildRtpIv salt otherSsrc otherIndex ↔
      ssrc = otherSsrc ∧ packetIndex % 2 ^ 32 = otherIndex % 2 ^ 32 := by
  obtain ⟨s0, s1, s2, s3, s4, s5, s6, s7, s8, s9, s10, s11, s12, s13, rfl⟩ :=
    list_of_length_fourteen saltLength
  simp [buildRtpIv, xorAt, byte_at_eq_iff]
  omega

/-- Byte by byte: bytes 8 and 9 hold the low half of the rollover counter where
the number has its high half, and bytes 10 and 11 hold nothing. -/
theorem rtp_iv_eq_rfc_iff {salt : Bytes} (saltLength : salt.length = 14)
    {ssrc packetIndex : Nat} (ssrcBound : ssrc < 2 ^ 32) (indexBound : packetIndex < 2 ^ 48) :
    buildRtpIv salt ssrc packetIndex = rfcRtpIv salt ssrc packetIndex ↔
      packetIndex < 2 ^ 16 := by
  rw [rfcRtpIv, encode_be_xor, encode_be_xor, salt_field salt saltLength,
    ssrc_field ssrcBound, index_field indexBound]
  obtain ⟨s0, s1, s2, s3, s4, s5, s6, s7, s8, s9, s10, s11, s12, s13, rfl⟩ :=
    list_of_length_fourteen saltLength
  simp only [buildRtpIv, xorAt, encodeBE, List.replicate, List.take, List.modify_cons,
    List.cons_append, List.nil_append, List.zipWith_cons_cons, List.zipWith_nil_left]
  simp [byte_at_eq_iff, xor_byte_at_unchanged_iff]
  omega

theorem rtp_iv_is_rfc_encoding_iff_first_cycle {salt : Bytes} (saltLength : salt.length = 14)
    {ssrc packetIndex : Nat} (ssrcBound : ssrc < 2 ^ 32) (indexBound : packetIndex < 2 ^ 48) :
    (buildRtpIv salt ssrc packetIndex = rfcRtpIv salt ssrc packetIndex ↔
      packetIndex < 2 ^ 16) ∧
    ∀ otherSsrc < 2 ^ 32, ∀ otherIndex < 2 ^ 48,
      (buildRtpIv salt ssrc packetIndex = buildRtpIv salt otherSsrc otherIndex ↔
        ssrc = otherSsrc ∧ packetIndex % 2 ^ 32 = otherIndex % 2 ^ 32) := by
  constructor
  · exact rtp_iv_eq_rfc_iff saltLength ssrcBound indexBound
  · intro otherSsrc otherSsrcBound otherIndex _
    exact rtp_iv_eq_iff saltLength ssrcBound otherSsrcBound

theorem rtp_iv_at_zero_salt_second_cycle :
    buildRtpIv (List.replicate 14 0) 0 0x10000 ≠ rfcRtpIv (List.replicate 14 0) 0 0x10000 ∧
      buildRtpIv (List.replicate 14 0) 0 0x10000 ≠ buildRtpIv (List.replicate 14 0) 1 0x10000 ∧
      buildRtpIv (List.replicate 14 0) 0 0x10000 ≠ buildRtpIv (List.replicate 14 0) 0 0xFFFF := by
  obtain ⟨encoding, collision⟩ := @rtp_iv_is_rfc_encoding_iff_first_cycle (List.replicate 14 0)
    (by decide) 0 0x10000 (by decide) (by decide)
  exact ⟨mt encoding.mp (by decide), mt (collision 1 (by decide) 0x10000 (by decide)).mp (by decide),
    mt (collision 0 (by decide) 0xFFFF (by decide)).mp (by decide)⟩

theorem rtp_iv_wrong_after_first_wrap :
    buildRtpIv (List.replicate 14 0) 0 0x10000 ≠ rfcRtpIv (List.replicate 14 0) 0 0x10000 ∧
      buildRtpIv (List.replicate 14 0) 0 0x10000 =
        buildRtpIv (List.replicate 14 0) 0 (0x10000 + 2 ^ 32) := by
  decide

end RtpPacket.Srtp
