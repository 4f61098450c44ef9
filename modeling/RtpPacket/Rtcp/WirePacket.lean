import RtpPacket.Rtcp.Compound

/-!
# RTCP packets of other senders

A packet as the format has it: a header with a count and the size in words, the body and,
announced by the P bit, padding to whole words whose last byte counts it.
-/

namespace RtpPacket.Rtcp

open ByteCodec

set_option autoImplicit false

/-- The bytes before the count may be anything. -/
structure Padding where
  fill : Bytes
  words : (fill.length + 1) % 4 = 0
  counted : fill.length + 1 < 0x100
  deriving DecidableEq

namespace Padding

def bytes (padding : Padding) : Bytes := padding.fill ++ [byteAt (padding.fill.length + 1) 0]

theorem bytes_length (padding : Padding) : padding.bytes.length = padding.fill.length + 1 := by
  rw [bytes, List.length_append, List.length_singleton]

end Padding

/-- What follows the body; nothing without the P bit. -/
def paddingBytes (padding : Option Padding) : Bytes := (padding.map Padding.bytes).getD []

def firstByte (padding : Option Padding) (count : Fin 0x20) : Byte :=
  byteAt (0x80 + (if padding.isSome then 0x20 else 0) + count) 0

/-- The body is whole words, so that the length field can tell its size. -/
def wirePacket (type : Byte) (count : Fin 0x20) (body : Bytes) (padding : Option Padding) : Bytes :=
  [firstByte padding count, type] ++ encodeBE 2 ((body ++ paddingBytes padding).length / 4) ++
    (body ++ paddingBytes padding)

theorem wire_packet_length (type : Byte) (count : Fin 0x20) (body : Bytes)
    (padding : Option Padding) :
    (wirePacket type count body padding).length =
      4 + body.length + (paddingBytes padding).length := by
  simp only [wirePacket, List.length_append, List.length_cons, List.length_nil, encode_be_length]
  omega

theorem first_byte_fields (padding : Option Padding) (count : Fin 0x20) :
    (firstByte padding count).toNat / 0x40 = 2 ∧
      decide ((firstByte padding count).toNat / 0x20 % 2 = 1) = padding.isSome ∧
      (firstByte padding count).toNat % 0x20 = count := by
  have small := count.isLt
  rw [firstByte, byte_at_low]
  cases padding.isSome with
  | false =>
      simp only [Bool.false_eq_true, if_false, decide_eq_false_iff_not]
      omega
  | true =>
      simp only [if_true, decide_eq_true_eq]
      omega

theorem read_wire_body (type : Byte) (count : Fin 0x20) (body : Bytes) (padding : Option Padding)
    (width offset : Nat) :
    readBE width (wirePacket type count body padding) (4 + offset) =
      readBE width (body ++ paddingBytes padding) offset :=
  read_be_past (by simp) _ _

theorem drop_wire_header (type : Byte) (count : Fin 0x20) (body : Bytes)
    (padding : Option Padding) (skipped : Nat) :
    (wirePacket type count body padding).drop (4 + skipped) =
      (body ++ paddingBytes padding).drop skipped := by
  rw [← List.drop_drop, wirePacket, List.drop_left' (by simp)]

theorem parse_wire_packet (type : Byte) (count : Fin 0x20) (body : Bytes)
    (padding : Option Padding) :
    parseRTCP (wirePacket type count body padding) = some
      { version := 2
        padding := padding.isSome
        type := type.toNat
        length := (body ++ paddingBytes padding).length / 4 % 0x10000
        body := parseBody (wirePacket type count body padding) type.toNat count } := by
  have long := wire_packet_length type count body padding
  obtain ⟨version, padded, counted⟩ := first_byte_fields padding count
  have first : readBE 1 (wirePacket type count body padding) 0 =
      (firstByte padding count).toNat := by
    simp [wirePacket, readBE, decodeBE]
  have second : readBE 1 (wirePacket type count body padding) 1 = type.toNat := by
    simp [wirePacket, readBE, decodeBE]
  have words : readBE 2 (wirePacket type count body padding) 2 =
      (body ++ paddingBytes padding).length / 4 % 0x10000 := by
    rw [wirePacket, List.append_assoc]
    exact (read_be_append_right 2 [_, _] _ 0).trans (read_be_encode 2 _ _)
  rw [parseRTCP, if_neg (by omega)]
  simp only [first, second, words, version, padded, counted]
  rfl

end RtpPacket.Rtcp
