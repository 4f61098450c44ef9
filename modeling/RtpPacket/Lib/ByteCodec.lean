import Mathlib.Tactic

/-!
# Big-endian numerals over byte lists

Fixed-width big-endian encoding, its decoder, and reads at an offset of a longer
buffer. A store of a number truncates it to the width of the field, so the
encoder is total and the round trip is modulo `256 ^ width`.
-/

namespace ByteCodec

set_option autoImplicit false

abbrev Byte := UInt8

abbrev Bytes := List Byte

/-- The byte of `value` that starts at bit `shift`, truncated as a store to a byte is. -/
def byteAt (value shift : Nat) : Byte := UInt8.ofNat (value >>> shift)

def encodeBE : Nat → Nat → Bytes
  | 0, _ => []
  | width + 1, value => byteAt value (8 * width) :: encodeBE width value

def decodeBE : Bytes → Nat
  | [] => 0
  | byte :: rest => byte.toNat * 256 ^ rest.length + decodeBE rest

def readBE (width : Nat) (bytes : Bytes) (offset : Nat) : Nat :=
  decodeBE ((bytes.drop offset).take width)

theorem byte_at_to_nat (value shift : Nat) :
    (byteAt value shift).toNat = value / 2 ^ shift % 256 := by
  simp [byteAt, Nat.shiftRight_eq_div_pow]

theorem byte_at_low (value : Nat) : (byteAt value 0).toNat = value % 256 := by
  rw [byte_at_to_nat, pow_zero, Nat.div_one]

theorem byte_at_xor (left right shift : Nat) :
    byteAt (left ^^^ right) shift = byteAt left shift ^^^ byteAt right shift := by
  simp [byteAt, Nat.shiftRight_xor_distrib]

theorem byte_eq_of_to_nat {left right : Byte} (same : left.toNat = right.toNat) :
    left = right := UInt8.toNat_inj.mp same

@[simp] theorem byte_at_byte (byte : Byte) : byteAt byte.toNat 0 = byte := by
  apply byte_eq_of_to_nat
  rw [byte_at_low]
  exact Nat.mod_eq_of_lt byte.toNat_lt

@[simp] theorem encode_be_length (width value : Nat) : (encodeBE width value).length = width := by
  induction width with
  | zero => rfl
  | succ width ih => simp [encodeBE, ih]

theorem encode_many_length (width : Nat) (values : List Nat) :
    (values.flatMap (encodeBE width)).length = width * values.length := by
  induction values with
  | nil => rfl
  | cons value rest ih =>
      rw [List.flatMap_cons, List.length_append, encode_be_length, ih, List.length_cons]
      ring

theorem decode_be_lt (bytes : Bytes) : decodeBE bytes < 256 ^ bytes.length := by
  induction bytes with
  | nil => simp [decodeBE]
  | cons byte rest ih =>
      have bounded := byte.toNat_lt
      simp only [decodeBE, List.length_cons, pow_succ]
      nlinarith

theorem decode_be_encode (width value : Nat) :
    decodeBE (encodeBE width value) = value % 256 ^ width := by
  induction width with
  | zero => simp [encodeBE, decodeBE, Nat.mod_one]
  | succ width ih =>
      have power : 2 ^ (8 * width) = 256 ^ width := by rw [pow_mul]; norm_num
      rw [encodeBE, decodeBE, ih, byte_at_to_nat, encode_be_length, power,
        pow_succ, Nat.mod_mul]
      ring

theorem decode_be_injective {left right : Bytes} (length : left.length = right.length)
    (decoded : decodeBE left = decodeBE right) : left = right := by
  induction left generalizing right with
  | nil => exact (List.length_eq_zero_iff.mp length.symm).symm
  | cons head tail ih =>
      cases right with
      | nil => simp at length
      | cons other rest =>
          have tailLength : tail.length = rest.length := by simpa using length
          have leftBound := decode_be_lt tail
          have rightBound := decode_be_lt rest
          simp only [decodeBE, tailLength] at decoded leftBound
          have heads : head.toNat = other.toNat := by
            have positive : 0 < 256 ^ rest.length := by positivity
            have leftDigit := Nat.mul_add_div positive head.toNat (decodeBE tail)
            have rightDigit := Nat.mul_add_div positive other.toNat (decodeBE rest)
            rw [Nat.div_eq_of_lt leftBound, Nat.add_zero, Nat.mul_comm] at leftDigit
            rw [Nat.div_eq_of_lt rightBound, Nat.add_zero, Nat.mul_comm] at rightDigit
            rw [← leftDigit, ← rightDigit, decoded]
          have tails : decodeBE tail = decodeBE rest := by
            rw [heads] at decoded
            exact Nat.add_left_cancel decoded
          rw [byte_eq_of_to_nat heads, ih tailLength tails]

theorem encode_be_decode (bytes : Bytes) : encodeBE bytes.length (decodeBE bytes) = bytes := by
  apply decode_be_injective (encode_be_length _ _)
  rw [decode_be_encode, Nat.mod_eq_of_lt (decode_be_lt bytes)]

theorem encode_be_congr {width left right : Nat}
    (same : left % 256 ^ width = right % 256 ^ width) :
    encodeBE width left = encodeBE width right := by
  apply decode_be_injective (by simp)
  rw [decode_be_encode, decode_be_encode, same]

theorem encode_be_append (high low value : Nat) :
    encodeBE (high + low) value = encodeBE high (value / 256 ^ low) ++ encodeBE low value := by
  induction high with
  | zero => simp [encodeBE]
  | succ high ih =>
      have power : 2 ^ (8 * low) = 256 ^ low := by rw [pow_mul]; norm_num
      rw [Nat.succ_add, encodeBE, encodeBE, ih, List.cons_append]
      congr 1
      rw [byteAt, byteAt, ← power, ← Nat.shiftRight_eq_div_pow, ← Nat.shiftRight_add]
      congr 2
      ring

theorem encode_be_xor (width left right : Nat) :
    encodeBE width (left ^^^ right) =
      List.zipWith (· ^^^ ·) (encodeBE width left) (encodeBE width right) := by
  induction width with
  | zero => rfl
  | succ width ih => simp only [encodeBE, List.zipWith_cons_cons, byte_at_xor, ih]

theorem encode_be_zero (width : Nat) : encodeBE width 0 = List.replicate width 0 := by
  induction width with
  | zero => rfl
  | succ width ih => simp [encodeBE, ih, byteAt, List.replicate_succ]

theorem read_be_encode (width value : Nat) (suffix : Bytes) :
    readBE width (encodeBE width value ++ suffix) 0 = value % 256 ^ width := by
  have taken : (encodeBE width value ++ suffix).take width = encodeBE width value :=
    List.take_left' (encode_be_length width value)
  rw [readBE, List.drop_zero, taken, decode_be_encode]

theorem read_be_lt (width : Nat) (bytes : Bytes) (offset : Nat) :
    readBE width bytes offset < 256 ^ width := by
  have bounded := decode_be_lt ((bytes.drop offset).take width)
  apply Nat.lt_of_lt_of_le bounded
  apply Nat.pow_le_pow_right (by decide)
  exact List.length_take_le _ _

theorem read_be_append_right (width : Nat) (pre suffix : Bytes) (offset : Nat) :
    readBE width (pre ++ suffix) (pre.length + offset) = readBE width suffix offset := by
  rw [readBE, readBE, ← List.drop_drop, List.drop_left]

theorem read_be_drop (width skipped : Nat) (bytes : Bytes) (offset : Nat) :
    readBE width (bytes.drop skipped) offset = readBE width bytes (skipped + offset) := by
  rw [readBE, readBE, List.drop_drop]

theorem read_be_past {width skipped : Nat} {pre : Bytes} (length : pre.length = skipped)
    (suffix : Bytes) (offset : Nat) :
    readBE width (pre ++ suffix) (skipped + offset) = readBE width suffix offset := by
  rw [← length]
  exact read_be_append_right width pre suffix offset

theorem read_be_skip (width skipped value : Nat) (suffix : Bytes) (offset : Nat) :
    readBE width (encodeBE skipped value ++ suffix) (skipped + offset) =
      readBE width suffix offset :=
  read_be_past (encode_be_length skipped value) suffix offset

/-- The same with the offset as it stands, for a simplifier to walk over fields. -/
theorem read_be_beyond {width skipped offset : Nat} (beyond : skipped ≤ offset) (value : Nat)
    (suffix : Bytes) :
    readBE width (encodeBE skipped value ++ suffix) offset =
      readBE width suffix (offset - skipped) := by
  conv_lhs => rw [← Nat.add_sub_of_le beyond]
  exact read_be_skip width skipped value suffix _

theorem read_be_append_left {width : Nat} {pre : Bytes} (suffix : Bytes) {offset : Nat}
    (inside : offset + width ≤ pre.length) :
    readBE width (pre ++ suffix) offset = readBE width pre offset := by
  rw [readBE, List.drop_append_of_le_length (by omega),
    List.take_append_of_le_length (by simp; omega), readBE]

theorem read_be_many (width : Nat) (values : List Nat) (suffix : Bytes) :
    (List.range values.length).map (fun index =>
        readBE width (values.flatMap (encodeBE width) ++ suffix) (index * width)) =
      values.map (· % 256 ^ width) := by
  induction values with
  | nil => rfl
  | cons value rest ih =>
      have later (index : Nat) :
          readBE width ((value :: rest).flatMap (encodeBE width) ++ suffix) ((index + 1) * width) =
            readBE width (rest.flatMap (encodeBE width) ++ suffix) (index * width) := by
        rw [List.flatMap_cons, List.append_assoc, Nat.succ_mul, Nat.add_comm]
        exact read_be_skip width width value _ _
      rw [List.length_cons, List.range_succ_eq_map, List.map_cons, List.map_map, List.map_cons,
        ← ih]
      apply congrArg₂ List.cons
      · rw [List.flatMap_cons, List.append_assoc, Nat.zero_mul, read_be_encode]
      · apply List.map_congr_left
        intro index _
        exact later index

theorem read_be_take_append {width count : Nat} {bytes : Bytes} (suffix : Bytes) {offset : Nat}
    (inside : offset + width ≤ count) (bounded : count ≤ bytes.length) :
    readBE width (bytes.take count ++ suffix) offset = readBE width bytes offset := by
  rw [read_be_append_left suffix (by simp; omega)]
  conv_rhs => rw [← List.take_append_drop count bytes]
  rw [read_be_append_left (bytes.drop count) (by simp; omega)]

theorem encode_be_read_be {width offset : Nat} {bytes : Bytes}
    (inside : offset + width ≤ bytes.length) :
    encodeBE width (readBE width bytes offset) = (bytes.drop offset).take width := by
  have length : ((bytes.drop offset).take width).length = width := by
    rw [List.length_take, List.length_drop]
    omega
  have written := encode_be_decode ((bytes.drop offset).take width)
  rwa [length] at written

end ByteCodec
