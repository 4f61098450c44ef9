import RtpPacket.Lib.Writes
import RtpPacket.Rtp.Sending

/-!
# The three encoders of a packet

`serialize`, `makePacket` and `makePacketWithPrefix` each write the header into a buffer of
their own, statement by statement. Here the buffers are fresh memory with any content, and
the statements are the writes of the source. All three leave the bytes that the other
modules reason about, and nothing of what the memory held.
-/

namespace RtpPacket.Rtp

open ByteCodec Word Writes

set_option autoImplicit false

/-- A buffer of `Buffer.allocUnsafe` has the size asked for and whatever the memory held. -/
structure Memory where
  allocUnsafe : Nat → Bytes
  size : ∀ count, (allocUnsafe count).length = count

def setByte (index value : Nat) : Write Byte := ⟨index, [byteAt value 0]⟩

def writeUInt16BE (value offset : Nat) : Write Byte := ⟨offset, encodeBE 2 value⟩

def writeUInt32BE (value offset : Nat) : Write Byte := ⟨offset, encodeBE 4 value⟩

/-- `>>>`, which reduces its operand to 32 bits first. -/
def shiftRight32 (value shift : Nat) : Nat := (value % 2 ^ 32) >>> shift

def fixedWrites (pkt : PacketObject) (extBlock : Option Bytes) : List (Write Byte) :=
  [setByte 0 (rtpVersion <<< 6 ||| (if pkt.padding then 1 else 0) <<< 5 |||
      (if extBlock.isSome then 0x10 else 0) ||| (pkt.csrc.length &&& 0x0F)),
    setByte 1 ((if pkt.marker then 1 else 0) <<< 7 ||| wrapUnsigned 7 pkt.payloadType),
    writeUInt16BE (wrapUnsigned 16 pkt.sequenceNumber) 2,
    writeUInt32BE (wrapUnsigned 32 pkt.timestamp) 4,
    writeUInt32BE (wrapUnsigned 32 pkt.ssrc) 8]

def serializeWrites (pkt : PacketObject) (extBlock : Option Bytes) : List (Write Byte) :=
  let extLen := (extBlock.getD []).length
  let fixedAndCsrcLen := 12 + pkt.csrc.length * 4
  let headerLen := fixedAndCsrcLen + extLen
  fixedWrites pkt extBlock ++
    (pkt.csrc.mapIdx fun i source => writeUInt32BE (wrapUnsigned 32 source) (12 + i * 4)) ++
    extBlock.toList.map (fun block => ⟨fixedAndCsrcLen, block⟩) ++
    [⟨headerLen, pkt.payload⟩]

def serializeInto (memory : Memory) (pkt : PacketObject) : Except String Bytes := do
  let extBlock ← extensionBlock pkt
  let headerLen := 12 + pkt.csrc.length * 4 + (extBlock.getD []).length
  return writeAll (memory.allocUnsafe (headerLen + pkt.payload.length))
    (serializeWrites pkt extBlock)

namespace Packetizer

def packetWrites (self : Packetizer) (payload : Bytes) (rtpTimestamp : Nat) (marker : Bool) :
    List (Write Byte) :=
  [setByte 0 (rtpVersion <<< 6),
    setByte 1 ((if marker then 0x80 else 0) ||| (self.payloadType &&& 0x7F)),
    setByte 2 (self.seq >>> 8 &&& 0xFF),
    setByte 3 (self.seq &&& 0xFF),
    setByte 4 (shiftRight32 rtpTimestamp 24 &&& 0xFF),
    setByte 5 (shiftRight32 rtpTimestamp 16 &&& 0xFF),
    setByte 6 (shiftRight32 rtpTimestamp 8 &&& 0xFF),
    setByte 7 (rtpTimestamp &&& 0xFF),
    setByte 8 (shiftRight32 self.ssrc 24 &&& 0xFF),
    setByte 9 (shiftRight32 self.ssrc 16 &&& 0xFF),
    setByte 10 (shiftRight32 self.ssrc 8 &&& 0xFF),
    setByte 11 (self.ssrc &&& 0xFF)] ++
  (if payload.length > 0 then [⟨12, payload⟩] else [])

def makePacketInto (memory : Memory) (self : Packetizer) (payload : Bytes) (rtpTimestamp : Nat)
    (marker withMeta : Bool) : Packet × Packetizer :=
  let buf := writeAll (memory.allocUnsafe (12 + payload.length))
    (self.packetWrites payload rtpTimestamp marker)
  (if withMeta then .descriptor buf self.seq rtpTimestamp marker else .buffer buf, self.advance)

def inlineWrites (p0 p1 p2 p3 prefixLen : Nat) : List (Write Byte) :=
  if prefixLen > 0 then
    setByte 12 (p0 &&& 0xFF) ::
      if prefixLen > 1 then
        setByte 13 (p1 &&& 0xFF) ::
          if prefixLen > 2 then
            setByte 14 (p2 &&& 0xFF) ::
              if prefixLen > 3 then [setByte 15 (p3 &&& 0xFF)] else []
          else []
      else []
  else []

def prefixedWrites (self : Packetizer) (p0 p1 p2 p3 prefixLen : Nat) (data : Bytes)
    (dataStart dataLen rtpTimestamp : Nat) (marker : Bool) : List (Write Byte) :=
  [setByte 0 (rtpVersion <<< 6),
    setByte 1 ((if marker then 0x80 else 0) ||| (self.payloadType &&& 0x7F)),
    setByte 2 (self.seq >>> 8 &&& 0xFF),
    setByte 3 (self.seq &&& 0xFF),
    setByte 4 (shiftRight32 rtpTimestamp 24 &&& 0xFF),
    setByte 5 (shiftRight32 rtpTimestamp 16 &&& 0xFF),
    setByte 6 (shiftRight32 rtpTimestamp 8 &&& 0xFF),
    setByte 7 (rtpTimestamp &&& 0xFF),
    setByte 8 (shiftRight32 self.ssrc 24 &&& 0xFF),
    setByte 9 (shiftRight32 self.ssrc 16 &&& 0xFF),
    setByte 10 (shiftRight32 self.ssrc 8 &&& 0xFF),
    setByte 11 (self.ssrc &&& 0xFF)] ++
  inlineWrites p0 p1 p2 p3 prefixLen ++
  (if dataLen > 0 then [⟨12 + prefixLen, (data.take (dataStart + dataLen)).drop dataStart⟩]
    else [])

def makePacketWithPrefixInto (memory : Memory) (self : Packetizer)
    (p0 p1 p2 p3 prefixLen : Nat) (data : Bytes) (dataStart dataLen rtpTimestamp : Nat)
    (marker withMeta : Bool) : Packet × Packetizer :=
  let buf := writeAll (memory.allocUnsafe (12 + prefixLen + dataLen))
    (self.prefixedWrites p0 p1 p2 p3 prefixLen data dataStart dataLen rtpTimestamp marker)
  (if withMeta then .descriptor buf self.seq rtpTimestamp marker else .buffer buf, self.advance)

end Packetizer

theorem byte_at_masked (value : Nat) : byteAt (value &&& 0xFF) 0 = byteAt value 0 := by
  apply byte_eq_of_to_nat
  rw [byte_at_low, byte_at_low, Nat.and_two_pow_sub_one_eq_mod _ 8]
  exact Nat.mod_mod _ _

theorem byte_at_shifted (value shift : Nat) : byteAt (value >>> shift) 0 = byteAt value shift := rfl

theorem byte_at_shift_right {value shift : Nat} (inside : shift + 8 ≤ 32) :
    byteAt (shiftRight32 value shift) 0 = byteAt value shift := by
  have split : 2 ^ 32 = 2 ^ shift * 2 ^ (32 - shift) := by
    rw [← pow_add, Nat.add_sub_cancel' (by omega)]
  have whole : 256 ∣ 2 ^ (32 - shift) := pow_dvd_pow 2 (show 8 ≤ 32 - shift by omega)
  apply byte_eq_of_to_nat
  rw [shiftRight32, byte_at_shifted, byte_at_to_nat, byte_at_to_nat, split,
    Nat.mod_mul_right_div_self, Nat.mod_mod_of_dvd _ whole]

section Serialize

variable (pkt : PacketObject) (extBlock : Option Bytes)

theorem source_writes_contents :
    contents (pkt.csrc.mapIdx fun i source =>
        writeUInt32BE (wrapUnsigned 32 source) (12 + i * 4)) =
      pkt.csrc.flatMap (fun source => encodeBE 4 (wrapUnsigned 32 source)) :=
  contents_map_idx _ (12 + · * 4) pkt.csrc

theorem source_bytes_length :
    (pkt.csrc.flatMap (fun source => encodeBE 4 (wrapUnsigned 32 source))).length =
      pkt.csrc.length * 4 := by
  have counted := encode_many_length 4 (pkt.csrc.map (wrapUnsigned 32))
  rwa [List.flatMap_map, List.length_map, Nat.mul_comm] at counted

theorem block_writes_contents (offset : Nat) :
    contents (extBlock.toList.map fun block => (⟨offset, block⟩ : Write Byte)) =
      extBlock.getD [] := by
  cases extBlock with
  | none => rfl
  | some block => exact List.append_nil block

theorem fixed_writes_length : (contents (fixedWrites pkt extBlock)).length = 12 := by
  simp [contents, fixedWrites, setByte, writeUInt16BE, writeUInt32BE]

theorem serialize_writes_adjacent : Adjacent 0 (serializeWrites pkt extBlock) := by
  apply adjacent_append.mpr
  constructor
  · apply adjacent_append.mpr
    constructor
    · apply adjacent_append.mpr
      constructor
      · simp [fixedWrites, Adjacent, setByte, writeUInt16BE, writeUInt32BE]
      · rw [fixed_writes_length]
        exact adjacent_map_idx (fun source => encode_be_length 4 _) pkt.csrc 12
    · rw [contents_append, source_writes_contents, List.length_append, fixed_writes_length,
        source_bytes_length, Nat.zero_add]
      cases extBlock with
      | none => trivial
      | some block => exact ⟨rfl, trivial⟩
  · rw [contents_append, contents_append, source_writes_contents, block_writes_contents,
      List.length_append, List.length_append, fixed_writes_length, source_bytes_length,
      Nat.zero_add]
    exact ⟨rfl, trivial⟩

theorem serialize_writes_contents :
    contents (serializeWrites pkt extBlock) =
      contents (fixedWrites pkt extBlock) ++
        pkt.csrc.flatMap (fun source => encodeBE 4 (wrapUnsigned 32 source)) ++
        extBlock.getD [] ++ pkt.payload := by
  rw [serializeWrites, contents_append, contents_append, contents_append, source_writes_contents,
    block_writes_contents]
  exact congrArg _ (List.append_nil pkt.payload)

/-- Fresh memory leaves nothing behind in what `serialize` returns. -/
theorem serialize_into_eq (memory : Memory) : serializeInto memory pkt = serialize pkt := by
  rw [serializeInto, serialize]
  cases extensionBlock pkt with
  | error problem => rfl
  | ok extBlock =>
      have whole := serialize_writes_contents pkt extBlock
      apply congrArg Except.ok
      apply (write_all_covers (serialize_writes_adjacent pkt extBlock) _).trans
      · rw [whole, contents, fixedWrites]
        simp [setByte, writeUInt16BE, writeUInt32BE]
      · rw [memory.size, whole, List.length_append, List.length_append, List.length_append,
          fixed_writes_length, source_bytes_length]

end Serialize

namespace Packetizer

variable (self : Packetizer) (payload : Bytes) (rtpTimestamp : Nat) (marker withMeta : Bool)

theorem header_length : (self.header rtpTimestamp marker).length = 12 := by
  rw [header_eq, header_bytes_length]
  rfl

theorem packet_writes_adjacent : Adjacent 0 (self.packetWrites payload rtpTimestamp marker) := by
  apply adjacent_append.mpr
  constructor
  · simp [Adjacent, setByte]
  · exact adjacent_ite

theorem packet_writes_contents :
    contents (self.packetWrites payload rtpTimestamp marker) =
      self.header rtpTimestamp marker ++ payload := by
  rw [packetWrites, contents_append, contents_ite fun none => by simpa using none]
  apply congrArg (· ++ payload)
  simp [contents, setByte, byte_at_masked, byte_at_shifted, byte_at_shift_right, header, encodeBE]

/-- The packet does not depend on what its memory held. -/
theorem make_packet_into_eq (memory : Memory) :
    makePacketInto memory self payload rtpTimestamp marker withMeta =
      self.makePacket payload rtpTimestamp marker withMeta := by
  have whole := self.packet_writes_contents payload rtpTimestamp marker
  have filled := @write_all_covers _ _ (memory.allocUnsafe (12 + payload.length))
    (self.packet_writes_adjacent payload rtpTimestamp marker)
    (by rw [memory.size, whole, List.length_append, header_length])
  rw [makePacketInto, makePacket, finish, filled, whole]

variable {p0 p1 p2 p3 prefixLen : Nat}

def inlineBytes (p0 p1 p2 p3 prefixLen : Nat) : Bytes :=
  [byteAt p0 0, byteAt p1 0, byteAt p2 0, byteAt p3 0].take prefixLen

theorem inline_writes_spec (short : prefixLen ≤ 4) :
    Adjacent 12 (inlineWrites p0 p1 p2 p3 prefixLen) ∧
      contents (inlineWrites p0 p1 p2 p3 prefixLen) = inlineBytes p0 p1 p2 p3 prefixLen := by
  match prefixLen, short with
  | 0, _ => exact ⟨trivial, rfl⟩
  | 1, _ => simp [inlineWrites, inlineBytes, Adjacent, contents, setByte, byte_at_masked]
  | 2, _ => simp [inlineWrites, inlineBytes, Adjacent, contents, setByte, byte_at_masked]
  | 3, _ => simp [inlineWrites, inlineBytes, Adjacent, contents, setByte, byte_at_masked]
  | 4, _ => simp [inlineWrites, inlineBytes, Adjacent, contents, setByte, byte_at_masked]

theorem inline_bytes_length (short : prefixLen ≤ 4) :
    (inlineBytes p0 p1 p2 p3 prefixLen).length = prefixLen := by
  rw [inlineBytes, List.length_take]
  exact min_eq_left short

variable {data : Bytes} {dataStart dataLen : Nat}

theorem prefixed_writes_adjacent (short : prefixLen ≤ 4) :
    Adjacent 0
      (self.prefixedWrites p0 p1 p2 p3 prefixLen data dataStart dataLen rtpTimestamp marker) := by
  obtain ⟨adjacent, same⟩ := @inline_writes_spec p0 p1 p2 p3 _ short
  apply adjacent_append.mpr
  constructor
  · apply adjacent_append.mpr
    constructor
    · simp [Adjacent, setByte]
    · exact adjacent
  · rw [contents_append, List.length_append, same, inline_bytes_length short, Nat.zero_add]
    exact @adjacent_ite _ (dataLen > 0) _ (12 + prefixLen) _

theorem prefixed_writes_contents (short : prefixLen ≤ 4) :
    contents
        (self.prefixedWrites p0 p1 p2 p3 prefixLen data dataStart dataLen rtpTimestamp marker) =
      self.header rtpTimestamp marker ++ inlineBytes p0 p1 p2 p3 prefixLen ++
        (data.drop dataStart).take dataLen := by
  have slice : (data.take (dataStart + dataLen)).drop dataStart =
      (data.drop dataStart).take dataLen := by
    rw [List.drop_take, Nat.add_sub_cancel_left]
  have empty (none : ¬dataLen > 0) : (data.drop dataStart).take dataLen = [] := by
    rw [Nat.le_zero.mp (not_lt.mp none), List.take_zero]
  rw [prefixedWrites, contents_append, contents_append, (inline_writes_spec short).2, slice,
    contents_ite empty]
  apply congrArg (· ++ _ ++ _)
  simp [contents, setByte, byte_at_masked, byte_at_shifted, byte_at_shift_right, header, encodeBE]

/-- A slice that lies inside the data fills its packet to the end. -/
theorem make_packet_with_prefix_into_eq (memory : Memory) (short : prefixLen ≤ 4)
    (inside : dataStart + dataLen ≤ data.length) :
    makePacketWithPrefixInto memory self p0 p1 p2 p3 prefixLen data dataStart dataLen rtpTimestamp
        marker withMeta =
      self.makePacketWithPrefix p0 p1 p2 p3 prefixLen data dataStart dataLen rtpTimestamp marker
        withMeta := by
  have whole := @prefixed_writes_contents self rtpTimestamp marker p0 p1 p2 p3 _ data dataStart
    dataLen short
  have room : dataLen ≤ data.length - dataStart := by omega
  have filled := @write_all_covers _ _ (memory.allocUnsafe (12 + prefixLen + dataLen))
    (self.prefixed_writes_adjacent rtpTimestamp marker short) (by
      rw [memory.size, whole, List.length_append, List.length_append, header_length,
        inline_bytes_length short, List.length_take, List.length_drop, min_eq_left room])
  rw [makePacketWithPrefixInto, makePacketWithPrefix, finish, filled, whole]
  rfl

def fields (self : Packetizer) (payload : Bytes) (rtpTimestamp : Nat) (marker : Bool) :
    PacketObject where
  payloadType := self.payloadType
  sequenceNumber := self.seq
  timestamp := rtpTimestamp
  ssrc := self.ssrc
  marker := marker
  padding := false
  extensions := none
  csrc := []
  payload := payload

theorem encode_be_wrap (value : Nat) : encodeBE 4 (wrapUnsigned 32 value) = encodeBE 4 value := by
  apply encode_be_congr
  zify
  rw [wrap_unsigned_cast]
  norm_num

theorem serialize_fields :
    serialize (self.fields payload rtpTimestamp marker) =
      .ok (self.header rtpTimestamp marker ++ payload) := by
  have type : wrapUnsigned 7 self.payloadType = self.payloadType :=
    wrap_unsigned_of_lt self.payload_type_range
  have number : wrapUnsigned 16 self.seq = self.seq := wrap_unsigned_of_lt self.seq_range
  rw [@serialize_layout (self.fields payload rtpTimestamp marker) none rfl
    (show 0 < 16 by decide) rfl, header_eq]
  simp only [fields, headerBytes, fixedHeader, type, number, encode_be_wrap]
  rfl

/-- Whatever their memory held, the encoders write one format, and a packet takes one number,
asked for with its description or not. -/
theorem encoders_agree (first second third : Memory) :
    (∃ bytes, serializeInto first (self.fields payload rtpTimestamp marker) = .ok bytes ∧
      (makePacketInto second self payload rtpTimestamp marker true).1 =
        .descriptor bytes self.seq rtpTimestamp marker ∧
      (makePacketInto second self payload rtpTimestamp marker false).1 = .buffer bytes) ∧
    (∀ (p0 p1 p2 p3 prefixLen : Nat) (before slice after : Bytes) (withMeta : Bool),
      prefixLen ≤ 4 →
      makePacketWithPrefixInto third self p0 p1 p2 p3 prefixLen (before ++ slice ++ after)
          before.length slice.length rtpTimestamp marker withMeta =
        makePacketInto second self (inlineBytes p0 p1 p2 p3 prefixLen ++ slice) rtpTimestamp marker
          withMeta) ∧
    ∀ withMeta, (makePacketInto second self payload rtpTimestamp marker withMeta).2 =
        { self with
          seq := (self.seq + 1) % 65536
          seq_range := Nat.mod_lt _ (by decide) } := by
  refine ⟨⟨self.header rtpTimestamp marker ++ payload, ?_, ?_, ?_⟩, ?_, fun withMeta => rfl⟩
  · rw [serialize_into_eq, serialize_fields]
  · rw [make_packet_into_eq]
    rfl
  · rw [make_packet_into_eq]
    rfl
  · intro p0 p1 p2 p3 prefixLen before slice after withMeta short
    have inside : before.length + slice.length ≤ (before ++ slice ++ after).length := by
      rw [List.length_append, List.length_append]
      exact Nat.le_add_right _ _
    have cut : ((before ++ slice ++ after).drop before.length).take slice.length = slice := by
      rw [List.append_assoc, List.drop_left, List.take_left]
    rw [make_packet_with_prefix_into_eq _ _ _ _ _ short inside, make_packet_with_prefix_eq, cut,
      make_packet_into_eq, inlineBytes]

def usedMemory : Memory where
  allocUnsafe count := List.replicate count 0xAA
  size _ := List.length_replicate

def lastPacketizer : Packetizer where
  mtu := 1200
  ssrc := 0xDEADBEEF
  payloadType := 96
  seq := 65535
  mtu_range := by decide
  payload_type_range := dynamic_type_lt
  seq_range := last_number_lt

/-- Two inline bytes and a slice from the middle. -/
theorem encoders_agree_sliced :
    makePacketWithPrefixInto usedMemory lastPacketizer 0x7C 0x85 0 0 2 ([1] ++ [2, 3] ++ [4]) 1 2
        0x100000002 true false =
      (.buffer [0x80, 0xE0, 0xFF, 0xFF, 0, 0, 0, 2, 0xDE, 0xAD, 0xBE, 0xEF, 0x7C, 0x85, 2, 3],
        { lastPacketizer with
          seq := 0
          seq_range := by decide }) := by
  have agree := (encoders_agree lastPacketizer [] 0x100000002 true usedMemory usedMemory
    usedMemory).2.1 0x7C 0x85 0 0 2 [1] [2, 3] [4] false (by decide)
  apply agree.trans
  rfl

end Packetizer

end RtpPacket.Rtp
