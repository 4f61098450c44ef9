import RtpPacket.Codec.Frames

/-!
# VP9
-/

namespace RtpPacket.Codec.Vp9

open ByteCodec Rtp Run

set_option autoImplicit false

def prefixLen (hasPid : Bool) : Nat := if hasPid then 3 else 1

/-- The payload descriptor of a piece. A chunk without a type goes out as a keyframe. -/
def descriptor (picture : PictureId) (type : Option FrameType) (isFirst isLast : Bool) :
    InlinePrefix where
  p0 :=
    (if picture.hasPid then 0x80 else 0) ||| (if type == some .delta then 0x40 else 0) |||
      (if isFirst then 0x08 else 0) ||| (if isLast then 0x04 else 0)
  p1 := picture.pidHi
  p2 := picture.pidLo
  p3 := 0

def packetizeWith (self : PictureIdPacketizer) (type : Option FrameType) (data : Bytes)
    (timestamp : Rat) (withMeta : Bool) : List Packet × PictureIdPacketizer :=
  let sent := packetizeFrame (descriptor self.picture type) (prefixLen self.picture.hasPid) data
    (usToRtp timestamp videoClockRate) withMeta self.base
  (sent.1, { base := sent.2, picture := self.picture.advance })

def packetize (self : PictureIdPacketizer) (chunk : FrameChunk) :
    Except String (List Packet × PictureIdPacketizer) := do
  validateChunk "VP9Packetizer" chunk.toChunk
  return packetizeWith self chunk.type (← chunk.frame) chunk.timestamp false

def packetizeWithMeta (self : PictureIdPacketizer) (chunk : FrameChunk) :
    Except String (List Packet × PictureIdPacketizer) := do
  validateChunk "VP9Packetizer" chunk.toChunk
  return packetizeWith self chunk.type (← chunk.frame) chunk.timestamp true

structure Descriptor where
  ok : Bool
  hdrLen : Nat
  start : Bool
  ending : Bool
  inter : Bool
  tid : Option Nat
  sid : Option Nat
  deriving DecidableEq, Repr

def readDescriptor (payload : Bytes) : Descriptor :=
  if payload.length < 1 then
    { ok := false, hdrLen := 1, start := false, ending := false, inter := false,
      tid := none, sid := none }
  else
    let desc := (payload.getD 0 0).toNat
    let inter := desc &&& 0x40 != 0
    let afterPid :=
      if desc &&& 0x80 ≠ 0 then
        if 1 < payload.length ∧ (payload.getD 1 0).toNat &&& 0x80 ≠ 0 then 3 else 2
      else 1
    let layered := desc &&& 0x20 ≠ 0 ∧ afterPid < payload.length
    let li := (payload.getD afterPid 0).toNat
    let afterLayers := if desc &&& 0x20 ≠ 0 then afterPid + 1 else afterPid
    -- Reference indices go on while their lowest bit is clear.
    let hdrLen :=
      if desc &&& 0x10 ≠ 0 ∧ inter then
        afterLayers +
          ((payload.drop afterLayers).takeWhile fun byte => byte.toNat &&& 0x01 == 0).length + 1
      else afterLayers
    { ok := hdrLen < payload.length
      hdrLen := hdrLen
      start := desc &&& 0x08 != 0
      ending := desc &&& 0x04 != 0
      inter := inter
      tid := if layered then some (li >>> 5 &&& 0x07) else none
      sid := if layered then some (li >>> 1 &&& 0x07) else none }

def frameType (frame : Bytes) : FrameType :=
  let first := (frame.headD 0).toNat
  let bitOff := if first >>> 4 &&& 3 = 3 then 5 else 4
  if frame.length > 0 ∧ first >>> 6 &&& 3 = 2 ∧ first >>> (7 - bitOff) &&& 1 = 0 ∧
      first >>> (6 - bitOff) &&& 1 = 0 then .key
  else .delta

def depacketize (self : FrameDepacketizer) (packet : ParsedPacket) :
    FrameDepacketizer × List DepacketizerEvent :=
  if !self.callbacks.checkDepacketizePayload packet 1 then (self, [])
  else
    let desc := readDescriptor packet.payload
    if !desc.ok then
      (self, self.callbacks.emitError "VP9Depacketizer: header larger than payload")
    else
      let taken := self.take desc.start (packet.payload.drop desc.hdrLen)
      if (desc.ending || packet.marker) && taken.fragments.length > 0 then
        taken.handOut frameType packet.timestamp
      else (taken, [])

theorem prefix_len_short (hasPid : Bool) : prefixLen hasPid ≤ 4 := by
  cases hasPid <;> decide

theorem descriptor_bits (picture : PictureId) (type : Option FrameType) (first last : Bool) :
    let desc := (descriptor picture type first last).p0 % 256
    (desc &&& 0x80 ≠ 0 ↔ picture.hasPid = true) ∧ desc &&& 0x20 = 0 ∧ desc &&& 0x10 = 0 ∧
      (desc &&& 0x40 != 0) = (type == some .delta) ∧ (desc &&& 0x08 != 0) = first ∧
      (desc &&& 0x04 != 0) = last := by
  simp only [descriptor]
  generalize picture.hasPid = hasPid
  generalize (type == some .delta) = inter
  revert hasPid inter first last
  decide

theorem read_descriptor (picture : PictureId) (type : Option FrameType) (first last : Bool)
    {piece : Bytes} (nonempty : piece ≠ []) :
    readDescriptor
        ((descriptor picture type first last).bytes (prefixLen picture.hasPid) ++ piece) =
      { ok := true, hdrLen := prefixLen picture.hasPid, start := first, ending := last,
        inter := type == some .delta, tid := none, sid := none } := by
  obtain ⟨pid, layers, flexible, inter, start, ending⟩ := descriptor_bits picture type first last
  obtain ⟨byte, rest, rfl⟩ := List.exists_cons_of_ne_nil nonempty
  cases present : picture.hasPid with
  | false =>
      have payload : (descriptor picture type first last).bytes (prefixLen false) ++ byte :: rest =
          byteAt (descriptor picture type first last).p0 0 :: byte :: rest := rfl
      rw [present] at pid
      rw [payload, readDescriptor]
      simp only [List.getD_cons_zero, byte_at_low, pid, layers, flexible, inter, start, ending]
      simp [prefixLen]
  | true =>
      have payload : (descriptor picture type first last).bytes (prefixLen true) ++ byte :: rest =
          byteAt (descriptor picture type first last).p0 0 :: byteAt picture.pidHi 0 ::
            byteAt picture.pidLo 0 :: byte :: rest := rfl
      have marked := picture.pid_hi_marked present
      rw [present] at pid
      rw [payload, readDescriptor]
      simp only [List.getD_cons_zero, byte_at_low, pid, layers, flexible, inter, start, ending]
      simp [prefixLen, byte_at_low, marked]

theorem run_frame (picture : PictureId) (type : Option FrameType) {mtu : Nat} (rtpTs : Nat)
    {data : Bytes}
    (mtuRange : 100 ≤ mtu) (nonempty : data ≠ []) (error : Bool) (held : List Bytes) :
    run (fun state out => depacketize state out.packet) ⟨⟨true, error⟩, held⟩
        (frameOutgoing (descriptor picture type) (prefixLen picture.hasPid) mtu rtpTs data) =
      (⟨⟨true, error⟩, []⟩, [.output ⟨data, rtpTs, frameType data⟩]) := by
  apply FrameDepacketizer.run_frame _ _ _ (prefix_len_short _) mtuRange nonempty
  intro kept first last piece some
  have length : 1 ≤ ((descriptor picture type first last).bytes (prefixLen picture.hasPid) ++
      piece).length := by
    rw [List.length_append]
    exact Nat.le_add_left_of_le (List.length_pos_iff.mpr some)
  have rest : ((descriptor picture type first last).bytes (prefixLen picture.hasPid) ++
      piece).drop (prefixLen picture.hasPid) = piece :=
    List.drop_left' (InlinePrefix.bytes_length _ (prefix_len_short _))
  simp only [depacketize, Outgoing.packet, Callbacks.checkDepacketizePayload, length, decide_true,
    Bool.and_self, Bool.not_true, Bool.false_eq_true, if_false,
    read_descriptor picture type first last
      some, rest]
  cases last <;> cases first <;> simp [FrameDepacketizer.take]

end RtpPacket.Codec.Vp9
