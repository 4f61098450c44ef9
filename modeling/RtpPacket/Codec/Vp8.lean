import RtpPacket.Codec.Frames

/-!
# VP8
-/

namespace RtpPacket.Codec.Vp8

open ByteCodec Rtp Run

set_option autoImplicit false

def prefixLen (hasPid : Bool) : Nat := if hasPid then 4 else 1

/-- The payload descriptor of a piece; the last piece has none of its own. -/
def descriptor (picture : PictureId) (isFirst _isLast : Bool) : InlinePrefix where
  p0 :=
    if isFirst then (if picture.hasPid then 0x90 else 0x10)
    else (if picture.hasPid then 0x80 else 0x00)
  p1 := 0x80
  p2 := picture.pidHi
  p3 := picture.pidLo

def packetizeWith (self : PictureIdPacketizer) (data : Bytes) (timestamp : Rat) (withMeta : Bool) :
    List Packet × PictureIdPacketizer :=
  let sent := packetizeFrame (descriptor self.picture) (prefixLen self.picture.hasPid) data
    (usToRtp timestamp videoClockRate) withMeta self.base
  (sent.1, { base := sent.2, picture := self.picture.advance })

def packetize (self : PictureIdPacketizer) (chunk : FrameChunk) :
    Except String (List Packet × PictureIdPacketizer) := do
  validateChunk "VP8Packetizer" chunk.toChunk
  return packetizeWith self (← chunk.frame) chunk.timestamp false

def packetizeWithMeta (self : PictureIdPacketizer) (chunk : FrameChunk) :
    Except String (List Packet × PictureIdPacketizer) := do
  validateChunk "VP8Packetizer" chunk.toChunk
  return packetizeWith self (← chunk.frame) chunk.timestamp true

structure Descriptor where
  ok : Bool
  hdrLen : Nat
  start : Bool
  tid : Option Nat
  keyIdx : Option Nat
  deriving DecidableEq, Repr

def readDescriptor (payload : Bytes) : Descriptor :=
  if payload.length < 1 then
    { ok := false, hdrLen := 1, start := false, tid := none, keyIdx := none }
  else
    let first := (payload.getD 0 0).toNat
    let start := first &&& 0x10 != 0
    if first &&& 0x80 ≠ 0 then
      if payload.length < 2 then
        { ok := false, hdrLen := 1, start := start, tid := none, keyIdx := none }
      else
        let ext := (payload.getD 1 0).toNat
        let pictureId :=
          if ext &&& 0x80 ≠ 0 then
            if payload.length > 2 ∧ (payload.getD 2 0).toNat &&& 0x80 ≠ 0 then 2 else 1
          else 0
        let tl0PicIdx := if ext &&& 0x40 ≠ 0 then 1 else 0
        let i := 2 + pictureId + tl0PicIdx
        -- T and K share one byte, present if either is set.
        let shared := ext &&& 0x30 ≠ 0 ∧ payload.length > i
        let b := (payload.getD i 0).toNat
        let hdrLen := if ext &&& 0x30 ≠ 0 then i + 1 else i
        { ok := hdrLen < payload.length
          hdrLen := hdrLen
          start := start
          tid := if shared ∧ ext &&& 0x20 ≠ 0 then some (b >>> 6 &&& 0x03) else none
          keyIdx := if shared ∧ ext &&& 0x10 ≠ 0 then some (b &&& 0x1F) else none }
    else
      { ok := 1 < payload.length, hdrLen := 1, start := start, tid := none, keyIdx := none }

def frameType (frame : Bytes) : FrameType :=
  if frame.length > 0 ∧ (frame.headD 0).toNat &&& 0x01 = 0 then .key else .delta

def peekKeyframe (payload : Bytes) : Bool :=
  let desc := readDescriptor payload
  if !desc.ok then false
  else if !desc.start then false
  else (payload.getD desc.hdrLen 0).toNat &&& 0x01 == 0

def depacketize (self : FrameDepacketizer) (packet : ParsedPacket) :
    FrameDepacketizer × List DepacketizerEvent :=
  if !self.callbacks.checkDepacketizePayload packet 1 then (self, [])
  else
    let desc := readDescriptor packet.payload
    if !desc.ok then
      (self, self.callbacks.emitError "VP8Depacketizer: header larger than payload")
    else
      let taken := self.take desc.start (packet.payload.drop desc.hdrLen)
      if packet.marker && taken.fragments.length > 0 then
        taken.handOut frameType packet.timestamp
      else (taken, [])

theorem prefix_len_short (hasPid : Bool) : prefixLen hasPid ≤ 4 := by
  cases hasPid <;> decide

theorem read_descriptor (picture : PictureId) (first last : Bool) {piece : Bytes}
    (nonempty : piece ≠ []) :
    readDescriptor
        ((descriptor picture first last).bytes (prefixLen picture.hasPid) ++ piece) =
      { ok := true, hdrLen := prefixLen picture.hasPid, start := first, tid := none,
        keyIdx := none } := by
  obtain ⟨byte, rest, rfl⟩ := List.exists_cons_of_ne_nil nonempty
  cases present : picture.hasPid with
  | false =>
      cases first <;>
        simp [readDescriptor, descriptor, InlinePrefix.bytes, prefixLen, present, byte_at_low]
  | true =>
      have marked := picture.pid_hi_marked present
      cases first <;>
        simp [readDescriptor, descriptor, InlinePrefix.bytes, prefixLen, present, byte_at_low,
          marked]

theorem run_frame (picture : PictureId) {mtu : Nat} (rtpTs : Nat) {data : Bytes}
    (mtuRange : 100 ≤ mtu) (nonempty : data ≠ []) (error : Bool) (held : List Bytes) :
    run (fun state out => depacketize state out.packet) ⟨⟨true, error⟩, held⟩
        (frameOutgoing (descriptor picture) (prefixLen picture.hasPid) mtu rtpTs data) =
      (⟨⟨true, error⟩, []⟩, [.output ⟨data, rtpTs, frameType data⟩]) := by
  apply FrameDepacketizer.run_frame _ _ _ (prefix_len_short _) mtuRange nonempty
  intro kept first last piece some
  have length : 1 ≤ ((descriptor picture first last).bytes (prefixLen picture.hasPid) ++
      piece).length := by
    rw [List.length_append]
    exact Nat.le_add_left_of_le (List.length_pos_iff.mpr some)
  have rest : ((descriptor picture first last).bytes (prefixLen picture.hasPid) ++
      piece).drop (prefixLen picture.hasPid) = piece :=
    List.drop_left' (InlinePrefix.bytes_length _ (prefix_len_short _))
  simp only [depacketize, Outgoing.packet, Callbacks.checkDepacketizePayload, length, decide_true,
    Bool.and_self, Bool.not_true, Bool.false_eq_true, if_false, read_descriptor picture first last
      some, rest]
  cases last <;> cases first <;> simp [FrameDepacketizer.take]

end RtpPacket.Codec.Vp8
