import RtpPacket.Codec.NaluDepacketizer

/-!
# The H.264 packetizer and depacketizer

Access units are split into NAL units, whatever their framing, and every unit
goes into one packet or into FU-A fragments.
-/

namespace RtpPacket.Codec.H264

open ByteCodec Rtp

set_option autoImplicit false

def clockRate : Nat := 90000

def trydSplitAVCC (buf : Bytes) : Option (List Bytes) := splitLengthPrefixed 5 buf

def splitNALUs (buf : Bytes) : List Bytes :=
  if startsWithStartCode buf then splitAnnexB buf
  else
    match trydSplitAVCC buf with
    | some avcc => avcc
    | none => splitAnnexB buf

def fragmentFUA (self : Packetizer) (nalu : Bytes) (rtpTs : Nat) (isLastNalu withMeta : Bool) :
    List Packet × Packetizer :=
  let naluHeader := (nalu.headD 0).toNat
  let nri := naluHeader >>> 5 &&& 0x03
  let naluType := naluHeader &&& 0x1F
  let fuIndicator := nri <<< 5 ||| 28
  fragments [fuIndicator] naluType 1 (self.mtu - 2) nalu rtpTs isLastNalu withMeta self

def packetizeWith (self : Packetizer) (chunk : Chunk) (withMeta : Bool) :
    List Packet × Packetizer :=
  let nalus := chunk.nalus.getD (splitNALUs (chunk.data.getD []))
  if nalus.isEmpty then ([], self)
  else packetizeNalus fragmentFUA (usToRtp chunk.timestamp clockRate) withMeta nalus self

def packetize (self : Packetizer) (chunk : Chunk) : Except String (List Packet × Packetizer) := do
  validateChunk "H264Packetizer" chunk
  return packetizeWith self chunk false

def packetizeWithMeta (self : Packetizer) (chunk : Chunk) :
    Except String (List Packet × Packetizer) := do
  validateChunk "H264Packetizer" chunk
  return packetizeWith self chunk true

/-- The type of a unit from its first byte; one without a byte has none. -/
def naluType (nalu : Bytes) : Nat := (nalu.headD 0).toNat &&& 0x1F

def isIDR (nalu : Bytes) : Bool := naluType nalu == 5

def peekKeyframe (payload : Bytes) : Bool :=
  if payload.length < 1 then false
  else
    let type := naluType payload
    if 1 ≤ type ∧ type ≤ 23 then type == 5
    else if type = 24 then
      NaluDepacketizer.peekAggregated (fun _ rest => naluType rest == 5) (payload.drop 1)
    else if type = 28 then
      if payload.length < 2 then false
      else
        let fuHeader := (payload.getD 1 0).toNat
        let startBit := fuHeader &&& 0x80 != 0
        if !startBit then false else fuHeader &&& 0x1F == 5
    else false

def depacketize (self : NaluDepacketizer) (packet : ParsedPacket) :
    NaluDepacketizer × List DepacketizerEvent :=
  if !self.callbacks.checkDepacketizePayload packet 1 then (self, [])
  else
    let payload := packet.payload
    let type := naluType payload
    if 1 ≤ type ∧ type ≤ 23 then (self.collect isIDR payload).finish packet.timestamp packet.marker
    else if type = 24 then
      self.takeAggregate isIDR "H264Depacketizer: STAP-A truncated NALU" (payload.drop 1)
        packet.timestamp packet.marker
    else if type = 28 then
      if payload.length < 2 then
        (self, self.callbacks.emitError "H264Depacketizer: FU-A header truncated")
      else
        let fuHeader := (payload.getD 1 0).toNat
        let header := ((payload.headD 0).toNat &&& 0x60) ||| (fuHeader &&& 0x1F)
        self.takeFragment isIDR
          "H264Depacketizer: FU-A fragment without start (start packet lost)"
          (fuHeader &&& 0x80 != 0) (fuHeader &&& 0x40 != 0) [byteAt header 0] (payload.drop 2)
          packet.timestamp packet.marker
    else (self, self.callbacks.emitError s!"H264Depacketizer: unsupported NAL type {type}")

end RtpPacket.Codec.H264
