import RtpPacket.Codec.NaluDepacketizer

/-!
# The H.265 packetizer and depacketizer

As for H.264, with a NAL header of two bytes and FU fragments of three.
-/

namespace RtpPacket.Codec.H265

open ByteCodec Rtp

set_option autoImplicit false

def clockRate : Nat := 90000

def nalIdrWRadl : Nat := 19

def nalIdrNLp : Nat := 20

def nalAP : Nat := 48

def nalFU : Nat := 49

def trySplitLengthPrefixed (buf : Bytes) : Option (List Bytes) := splitLengthPrefixed 6 buf

def splitNALUs (buf : Bytes) : List Bytes :=
  if !startsWithStartCode buf then
    match trySplitLengthPrefixed buf with
    | some lp => lp
    | none => splitAnnexB buf
  else splitAnnexB buf

def fragmentFU (self : Packetizer) (nalu : Bytes) (rtpTs : Nat) (isLastNalu withMeta : Bool) :
    List Packet × Packetizer :=
  if nalu.length < 2 then ([], self)
  else
    let origHi := (nalu.getD 0 0).toNat
    let origLo := (nalu.getD 1 0).toNat
    let origType := origHi >>> 1 &&& 0x3F
    let fuHdrHi := (origHi &&& 0x81) ||| nalFU <<< 1
    fragments [fuHdrHi, origLo] (origType &&& 0x3F) 2 (self.mtu - 3) nalu rtpTs isLastNalu
      withMeta self

def packetizeWith (self : Packetizer) (chunk : Chunk) (withMeta : Bool) :
    List Packet × Packetizer :=
  let nalus := chunk.nalus.getD (splitNALUs (chunk.data.getD []))
  if nalus.isEmpty then ([], self)
  else packetizeNalus fragmentFU (usToRtp chunk.timestamp clockRate) withMeta nalus self

def packetize (self : Packetizer) (chunk : Chunk) : Except String (List Packet × Packetizer) := do
  validateChunk "H265Packetizer" chunk
  return packetizeWith self chunk false

def packetizeWithMeta (self : Packetizer) (chunk : Chunk) :
    Except String (List Packet × Packetizer) := do
  validateChunk "H265Packetizer" chunk
  return packetizeWith self chunk true

/-- One aggregation packet; an absent marker counts as set. -/
def packetizeAP (self : Packetizer) (nalus : List Bytes) (timestampUs : Rat)
    (marker : Option Bool) : Except String (Packet × Packetizer) :=
  match nalus with
  | [] => .error "H265Packetizer.packetizeAP: nalus array required"
  | first :: _ =>
      let apHdrHi := nalAP <<< 1 ||| ((first.getD 0 0).toNat &&& 0x01)
      let apHdrLo := (first.getD 1 0).toNat
      -- The store of a length that does not fit throws.
      match nalus.find? (fun nalu => 0xFFFF < nalu.length) with
      | some long => .error (s!"The value of \"value\" is out of range. " ++
          s!"It must be >= 0 and <= 65535. Received {long.length}")
      | none =>
          let payload := byteAt apHdrHi 0 :: byteAt apHdrLo 0 ::
            nalus.flatMap (fun nalu => encodeBE 2 nalu.length ++ nalu)
          .ok (self.makePacket payload (usToRtp timestampUs clockRate) (marker.getD true) false)

def naluType (nalu : Bytes) : Nat := (nalu.headD 0).toNat >>> 1 &&& 0x3F

def isIDRType (type : Nat) : Bool := type == nalIdrWRadl || type == nalIdrNLp

/-- A unit too short for a header is no keyframe. -/
def isIDR (nalu : Bytes) : Bool := 2 ≤ nalu.length && isIDRType (naluType nalu)

def peekKeyframe (payload : Bytes) : Bool :=
  if payload.length < 2 then false
  else
    let type := naluType payload
    if type < nalAP then isIDRType type
    else if type = nalAP then
      NaluDepacketizer.peekAggregated (fun size rest => 2 ≤ size && isIDRType (naluType rest))
        (payload.drop 2)
    else if type = nalFU then
      if payload.length < 3 then false
      else
        let fuByte := (payload.getD 2 0).toNat
        let startBit := fuByte &&& 0x80 != 0
        if !startBit then false else isIDRType (fuByte &&& 0x3F)
    else false

def depacketize (self : NaluDepacketizer) (packet : ParsedPacket) :
    NaluDepacketizer × List DepacketizerEvent :=
  if !self.callbacks.checkDepacketizePayload packet 2 then (self, [])
  else
    let payload := packet.payload
    let type := naluType payload
    if type = nalAP then
      self.takeAggregate isIDR "H265Depacketizer: AP truncated NALU" (payload.drop 2)
        packet.timestamp packet.marker
    else if type = nalFU then
      if payload.length < 3 then
        (self, self.callbacks.emitError "H265Depacketizer: FU header truncated")
      else
        let fuByte := (payload.getD 2 0).toNat
        let fuHdrHi := ((payload.getD 0 0).toNat &&& 0x81) ||| ((fuByte &&& 0x3F) <<< 1)
        let fuHdrLo := (payload.getD 1 0).toNat
        self.takeFragment isIDR "H265Depacketizer: FU fragment without start (start packet lost)"
          (fuByte &&& 0x80 != 0) (fuByte &&& 0x40 != 0) [byteAt fuHdrHi 0, byteAt fuHdrLo 0]
          (payload.drop 3) packet.timestamp packet.marker
    else if type < nalAP then (self.collect isIDR payload).finish packet.timestamp packet.marker
    else (self, self.callbacks.emitError s!"H265Depacketizer: unsupported NAL type {type}")

end RtpPacket.Codec.H265
