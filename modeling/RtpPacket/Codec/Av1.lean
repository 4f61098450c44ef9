import RtpPacket.Codec.Frames

/-!
# AV1
-/

namespace RtpPacket.Codec.Av1

open ByteCodec Rtp Run

set_option autoImplicit false

def descriptor (isKey isFirst isLast : Bool) : InlinePrefix where
  p0 :=
    0x10 ||| (if isFirst then 0 else 0x80) ||| (if isLast then 0 else 0x40) |||
      (if isFirst && isKey then 0x08 else 0)
  p1 := 0
  p2 := 0
  p3 := 0

def packetizeWith (self : Packetizer) (type : Option FrameType) (data : Bytes) (timestamp : Rat)
    (withMeta : Bool) : List Packet × Packetizer :=
  packetizeFrame (descriptor (type == some .key)) 1 data (usToRtp timestamp videoClockRate)
    withMeta self

def packetize (self : Packetizer) (chunk : FrameChunk) :
    Except String (List Packet × Packetizer) := do
  validateChunk "AV1Packetizer" chunk.toChunk
  return packetizeWith self chunk.type (← chunk.frame) chunk.timestamp false

def packetizeWithMeta (self : Packetizer) (chunk : FrameChunk) :
    Except String (List Packet × Packetizer) := do
  validateChunk "AV1Packetizer" chunk.toChunk
  return packetizeWith self chunk.type (← chunk.frame) chunk.timestamp true

structure Depacketizer extends FrameDepacketizer where
  isKey : Bool
  deriving DecidableEq, Repr

namespace Depacketizer

def new (opts : DepacketizerOptions) : Except String Depacketizer := do
  let base ← FrameDepacketizer.new "AV1Depacketizer" opts
  return { base with isKey := false }

/-- The flag of a keyframe comes with the piece that starts it. -/
def take (self : Depacketizer) (start newSequence : Bool) (data : Bytes) : Depacketizer :=
  { self.toFrameDepacketizer.take start data with
    isKey := if start then newSequence else self.isKey }

def handOut (self : Depacketizer) (timestamp : Nat) : Depacketizer × List DepacketizerEvent :=
  let handed := self.toFrameDepacketizer.handOut
    (fun _ => if self.isKey then .key else .delta) timestamp
  ({ handed.1 with isKey := false }, handed.2)

def reset (self : Depacketizer) : Depacketizer := { self with fragments := [], isKey := false }

/-- Closing leaves the flag as it is. -/
def close (self : Depacketizer) : Depacketizer :=
  { self.toFrameDepacketizer.close with isKey := self.isKey }

end Depacketizer

def depacketize (self : Depacketizer) (packet : ParsedPacket) :
    Depacketizer × List DepacketizerEvent :=
  if !self.callbacks.checkDepacketizePayload packet 1 then (self, [])
  else
    let hdr := (packet.payload.headD 0).toNat
    let continuation := hdr &&& 0x80 != 0
    let continues := hdr &&& 0x40 != 0
    let newSequence := hdr &&& 0x08 != 0
    let taken := self.take (!continuation) newSequence (packet.payload.drop 1)
    if (!continues || packet.marker) && taken.fragments.length > 0 then
      taken.handOut packet.timestamp
    else (taken, [])

theorem descriptor_bits : ∀ isKey first last : Bool,
    let hdr := (descriptor isKey first last).p0 % 256
    (hdr &&& 0x80 != 0) = !first ∧ (hdr &&& 0x40 != 0) = !last ∧
      (first = true → (hdr &&& 0x08 != 0) = isKey) := by
  decide

theorem depacketize_piece (error : Bool) (held : List Bytes) (wasKey isKey first last : Bool)
    (piece : Bytes) (rtpTs : Nat) :
    depacketize ⟨⟨⟨true, error⟩, held⟩, wasKey⟩
        (Outgoing.packet ⟨(descriptor isKey first last).bytes 1 ++ piece, rtpTs, last⟩) =
      if last then
        (Depacketizer.take ⟨⟨⟨true, error⟩, held⟩, wasKey⟩ first isKey piece).handOut rtpTs
      else (Depacketizer.take ⟨⟨⟨true, error⟩, held⟩, wasKey⟩ first isKey piece, []) := by
  obtain ⟨continuation, continues, newSequence⟩ := descriptor_bits isKey first last
  have payload : (descriptor isKey first last).bytes 1 ++ piece =
      byteAt (descriptor isKey first last).p0 0 :: piece := rfl
  rw [payload, depacketize]
  simp only [Outgoing.packet, Callbacks.checkDepacketizePayload, List.headD_cons, byte_at_low,
    continuation, continues, List.drop_succ_cons, List.drop_zero, List.length_cons]
  cases first with
  | false => cases last <;> simp [Depacketizer.take, FrameDepacketizer.take]
  | true =>
      rw [newSequence rfl]
      cases last <;> simp [Depacketizer.take, FrameDepacketizer.take]

theorem run_frame (isKey : Bool) {mtu : Nat} (rtpTs : Nat) {data : Bytes} (mtuRange : 100 ≤ mtu)
    (nonempty : data ≠ []) (error wasKey : Bool) (held : List Bytes) :
    run (fun state out => depacketize state out.packet) ⟨⟨⟨true, error⟩, held⟩, wasKey⟩
        (frameOutgoing (descriptor isKey) 1 mtu rtpTs data) =
      (⟨⟨⟨true, error⟩, []⟩, false⟩,
        [.output ⟨data, rtpTs, if isKey then .key else .delta⟩]) := by
  obtain ⟨some, pieces, whole⟩ := frame_pieces (show 1 ≤ 4 by decide) mtuRange nonempty
  have finished : run (fun state out => depacketize state out.packet)
      ⟨⟨⟨true, error⟩, held⟩, wasKey⟩
      (fragmentOutgoing (fun first last => (descriptor isKey first last).bytes 1) rtpTs true true
        (framePieces 1 mtu data)) =
      Depacketizer.handOut ⟨⟨⟨true, error⟩, framePieces 1 mtu data⟩, isKey⟩ rtpTs := by
    apply run_pieces (fun kept => ⟨⟨⟨true, error⟩, kept⟩, isKey⟩)
      (fun kept => Depacketizer.handOut ⟨⟨⟨true, error⟩, kept⟩, isKey⟩ rtpTs)
    · exact fun piece _ => depacketize_piece error held wasKey isKey true true piece rtpTs
    · exact fun piece _ => depacketize_piece error held wasKey isKey true false piece rtpTs
    · exact fun kept piece _ => depacketize_piece error kept isKey isKey false false piece rtpTs
    · exact fun kept piece _ => depacketize_piece error kept isKey isKey false true piece rtpTs
    · exact some
    · exact fun piece member => (pieces piece member).1
  rw [frameOutgoing, finished, Depacketizer.handOut, FrameDepacketizer.handOut, whole]

end RtpPacket.Codec.Av1
