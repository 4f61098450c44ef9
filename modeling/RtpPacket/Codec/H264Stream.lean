import RtpPacket.Codec.AccessUnits
import RtpPacket.Codec.H264

/-!
# H.264 streams

Access units sent by the packetizer and received in order come out whole, however
they were handed in and however their units were cut.
-/

namespace RtpPacket.Codec.H264

open ByteCodec Rtp Run

set_option autoImplicit false

/-- A unit that a stream can carry. -/
structure WellFormed (nalu : Bytes) : Prop extends Separable nalu where
  type_range : 1 ≤ naluType nalu ∧ naluType nalu ≤ 23
  forbidden_zero_bit : (nalu.headD 0).toNat &&& 0x80 = 0

/-- What the packetizer can put into a packet as it is, and rebuild from its fragments. -/
structure NalUnit (nalu : Bytes) : Prop where
  type_range : 1 ≤ naluType nalu ∧ naluType nalu ≤ 23
  forbidden_zero_bit : (nalu.headD 0).toNat &&& 0x80 = 0

theorem NalUnit.nonempty {nalu : Bytes} (unit : NalUnit nalu) : nalu ≠ [] := by
  rintro rfl
  exact absurd unit.type_range.1 (by decide)

theorem WellFormed.nalUnit {nalu : Bytes} (wellFormed : WellFormed nalu) : NalUnit nalu :=
  ⟨wellFormed.type_range, wellFormed.forbidden_zero_bit⟩

def accessUnit (chunk : Chunk) : List Bytes := chunk.nalus.getD (splitNALUs (chunk.data.getD []))

def fuIndicator (naluHeader : Nat) : Nat := (naluHeader >>> 5 &&& 0x03) <<< 5 ||| 28

def fuaDescriptor (nalu : Bytes) : Bool → Bool → Bytes :=
  fuDescriptor [fuIndicator (nalu.headD 0).toNat] (naluType nalu)

theorem split_nalus_annex_b {entries : List (Bool × Bytes)}
    (separable : ∀ entry ∈ entries, Separable entry.2) (some : entries ≠ []) :
    splitNALUs (annexB entries) = entries.map Prod.snd := by
  obtain ⟨detected, read⟩ := split_annex_b separable some
  rw [splitNALUs, if_pos detected, read]

theorem fragment_fua_sends (sender : Packetizer) (nalu : Bytes) (rtpTs : Nat)
    (last withMeta : Bool) :
    fragmentFUA sender nalu rtpTs last withMeta =
      Packetizer.sendAll withMeta
        (fragmentOutgoing (fuaDescriptor nalu) rtpTs last true (naluPieces 1 sender.mtu nalu))
        sender :=
  fragments_sends (by simp) _ 1 _ nalu rtpTs last withMeta sender

theorem packetize_access_unit {chunk : Chunk}
    (valid : validateChunk "H264Packetizer" chunk = .ok ()) (sender : Packetizer) :
    packetize sender chunk = .ok (Packetizer.sendAll false
      (unitOutgoing fuaDescriptor 1 sender.mtu (usToRtp chunk.timestamp clockRate)
        (accessUnit chunk)) sender) := by
  have sent : packetizeNalus fragmentFUA (usToRtp chunk.timestamp clockRate) false
      (accessUnit chunk) sender =
      Packetizer.sendAll false
        (unitOutgoing fuaDescriptor 1 sender.mtu (usToRtp chunk.timestamp clockRate)
          (accessUnit chunk)) sender := by
    apply packetize_nalus_sends _ rfl
    intro nalu _ _ other size last
    rw [fragment_fua_sends, size]
  rw [packetize, valid]
  change Except.ok (packetizeWith sender chunk false) = _
  rw [packetizeWith, ← accessUnit, ← sent]
  cases accessUnit chunk <;> rfl

theorem packetize_sends {chunk : Chunk} {nalus : List Bytes} (carries : Carries chunk nalus)
    (separable : ∀ nalu ∈ nalus, Separable nalu) (some : nalus ≠ []) (sender : Packetizer) :
    packetize sender chunk = .ok (Packetizer.sendAll false
      (unitOutgoing fuaDescriptor 1 sender.mtu (usToRtp chunk.timestamp clockRate) nalus)
      sender) := by
  have found : accessUnit chunk = nalus :=
    units_of_carries split_nalus_annex_b carries separable some
  rw [packetize_access_unit (validate_of_carries "H264Packetizer" carries), found]

theorem fua_bits : ∀ header < 256, header &&& 0x80 = 0 → ∀ start last : Bool,
    let indicator := fuIndicator header % 256
    let fuHeader := ((if start then 0x80 else 0) ||| (if last then 0x40 else 0) |||
      (header &&& 0x1F)) % 256
    indicator &&& 0x1F = 28 ∧ (fuHeader &&& 0x80 != 0) = start ∧ (fuHeader &&& 0x40 != 0) = last ∧
      (indicator &&& 0x60) ||| (fuHeader &&& 0x1F) = header := by
  decide +kernel

theorem receives_unit {nalu : Bytes} (unit : NalUnit nalu) :
    Receives (fun state out => depacketize state out.packet) isIDR
      "H264Depacketizer: FU-A fragment without start (start packet lost)" fuaDescriptor 1 nalu where
  single := by
    intro state timestamp marker listening
    have length : 1 ≤ nalu.length := List.length_pos_iff.mpr unit.nonempty
    simp only [depacketize, Outgoing.packet, Callbacks.checkDepacketizePayload, listening, length,
      unit.type_range, decide_true, Bool.and_self, Bool.not_true, Bool.false_eq_true,
      if_false, and_self, if_true]
  fragment := by
    intro state start last piece timestamp marker listening nonempty
    obtain ⟨type, startBit, lastBit, header⟩ := fua_bits (nalu.headD 0).toNat
      (nalu.headD 0).toNat_lt unit.forbidden_zero_bit start last
    have head : nalu.take 1 = [nalu.headD 0] := by
      obtain ⟨byte, rest, rfl⟩ := List.exists_cons_of_ne_nil unit.nonempty
      rfl
    have payload : fuaDescriptor nalu start last ++ piece =
        byteAt (fuIndicator (nalu.headD 0).toNat) 0 ::
          byteAt ((if start then 0x80 else 0) ||| (if last then 0x40 else 0) |||
            ((nalu.headD 0).toNat &&& 0x1F)) 0 :: piece := rfl
    rw [payload, head]
    simp only [depacketize, Outgoing.packet, Callbacks.checkDepacketizePayload, listening, naluType,
      List.headD_cons, List.getD_cons_succ, List.getD_cons_zero, byte_at_low, type, startBit,
      lastBit, header, byte_at_byte]
    simp

/-- A fragment that claims to be both the first and the last of its unit. -/
def WholeFragment (payload : Bytes) : Prop :=
  naluType payload = 28 ∧ (payload.getD 1 0).toNat &&& 0x80 ≠ 0 ∧
    (payload.getD 1 0).toNat &&& 0x40 ≠ 0

theorem not_whole_fragment {nalu piece : Bytes} (wellFormed : WellFormed nalu) {start last : Bool}
    (lone : (start && last) = false) : ¬WholeFragment (fuaDescriptor nalu start last ++ piece) := by
  obtain ⟨_, startBit, lastBit, _⟩ := fua_bits (nalu.headD 0).toNat
    (nalu.headD 0).toNat_lt wellFormed.forbidden_zero_bit start last
  intro whole
  obtain ⟨_, startSet, lastSet⟩ := whole
  have second : ((fuaDescriptor nalu start last ++ piece).getD 1 0).toNat =
      ((if start then 0x80 else 0) ||| (if last then 0x40 else 0) |||
        ((nalu.headD 0).toNat &&& 0x1F)) % 256 := byte_at_low _
  rw [second] at startSet lastSet
  have started : start = true := startBit ▸ bne_iff_ne.mpr startSet
  have ended : last = true := lastBit ▸ bne_iff_ne.mpr lastSet
  rw [started, ended] at lone
  cases lone

/-- Any stream of access units arrives as it was sent: numbered without a gap, in payloads
that fit, the marker on the last packet of each unit, and one chunk for each unit. -/
theorem h264_stream_round_trip (self : Packetizer) {chunks : List Chunk}
    {units : Chunk → List Bytes}
    (carries : ∀ chunk ∈ chunks, Carries chunk (units chunk))
    (some : ∀ chunk ∈ chunks, units chunk ≠ [])
    (wellFormed : ∀ chunk ∈ chunks, ∀ nalu ∈ units chunk, WellFormed nalu)
    {error : Bool} {depacketizer : NaluDepacketizer}
    (fresh : NaluDepacketizer.new "H264Depacketizer" ⟨true, error⟩ = .ok depacketizer) :
    ∃ (sent : List (List Packet)) (last : Packetizer) (received : List (List ParsedPacket)),
      packetizeAll packetize self chunks = .ok (sent, last) ∧
      sent.map (·.map fun packet => parse packet.bytes) = received.map (·.map .some) ∧
      received.flatten.map (·.sequenceNumber) =
        (List.range received.flatten.length).map (fun index => (self.seq + index) % 65536) ∧
      (∀ packets ∈ received, ∃ count,
        packets.map (·.marker) = List.replicate count false ++ [true]) ∧
      (∀ packet ∈ received.flatten,
        packet.payload.length ≤ self.mtu ∧ ¬WholeFragment packet.payload) ∧
      (run depacketize depacketizer received.flatten).2 = chunks.map fun chunk => .output
        { data := joinAnnexB (units chunk)
          timestamp := usToRtp chunk.timestamp 90000
          type :=
            if (units chunk).any (fun nalu => naluType nalu == 5) then .key else .delta } := by
  have separable (chunk : Chunk) (member : chunk ∈ chunks) (nalu : Bytes)
      (inside : nalu ∈ units chunk) : Separable nalu :=
    (wellFormed chunk member nalu inside).toSeparable
  have idle : Idle depacketizer := by
    cases fresh
    exact ⟨rfl, rfl, rfl, rfl⟩
  obtain ⟨sent, last, received, packetized, parsed, numbered, markers, shapes, handed⟩ :=
    unit_stream self units some
      (fun chunk member sender => packetize_sends (carries chunk member) (separable chunk member)
        (some chunk member) sender)
      (fun _ _ => rfl)
      (fun chunk member nalu inside => receives_unit (wellFormed chunk member nalu inside).nalUnit)
      (by decide) idle
  refine ⟨sent, last, received, packetized, parsed, numbered, markers, ?_, handed⟩
  intro packet member
  obtain ⟨chunk, chunkMember, nalu, naluMember, shape⟩ := shapes packet member
  have naluWellFormed := wellFormed chunk chunkMember nalu naluMember
  have mtuRange := self.mtu_range
  cases shape with
  | inl whole =>
      obtain ⟨fits, payload⟩ := whole
      rw [payload]
      have range := naluWellFormed.type_range
      exact ⟨fits, fun fragment => by have type := fragment.1; omega⟩
  | inr fragment =>
      obtain ⟨start, last, piece, payload, short, lone⟩ := fragment
      rw [payload]
      refine ⟨?_, not_whole_fragment naluWellFormed lone⟩
      have descriptor : (fuaDescriptor nalu start last).length = 2 := rfl
      rw [List.length_append, descriptor]
      omega

def keyframe : List Bytes := [[0x67, 0x42], 0x65 :: List.replicate 120 0x11]

def keyframeChunk : Chunk where
  data := some (annexB (keyframe.map fun nalu => (false, nalu)))
  nalus := none
  timestamp := 1000

theorem h264_stream_round_trip_keyframe :
    ∃ (sent : List (List Packet)) (last : Packetizer) (received : List (List ParsedPacket)),
      packetizeAll packetize smallPackets [keyframeChunk] = .ok (sent, last) ∧
      sent.map (·.map fun packet => parse packet.bytes) = received.map (·.map .some) ∧
      (run depacketize ⟨⟨true, false⟩, [], [], false⟩ received.flatten).2 =
        [.output ⟨joinAnnexB keyframe, usToRtp 1000 90000, .key⟩] := by
  have carries : ∀ chunk ∈ [keyframeChunk], Carries chunk keyframe := by
    intro chunk member
    rw [List.mem_singleton.mp member]
    exact .inr ⟨rfl, _, by simp, rfl⟩
  have wellFormed : ∀ chunk ∈ [keyframeChunk], ∀ nalu ∈ keyframe, WellFormed nalu := by
    intro _ _ nalu member
    have either : nalu = [0x67, 0x42] ∨ nalu = 0x65 :: List.replicate 120 0x11 := by
      simpa [keyframe] using member
    cases either with
    | inl first =>
        rw [first]
        exact ⟨⟨by decide, by decide, by decide, by decide⟩, by decide, by decide⟩
    | inr second =>
        rw [second]
        exact ⟨⟨by decide, by decide +kernel, by decide +kernel, by decide +kernel⟩,
          by decide, by decide⟩
  obtain ⟨sent, last, received, packetized, parsed, _, _, _, handed⟩ :=
    @h264_stream_round_trip smallPackets [keyframeChunk] (fun _ => keyframe) carries
      (by simp [keyframe])
      wellFormed false ⟨⟨true, false⟩, [], [], false⟩ rfl
  exact ⟨sent, last, received, packetized, parsed, handed⟩

end RtpPacket.Codec.H264
