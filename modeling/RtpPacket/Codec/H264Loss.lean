import RtpPacket.Codec.H264Stream
import RtpPacket.Codec.UnitLoss

/-!
# H.264 with losses

The depacketizer looks at neither sequence numbers nor timestamps. Units that wait for
a lost marker are handed out with the next access unit, and fragments go on with
whatever fragment comes next. Where no packet meets such leftovers, what is handed out
are units of one access unit, byte for byte.
-/

namespace RtpPacket.Codec.H264

open ByteCodec Rtp Run

set_option autoImplicit false

def continuation (payload : Bytes) : Bool :=
  naluType payload == 28 && (payload.getD 1 0).toNat &&& 0x80 == 0

theorem continuation_fragment {nalu : Bytes} (unit : NalUnit nalu) (last : Bool) (piece : Bytes) :
    continuation (fuaDescriptor nalu false last ++ piece) = true := by
  obtain ⟨type, startBit, _⟩ := fua_bits (nalu.headD 0).toNat (nalu.headD 0).toNat_lt
    unit.forbidden_zero_bit false last
  have first : naluType (fuaDescriptor nalu false last ++ piece) =
      fuIndicator (nalu.headD 0).toNat % 256 &&& 0x1F :=
    congrArg (· &&& 0x1F) (byte_at_low _)
  have second : ((fuaDescriptor nalu false last ++ piece).getD 1 0).toNat =
      ((if false = true then 0x80 else 0) ||| (if last then 0x40 else 0) |||
        ((nalu.headD 0).toNat &&& 0x1F)) % 256 := byte_at_low _
  rw [continuation, first, type, second]
  simpa using startBit

/-- A chunk of nothing but units of the access unit whose timestamp it has. -/
def WholeUnits (chunks : List Chunk) (output : OutputChunk) : Prop :=
  ∃ chunk ∈ chunks, output.timestamp = usToRtp chunk.timestamp clockRate ∧
    ∃ nalus : List Bytes, (∀ nalu ∈ nalus, nalu ∈ accessUnit chunk) ∧
      output.data = joinAnnexB nalus

/-- Whatever is lost, chunks hold whole units of their own access unit, when every packet
delivered meets no units of another one and goes on with no fragments but those sent
right before it. -/
theorem h264_loss_keeps_units (self : Packetizer) {chunks : List Chunk}
    (units : ∀ chunk ∈ chunks, ∀ nalu ∈ accessUnit chunk, NalUnit nalu)
    (distinct : (chunks.map fun chunk => usToRtp chunk.timestamp clockRate).Nodup)
    {received : List (ParsedPacket × Nat)}
    (survivors : Survivors packetize self chunks received)
    {error : Bool} {depacketizer : NaluDepacketizer}
    (fresh : NaluDepacketizer.new "H264Depacketizer" ⟨true, error⟩ = .ok depacketizer)
    (continues : Always (deliver depacketize) (Continues continuation) ⟨depacketizer, none⟩
      received)
    {output : OutputChunk}
    (handed : .output output ∈ (run depacketize depacketizer (received.map Prod.fst)).2) :
    WholeUnits chunks output := by
  have valid (chunk : Chunk) (member : chunk ∈ chunks) :
      validateChunk "H264Packetizer" chunk = .ok () := by
    obtain ⟨_, _, _, ran, _⟩ := survivors
    obtain ⟨sender, sent, accepted⟩ := packetize_all_accepts ran member
    rw [packetize] at accepted
    cases checked : validateChunk "H264Packetizer" chunk with
    | ok _ => rfl
    | error message =>
        rw [checked] at accepted
        cases accepted
  have idle : Idle depacketizer := by
    cases fresh
    exact ⟨rfl, rfl, rfl, rfl⟩
  obtain ⟨described, sublist⟩ := survivors_staged self
    (fun chunk member sender => packetize_access_unit (valid chunk member) sender) (by decide)
  let groups := chunks.map fun chunk => (usToRtp chunk.timestamp clockRate, accessUnit chunk)
  have staged : Staged fuaDescriptor 1 (streamStages fuaDescriptor 1 self.mtu groups) :=
    stream_stages_staged (by decide) self.mtu_range.1 (by rwa [List.map_map])
  have belongs (stage : Stage) (member : stage ∈ streamStages fuaDescriptor 1 self.mtu groups) :
      ∃ chunk ∈ chunks, stage.out.timestamp = usToRtp chunk.timestamp clockRate ∧
        stage.units <+: accessUnit chunk ∧ stage.nalu ∈ accessUnit chunk := by
    obtain ⟨group, groupMember, facts⟩ := stream_stages_member member
    obtain ⟨chunk, chunkMember, rfl⟩ := List.mem_map.mp groupMember
    exact ⟨chunk, chunkMember, facts⟩
  have unit (stage : Stage) (member : stage ∈ streamStages fuaDescriptor 1 self.mtu groups) :
      NalUnit stage.nalu := by
    obtain ⟨chunk, chunkMember, _, _, inside⟩ := belongs stage member
    exact units chunk chunkMember stage.nalu inside
  have continuing (stage : Stage)
      (member : stage ∈ streamStages fuaDescriptor 1 self.mtu groups) (fragment : Fragment)
      (present : fragment ∈ stage.fragment) (goesOn : fragment.start = false) :
      continuation stage.out.payload = true := by
    rw [(staged.sound stage member).payload fragment present, goesOn]
    exact continuation_fragment (unit stage member) fragment.last fragment.piece
  obtain ⟨stage, member, time, nalus, some, data⟩ := run_lossy staged (fun _ _ => rfl)
    (fun stage member => receives_unit (unit stage member)) continuing described
    ((sublist received).mp survivors) idle continues handed
  obtain ⟨chunk, chunkMember, timestamp, behind, _⟩ := belongs stage member
  refine ⟨chunk, chunkMember, time.trans timestamp, nalus, ?_, data⟩
  intro nalu inside
  exact behind.subset (some.subset inside)

theorem survivors_listed (self : Packetizer) {chunks : List Chunk}
    (listed : ∀ chunk ∈ chunks, chunk.nalus.isSome = true) {received : List (ParsedPacket × Nat)}
    (some : received.Sublist (sentPackets packetize self chunks).zipIdx) :
    Survivors packetize self chunks received := by
  have valid (chunk : Chunk) (member : chunk ∈ chunks) :
      validateChunk "H264Packetizer" chunk = .ok () := by
    obtain ⟨nalus, present⟩ := Option.isSome_iff_exists.mp (listed chunk member)
    rw [validateChunk, present]
    simp
  exact ((survivors_staged self (fun chunk member sender =>
    packetize_access_unit (valid chunk member) sender) (by decide)).2 received).mpr some

/-- The keyframe without its parameter set: the fragments that follow come out whole. -/
def lossyKeyframe : List Chunk := [{ data := none, nalus := some keyframe, timestamp := 1000 }]

theorem h264_loss_keeps_keyframe :
    WholeUnits lossyKeyframe ⟨joinAnnexB (keyframe.drop 1), 90, .key⟩ := by
  have units : ∀ chunk ∈ lossyKeyframe, ∀ nalu ∈ accessUnit chunk, NalUnit nalu := by
    intro chunk member nalu inside
    rw [List.mem_singleton.mp member] at inside
    have either : nalu = [0x67, 0x42] ∨ nalu = 0x65 :: List.replicate 120 0x11 := by
      simpa [accessUnit, keyframe] using inside
    cases either with
    | inl first =>
        rw [first]
        exact ⟨by decide, by decide⟩
    | inr second =>
        rw [second]
        exact ⟨by decide, by decide⟩
  exact @h264_loss_keeps_units smallPackets lossyKeyframe units (by decide +kernel)
    ((sentPackets packetize smallPackets lossyKeyframe).zipIdx.drop 1)
    (survivors_listed smallPackets (by decide) (List.drop_sublist 1 _)) false _ rfl
    (by decide +kernel) _ (by decide +kernel)

/-- A run with losses that hands out more than units of one access unit. -/
structure Corrupts (chunks : List Chunk) (received : List (ParsedPacket × Nat))
    (output : OutputChunk) : Prop where
  distinct : (chunks.map fun chunk => usToRtp chunk.timestamp clockRate).Nodup
  survivors : Survivors packetize smallPackets chunks received
  handed : .output output ∈
    (run depacketize ⟨⟨true, false⟩, [], [], false⟩ (received.map Prod.fst)).2
  corrupt : ¬ WholeUnits chunks output

def twoAccessUnits : List Chunk :=
  [{ data := none, nalus := some [[0x67, 0x42], [0x68, 0x01]], timestamp := 0 },
    { data := none, nalus := some [[0x41, 0x07]], timestamp := 1000 }]

def threeFragments : List Chunk :=
  [{ data := none
     nalus := some [0x41 :: (List.replicate 98 1 ++ List.replicate 98 2 ++ [3])]
     timestamp := 0 }]

theorem join_one_unit {nalu : Bytes} {nalus : List Bytes}
    (only : ∀ other ∈ nalus, other ∈ [nalu]) :
    joinAnnexB nalus = [] ∨ [0, 0, 0, 1] ++ nalu <+: joinAnnexB nalus := by
  cases nalus with
  | nil => exact .inl rfl
  | cons first rest =>
      rw [← List.mem_singleton.mp (only first List.mem_cons_self)]
      exact .inr (List.prefix_append _ _)

/-- Without the marker of the first access unit its unit goes out with the second one;
without its middle fragment a unit goes out cut short. -/
theorem lost_packet_corrupts :
    Corrupts twoAccessUnits
        ((sentPackets packetize smallPackets twoAccessUnits).zipIdx.eraseIdx 1)
        ⟨joinAnnexB [[0x67, 0x42], [0x41, 0x07]], 90, .delta⟩ ∧
      Corrupts threeFragments
        ((sentPackets packetize smallPackets threeFragments).zipIdx.eraseIdx 1)
        ⟨joinAnnexB [0x41 :: (List.replicate 98 1 ++ [3])], 0, .delta⟩ := by
  constructor
  · refine ⟨by decide +kernel, survivors_listed _ (by decide) (List.eraseIdx_sublist _ 1),
      by decide +kernel, ?_⟩
    rintro ⟨chunk, member, time, nalus, inside, data⟩
    have second : accessUnit chunk = [[0x41, 0x07]] := by
      cases List.mem_cons.mp member with
      | inl first =>
          rw [first] at time
          exact absurd time (by decide +kernel)
      | inr later =>
          rw [List.mem_singleton.mp later]
          rfl
    rw [second] at inside
    have shape := join_one_unit inside
    rw [← data] at shape
    exact absurd shape (by decide)
  · refine ⟨by decide +kernel, survivors_listed _ (by decide) (List.eraseIdx_sublist _ 1),
      by decide +kernel, ?_⟩
    rintro ⟨chunk, member, time, nalus, inside, data⟩
    rw [List.mem_singleton.mp member] at inside
    have shape := join_one_unit inside
    rw [← data] at shape
    exact absurd shape (by decide +kernel)

end RtpPacket.Codec.H264
