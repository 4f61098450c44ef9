import RtpPacket.Codec.AacStream
import RtpPacket.Codec.FrameStreams
import RtpPacket.Codec.H264Stream
import RtpPacket.Codec.H265Stream
import RtpPacket.Receive.Reception

/-!
# Frames behind the jitter buffer

A network that delays, repeats and reorders packets leaves a stream as it was, as long as
nothing is reported lost: what the depacketizer hands out are the first frames of the stream,
as many as the packets that were played make up.
-/

namespace RtpPacket.Codec

open ByteCodec Rtp Run Receive

set_option autoImplicit false

section Reassembling

variable {Sender State Parameters Frame : Type}

theorem describe_all_append (describe : Parameters → Frame → List Outgoing)
    (next : Parameters → Frame → Parameters) (first second : List Frame)
    (parameters : Parameters) :
    describeAll describe next parameters (first ++ second) =
      describeAll describe next parameters first ++
        describeAll describe next (first.foldl next parameters) second := by
  induction first generalizing parameters with
  | nil => rfl
  | cons frame rest ih => rw [List.cons_append, describeAll, describeAll, ih]; rfl

theorem run_described {State : Type}
    {receive : State → Outgoing → State × List DepacketizerEvent} {Inv : State → Prop}
    {describe : Parameters → Frame → List Outgoing} {next : Parameters → Frame → Parameters}
    {Known : Parameters → Prop} {event : Frame → DepacketizerEvent} {frames : List Frame}
    (keeps : ∀ current frame, Known current → Known (next current frame))
    (handsOut : ∀ current, Known current → ∀ frame ∈ frames, ∀ state, Inv state →
      ∃ after, Inv after ∧ run receive state (describe current frame) = (after, [event frame]))
    {current : Parameters} (known : Known current) {state : State} (ready : Inv state) :
    (run receive state (describeAll describe next current frames).flatten).2 =
      frames.map event := by
  induction frames generalizing current state with
  | nil => rfl
  | cons frame rest ih =>
      obtain ⟨after, kept, here⟩ := handsOut current known frame List.mem_cons_self state ready
      have later := ih (fun other otherKnown frame member => handsOut other otherKnown frame
        (List.mem_cons_of_mem _ member)) (keeps current frame known) kept
      rw [describeAll, List.flatten_cons, run_append, here, later]
      rfl

/-- A codec that sends each frame in packets of its own and hands it out again. -/
structure Reassembles (packetize : Sender → Frame → Except String (List Packet × Sender))
    (base : Sender → Packetizer) (parameters : Sender → Parameters)
    (describe : Parameters → Frame → List Outgoing) (next : Parameters → Frame → Parameters)
    (depacketize : State → ParsedPacket → State × List DepacketizerEvent)
    (Known : Parameters → Prop) (Inv : State → Prop) (event : Frame → DepacketizerEvent)
    (frames : List Frame) : Prop where
  timestamps : ∀ current frame, ∀ out ∈ describe current frame, out.timestamp < 2 ^ 32
  sends : ∀ frame ∈ frames, ∀ self, ∃ packets after,
    Sends packetize base parameters describe next self frame packets after
  reads : ∀ state packet, depacketize state packet = depacketize state packet.outgoing.packet
  keeps : ∀ current frame, Known current → Known (next current frame)
  handsOut : ∀ current, Known current → ∀ frame ∈ frames, ∀ state, Inv state →
    ∃ after, Inv after ∧
      run (fun state out => depacketize state out.packet) state (describe current frame) =
        (after, [event frame])

def handedOut (depacketize : State → ParsedPacket → State × List DepacketizerEvent) (state : State)
    {seq : Nat} {sent : List ParsedPacket} (reception : Reception seq sent) :
    List DepacketizerEvent :=
  (run depacketize state (reception.played.map Prod.fst)).2

/-- What is made of the packets of some frames: of any packets that come, some of those sent
in the order sent; without a loss, the frames whose packets have all been played and at most
one that is under way; and all frames when all packets have come. -/
structure Plays (packetize : Sender → Frame → Except String (List Packet × Sender))
    (depacketize : State → ParsedPacket → State × List DepacketizerEvent)
    (event : Frame → DepacketizerEvent) (frames : List Frame) (sender : Sender) (state : State)
    {seq : Nat} (reception : Reception seq (sentPackets packetize sender frames)) : Prop where
  survivors : Survivors packetize sender frames reception.played
  first_frames : reception.Unbroken → ∃ count ≤ frames.length,
    handedOut depacketize state reception = (frames.take count).map event ∧
      ∀ some ≤ frames.length,
        ((sentPackets packetize sender (frames.take some)).length ≤ reception.played.length →
          some ≤ count) ∧
        (reception.played.length ≤ (sentPackets packetize sender (frames.take some)).length →
          count ≤ some)
  all_frames : reception.Unbroken → reception.Complete →
    handedOut depacketize state reception = frames.map event

namespace Reassembles

variable {packetize : Sender → Frame → Except String (List Packet × Sender)}
  {base : Sender → Packetizer} {parameters : Sender → Parameters}
  {describe : Parameters → Frame → List Outgoing} {next : Parameters → Frame → Parameters}
  {depacketize : State → ParsedPacket → State × List DepacketizerEvent}
  {Known : Parameters → Prop} {Inv : State → Prop} {event : Frame → DepacketizerEvent}
  {frames : List Frame}

theorem of_subset
    (codec : Reassembles packetize base parameters describe next depacketize Known Inv event
      frames)
    {some : List Frame} (subset : some ⊆ frames) :
    Reassembles packetize base parameters describe next depacketize Known Inv event some where
  timestamps := codec.timestamps
  sends frame member := codec.sends frame (subset member)
  reads := codec.reads
  keeps := codec.keeps
  handsOut current known frame member := codec.handsOut current known frame (subset member)

theorem described
    (codec : Reassembles packetize base parameters describe next depacketize Known Inv event
      frames)
    (self : Sender) :
    (sentPackets packetize self frames).map (·.outgoing) =
      (describeAll describe next (parameters self) frames).flatten :=
  (survivors_iff codec.timestamps codec.sends self).1

theorem consecutive
    (codec : Reassembles packetize base parameters describe next depacketize Known Inv event
      frames)
    (self : Sender) : Consecutive (base self).seq (sentPackets packetize self frames) :=
  sent_packets_numbered codec.timestamps codec.sends self

theorem first_packets
    (codec : Reassembles packetize base parameters describe next depacketize Known Inv event
      frames)
    (self : Sender) (some : Nat) :
    ((sentPackets packetize self frames).map (·.outgoing)).take
        (sentPackets packetize self (frames.take some)).length =
      (sentPackets packetize self (frames.take some)).map (·.outgoing) := by
  have front := (codec.of_subset (List.take_subset some frames)).described self
  have length := congrArg List.length front
  rw [List.length_map] at length
  have split := describe_all_append describe next (frames.take some) (frames.drop some)
    (parameters self)
  rw [List.take_append_drop] at split
  rw [front, length, codec.described self, split, List.flatten_append]
  exact List.take_left

theorem hands_out_frames
    (codec : Reassembles packetize base parameters describe next depacketize Known Inv event
      frames)
    {self : Sender} (known : Known (parameters self)) {state : State} (ready : Inv state) :
    (run (fun state out => depacketize state out.packet) state
      ((sentPackets packetize self frames).map (·.outgoing))).2 = frames.map event := by
  rw [codec.described self]
  exact run_described codec.keeps codec.handsOut known ready

theorem run_take_grows {receive : State → Outgoing → State × List DepacketizerEvent}
    (state : State) (packets : List Outgoing) {fewer more : Nat} (le : fewer ≤ more) :
    (run receive state (packets.take fewer)).2 <+: (run receive state (packets.take more)).2 := by
  have split : packets.take more = packets.take fewer ++ (packets.take more).drop fewer := by
    conv_lhs => rw [← List.take_append_drop fewer (packets.take more)]
    rw [List.take_take, Nat.min_eq_left le]
  rw [split, run_append]
  exact List.prefix_append _ _

theorem first_frames
    (codec : Reassembles packetize base parameters describe next depacketize Known Inv event
      frames)
    {self : Sender} (known : Known (parameters self)) {state : State} (ready : Inv state)
    (heard : Nat) :
    ∃ count ≤ frames.length,
      (run depacketize state ((sentPackets packetize self frames).take heard)).2 =
        (frames.take count).map event ∧
      ∀ some ≤ frames.length,
        ((sentPackets packetize self (frames.take some)).length ≤ heard → some ≤ count) ∧
        (heard ≤ (sentPackets packetize self (frames.take some)).length → count ≤ some) := by
  have outputs (some : Nat) : (run (fun state out => depacketize state out.packet) state
      (((sentPackets packetize self frames).map (·.outgoing)).take
        (sentPackets packetize self (frames.take some)).length)).2 =
      (frames.take some).map event := by
    rw [codec.first_packets self some]
    exact (codec.of_subset (List.take_subset some frames)).hands_out_frames known ready
  rw [run_received codec.reads, List.map_take]
  have grows {fewer more : Nat} (le : fewer ≤ more) :=
    @run_take_grows State (fun state out => depacketize state out.packet) state
      ((sentPackets packetize self frames).map (·.outgoing)) fewer more le
  have whole := grows (Nat.le_max_left heard
    ((sentPackets packetize self frames).map (·.outgoing)).length)
  rw [List.take_of_length_le (Nat.le_max_right _ _), codec.hands_out_frames known ready] at whole
  have few := whole.length_le
  rw [List.length_map] at few
  refine ⟨_, few, ?_, fun some within => ⟨fun le => ?_, fun le => ?_⟩⟩
  · rw [List.map_take]
    exact List.prefix_iff_eq_take.mp whole
  · have fewer := (grows le).length_le
    rwa [outputs some, List.length_map, List.length_take_of_le within] at fewer
  · have more := (grows le).length_le
    rwa [outputs some, List.length_map, List.length_take_of_le within] at more

theorem plays
    (codec : Reassembles packetize base parameters describe next depacketize Known Inv event
      frames)
    {self : Sender} (known : Known (parameters self)) {state : State} (ready : Inv state)
    (reception : Reception (base self).seq (sentPackets packetize self frames)) :
    Plays packetize depacketize event frames self state reception where
  survivors := ((survivors_iff codec.timestamps codec.sends self).2 _).mpr
    (reception.played_sublist (codec.consecutive self))
  first_frames unbroken := by
    rw [handedOut, Reception.packets_first (codec.consecutive self) unbroken]
    exact codec.first_frames known ready _
  all_frames unbroken complete := by
    rw [handedOut, Reception.packets_all (codec.consecutive self) unbroken complete,
      run_received codec.reads]
    exact codec.hands_out_frames known ready

end Reassembles

end Reassembling

section FrameCodec

variable {Sender State Picture : Type} {base : Sender → Packetizer} {picture : Sender → Picture}
  {next : Picture → Picture} {descriptor : Picture → FrameChunk → Bool → Bool → InlinePrefix}
  {prefixLen : Picture → Nat}
  {packetize : Sender → FrameChunk → Except String (List Packet × Sender)}
  {depacketize : State → ParsedPacket → State × List DepacketizerEvent}
  {frameType : FrameChunk → FrameType} {chunks : List FrameChunk} {data : FrameChunk → Bytes}

theorem frame_reassembles {Inv : State → Prop}
    (packetizes : ∀ chunk ∈ chunks, ∀ self, ∃ packets after,
      packetize self chunk = .ok (packets, after) ∧
        (packets, base after) = packetizeFrame (descriptor (picture self) chunk)
          (prefixLen (picture self)) (data chunk) (usToRtp chunk.timestamp 90000) false
          (base self) ∧
        picture after = next (picture self))
    (reads : ∀ state packet, depacketize state packet = depacketize state packet.outgoing.packet)
    (handsOut : ∀ current mtu, 100 ≤ mtu → ∀ chunk ∈ chunks, ∀ state, Inv state →
      ∃ after, Inv after ∧
        run (fun state out => depacketize state out.packet) state
          (frameOutgoing (descriptor current chunk) (prefixLen current) mtu
            (usToRtp chunk.timestamp 90000) (data chunk)) =
          (after, [.output ⟨data chunk, usToRtp chunk.timestamp 90000, frameType chunk⟩])) :
    Reassembles packetize base
      (fun sender => ((⟨(base sender).mtu, (base sender).mtu_range.1⟩, picture sender) :
        FrameParameters Picture))
      (describeFrame descriptor prefixLen data) (fun current _ => Prod.map id next current)
      depacketize (fun _ => True) Inv
      (fun chunk => .output ⟨data chunk, usToRtp chunk.timestamp 90000, frameType chunk⟩)
      chunks where
  timestamps current chunk out member := by
    rw [(fragment_outgoing_member member).1]
    exact Word.wrap_unsigned_lt 32 _
  sends chunk member before := by
    obtain ⟨packets, after, packetized, cut, kept⟩ := packetizes chunk member before
    rw [packetize_frame_sends] at cut
    refine ⟨packets, after, packetized, cut, Prod.ext (Subtype.ext ?_) kept⟩
    exact (congrArg Packetizer.mtu (congrArg Prod.snd cut)).trans (Packetizer.send_all_mtu _ _ _)
  reads := reads
  keeps _ _ _ := trivial
  handsOut current _ chunk member := handsOut current.2 current.1 current.1.2 chunk member

end FrameCodec

section Codecs

variable {chunks : List FrameChunk} {data : FrameChunk → Bytes}

theorem vp8_reassembles (carries : ∀ chunk ∈ chunks, chunk.data = some (data chunk))
    (nonempty : ∀ chunk ∈ chunks, data chunk ≠ []) (error : Bool) :
    Reassembles Vp8.packetize (·.base)
      (fun sender => ((⟨sender.base.mtu, sender.base.mtu_range.1⟩, sender.picture) :
        FrameParameters PictureId))
      (describeFrame (fun picture _ => Vp8.descriptor picture)
        (fun picture => Vp8.prefixLen picture.hasPid) data)
      (fun current _ => Prod.map id PictureId.advance current) Vp8.depacketize (fun _ => True)
      (fun state => state.callbacks = ⟨true, error⟩)
      (fun chunk => .output
        ⟨data chunk, usToRtp chunk.timestamp 90000, Vp8.frameType (data chunk)⟩) chunks := by
  apply frame_reassembles
  · intro chunk member self
    exact ⟨_, _, Vp8.packetizes (carries chunk member) self, rfl, rfl⟩
  · exact fun _ _ => rfl
  · rintro picture mtu mtuRange chunk member ⟨callbacks, held⟩ rfl
    exact ⟨_, rfl, Vp8.run_frame picture _ mtuRange (nonempty chunk member) error held⟩

theorem vp9_reassembles (carries : ∀ chunk ∈ chunks, chunk.data = some (data chunk))
    (nonempty : ∀ chunk ∈ chunks, data chunk ≠ []) (error : Bool) :
    Reassembles Vp9.packetize (·.base)
      (fun sender => ((⟨sender.base.mtu, sender.base.mtu_range.1⟩, sender.picture) :
        FrameParameters PictureId))
      (describeFrame (fun picture chunk => Vp9.descriptor picture chunk.type)
        (fun picture => Vp9.prefixLen picture.hasPid) data)
      (fun current _ => Prod.map id PictureId.advance current) Vp9.depacketize (fun _ => True)
      (fun state => state.callbacks = ⟨true, error⟩)
      (fun chunk => .output
        ⟨data chunk, usToRtp chunk.timestamp 90000, Vp9.frameType (data chunk)⟩) chunks := by
  apply frame_reassembles
  · intro chunk member self
    exact ⟨_, _, Vp9.packetizes (carries chunk member) self, rfl, rfl⟩
  · exact fun _ _ => rfl
  · rintro picture mtu mtuRange chunk member ⟨callbacks, held⟩ rfl
    exact ⟨_, rfl, Vp9.run_frame picture chunk.type _ mtuRange (nonempty chunk member) error held⟩

theorem av1_reassembles (carries : ∀ chunk ∈ chunks, chunk.data = some (data chunk))
    (nonempty : ∀ chunk ∈ chunks, data chunk ≠ []) (error : Bool) :
    Reassembles Av1.packetize id
      (fun sender => ((⟨sender.mtu, sender.mtu_range.1⟩, ()) : FrameParameters Unit))
      (describeFrame (fun _ chunk => Av1.descriptor (chunk.type == some .key)) (fun _ => 1) data)
      (fun current _ => Prod.map id id current) Av1.depacketize (fun _ => True)
      (fun state => state.callbacks = ⟨true, error⟩)
      (fun chunk => .output ⟨data chunk, usToRtp chunk.timestamp 90000,
        if chunk.type = some .key then .key else .delta⟩) chunks := by
  apply @frame_reassembles Packetizer Av1.Depacketizer Unit id (fun _ => ()) id
  · intro chunk member self
    exact ⟨_, _, Av1.packetizes (carries chunk member) self, rfl, rfl⟩
  · exact fun _ _ => rfl
  · rintro _ mtu mtuRange chunk member ⟨⟨callbacks, held⟩, wasKey⟩ rfl
    have handed := Av1.run_frame (chunk.type == some .key) (usToRtp chunk.timestamp 90000)
      mtuRange (nonempty chunk member) error wasKey held
    simp only [beq_iff_eq] at handed
    exact ⟨_, rfl, handed⟩

end Codecs

/-- Streams of VP8, VP9 and AV1 behind the jitter buffer. -/
theorem frame_streams_play {chunks : List FrameChunk} (data : FrameChunk → Bytes)
    (carries : ∀ chunk ∈ chunks, chunk.data = some (data chunk))
    (nonempty : ∀ chunk ∈ chunks, data chunk ≠ []) (error : Bool) :
    (∀ (self : PictureIdPacketizer) (depacketizer : FrameDepacketizer),
      FrameDepacketizer.new "VP8Depacketizer" ⟨true, error⟩ = .ok depacketizer →
      ∀ reception : Reception self.base.seq (sentPackets Vp8.packetize self chunks),
        Plays Vp8.packetize Vp8.depacketize
          (fun chunk => .output
            ⟨data chunk, usToRtp chunk.timestamp 90000, Vp8.frameType (data chunk)⟩)
          chunks self depacketizer reception) ∧
    (∀ (self : PictureIdPacketizer) (depacketizer : FrameDepacketizer),
      FrameDepacketizer.new "VP9Depacketizer" ⟨true, error⟩ = .ok depacketizer →
      ∀ reception : Reception self.base.seq (sentPackets Vp9.packetize self chunks),
        Plays Vp9.packetize Vp9.depacketize
          (fun chunk => .output
            ⟨data chunk, usToRtp chunk.timestamp 90000, Vp9.frameType (data chunk)⟩)
          chunks self depacketizer reception) ∧
    (∀ (self : Packetizer) (depacketizer : Av1.Depacketizer),
      Av1.Depacketizer.new ⟨true, error⟩ = .ok depacketizer →
      ∀ reception : Reception self.seq (sentPackets Av1.packetize self chunks),
        Plays Av1.packetize Av1.depacketize
          (fun chunk => .output ⟨data chunk, usToRtp chunk.timestamp 90000,
            if chunk.type = some .key then .key else .delta⟩)
          chunks self depacketizer reception) := by
  refine ⟨?_, ?_, ?_⟩
  · intro self depacketizer fresh reception
    cases fresh
    exact (vp8_reassembles carries nonempty error).plays trivial rfl reception
  · intro self depacketizer fresh reception
    cases fresh
    exact (vp9_reassembles carries nonempty error).plays trivial rfl reception
  · intro self depacketizer fresh reception
    cases fresh
    exact (av1_reassembles carries nonempty error).plays trivial rfl reception

theorem two_frames_packets :
    (sentPackets Vp8.packetize lastPictureId twoFrames).length = 3 := by
  decide +kernel

theorem frame_streams_play_reordered :
    ∃ reception : Reception lastPictureId.base.seq
        (sentPackets Vp8.packetize lastPictureId twoFrames),
      reception.actions = reordered _ two_frames_packets ++ [.flush 100] ∧
        handedOut Vp8.depacketize ⟨⟨true, false⟩, []⟩ reception =
          twoFrames.map fun chunk => .output ⟨chunk.data.getD [],
            usToRtp chunk.timestamp 90000, Vp8.frameType (chunk.data.getD [])⟩ := by
  have carries : ∀ chunk ∈ twoFrames, chunk.data = some (chunk.data.getD []) := by
    simp [twoFrames]
  have nonempty : ∀ chunk ∈ twoFrames, chunk.data.getD [] ≠ [] := by
    simp [twoFrames]
  obtain ⟨reception, same, unbroken, complete⟩ :=
    @reordered_reception lastPictureId.base.seq _ two_frames_packets (by decide +kernel)
      (by decide +kernel) (by decide +kernel)
  have plays := (frame_streams_play (fun chunk => chunk.data.getD []) carries nonempty false).1
    lastPictureId ⟨⟨true, false⟩, []⟩ rfl reception
  exact ⟨reception, same, plays.all_frames unbroken complete⟩

theorem H264.reassembles {chunks : List Chunk} {units : Chunk → List Bytes}
    (carries : ∀ chunk ∈ chunks, Carries chunk (units chunk))
    (some : ∀ chunk ∈ chunks, units chunk ≠ [])
    (wellFormed : ∀ chunk ∈ chunks, ∀ nalu ∈ units chunk, H264.WellFormed nalu) :
    Reassembles H264.packetize id packetSize
      (describeUnits H264.fuaDescriptor 1 H264.clockRate units) (fun kept _ => kept)
      H264.depacketize (fun _ => True) Idle
      (fun chunk => unitEvent H264.isIDR (usToRtp chunk.timestamp H264.clockRate) (units chunk))
      chunks where
  timestamps := describe_units_timestamps units (by decide)
  sends chunk member := units_sent fun sender =>
    H264.packetize_sends (carries chunk member)
      (fun nalu inside => (wellFormed chunk member nalu inside).toSeparable)
      (some chunk member) sender
  reads _ _ := rfl
  keeps _ _ _ := trivial
  handsOut mtu _ chunk member _ ready :=
    run_unit_idle
      (fun nalu inside => H264.receives_unit (wellFormed chunk member nalu inside).nalUnit)
      (some chunk member) (by decide) mtu.2 _ ready

theorem H265.reassembles {submissions : List H265.Submission}
    {units : H265.Submission → List Bytes}
    (sound : ∀ submission ∈ submissions, submission.Sound units) :
    Reassembles H265.Submission.submit id packetSize
      (fun mtu submission => submission.describe units mtu) (fun kept _ => kept)
      H265.depacketize (fun _ => True) Idle
      (fun submission => unitEvent H265.isIDR submission.rtpTs (units submission))
      submissions where
  timestamps := H265.Submission.describe_timestamps
  sends submission member := H265.Submission.submit_sends (sound submission member)
  reads _ _ := rfl
  keeps _ _ _ := trivial
  handsOut mtu _ submission member _ ready :=
    H265.Submission.describe_hands_out (sound submission member) mtu ready

theorem Aac.reassembles {chunks : List Chunk} {data : Chunk → Bytes}
    (sendable : ∀ chunk ∈ chunks, Aac.AacPacketizer.Sendable data chunk) (clockRate : Nat) :
    Reassembles Aac.AacPacketizer.packetize (·.base) Aac.AacPacketizer.parameters
      (Aac.AacPacketizer.describe data) (fun kept _ => kept) Aac.AacDepacketizer.depacketize
      (fun current => current.2 = clockRate)
      (fun state => state.callbacks.output = true ∧ state.fragments = none)
      (fun chunk => .output ⟨data chunk, usToRtp chunk.timestamp clockRate, .key⟩) chunks where
  timestamps := Aac.AacPacketizer.describe_timestamps data
  sends chunk member := Aac.AacPacketizer.packetize_sends (sendable chunk member)
  reads _ _ := rfl
  keeps _ _ known := known
  handsOut current known chunk member state idle := by
    refine ⟨state.resetFragmentState, ⟨idle.1, rfl⟩, ?_⟩
    rw [Aac.AacPacketizer.describe, known]
    exact Aac.AacDepacketizer.run_unit idle.1 idle.2 current.1.2 _
      (sendable chunk member).nonempty (sendable chunk member).size.2

/-- Streams of H.264, H.265 and AAC behind the jitter buffer. -/
theorem unit_streams_play (error : Bool) :
    (∀ (chunks : List Chunk) (units : Chunk → List Bytes),
      (∀ chunk ∈ chunks, Carries chunk (units chunk) ∧ units chunk ≠ [] ∧
        ∀ nalu ∈ units chunk, H264.WellFormed nalu) →
      ∀ (self : Packetizer) (depacketizer : NaluDepacketizer),
        NaluDepacketizer.new "H264Depacketizer" ⟨true, error⟩ = .ok depacketizer →
        ∀ reception : Reception self.seq (sentPackets H264.packetize self chunks),
          Plays H264.packetize H264.depacketize
            (fun chunk =>
              unitEvent H264.isIDR (usToRtp chunk.timestamp H264.clockRate) (units chunk))
            chunks self depacketizer reception) ∧
    (∀ (submissions : List H265.Submission) (units : H265.Submission → List Bytes),
      (∀ submission ∈ submissions, submission.Sound units) →
      ∀ (self : Packetizer) (depacketizer : NaluDepacketizer),
        NaluDepacketizer.new "H265Depacketizer" ⟨true, error⟩ = .ok depacketizer →
        ∀ reception : Reception self.seq (sentPackets H265.Submission.submit self submissions),
          Plays H265.Submission.submit H265.depacketize
            (fun submission => unitEvent H265.isIDR submission.rtpTs (units submission))
            submissions self depacketizer reception) ∧
    (∀ (chunks : List Chunk) (data : Chunk → Bytes),
      (∀ chunk ∈ chunks, Aac.AacPacketizer.Sendable data chunk) →
      ∀ (self : Aac.AacPacketizer) (opts : Aac.AacDepacketizerOptions)
        (depacketizer : Aac.AacDepacketizer),
        Aac.AacDepacketizer.new opts = .ok depacketizer →
        ∀ reception : Reception self.base.seq
            (sentPackets Aac.AacPacketizer.packetize self chunks),
          Plays Aac.AacPacketizer.packetize Aac.AacDepacketizer.depacketize
            (fun chunk => .output ⟨data chunk, usToRtp chunk.timestamp self.clockRate, .key⟩)
            chunks self depacketizer reception) := by
  refine ⟨?_, ?_, ?_⟩
  · intro chunks units sound self depacketizer fresh reception
    cases fresh
    exact (H264.reassembles (fun chunk member => (sound chunk member).1)
      (fun chunk member => (sound chunk member).2.1)
      (fun chunk member => (sound chunk member).2.2)).plays trivial ⟨rfl, rfl, rfl, rfl⟩ reception
  · intro submissions units sound self depacketizer fresh reception
    cases fresh
    exact (H265.reassembles sound).plays trivial ⟨rfl, rfl, rfl, rfl⟩ reception
  · intro chunks data sendable self opts depacketizer fresh reception
    exact (Aac.reassembles sendable self.clockRate).plays rfl
      (Aac.AacDepacketizer.new_ready fresh) reception

def listedKeyframe : List Chunk := [⟨none, some H264.keyframe, 1000⟩]

theorem listed_keyframe_packets :
    (sentPackets H264.packetize smallPackets listedKeyframe).length = 3 := by
  decide +kernel

theorem unit_streams_play_reordered :
    ∃ reception : Reception smallPackets.seq
        (sentPackets H264.packetize smallPackets listedKeyframe),
      reception.actions = reordered _ listed_keyframe_packets ++ [.flush 100] ∧
        handedOut H264.depacketize ⟨⟨true, false⟩, [], [], false⟩ reception =
          [.output ⟨joinAnnexB H264.keyframe, 90, .key⟩] := by
  have sound : ∀ chunk ∈ listedKeyframe, Carries chunk H264.keyframe ∧ H264.keyframe ≠ [] ∧
      ∀ nalu ∈ H264.keyframe, H264.WellFormed nalu := by
    intro chunk member
    rw [List.mem_singleton.mp member]
    refine ⟨.inl rfl, by simp [H264.keyframe], fun nalu inside => ?_⟩
    have either : nalu = [0x67, 0x42] ∨ nalu = 0x65 :: List.replicate 120 0x11 := by
      simpa [H264.keyframe] using inside
    cases either with
    | inl first =>
        rw [first]
        exact ⟨⟨by decide, by decide, by decide, by decide⟩, by decide, by decide⟩
    | inr second =>
        rw [second]
        exact ⟨⟨by decide, by decide +kernel, by decide +kernel, by decide +kernel⟩,
          by decide, by decide⟩
  obtain ⟨reception, same, unbroken, complete⟩ :=
    @reordered_reception smallPackets.seq _ listed_keyframe_packets (by decide +kernel)
      (by decide +kernel) (by decide +kernel)
  have plays := (unit_streams_play false).1 listedKeyframe (fun _ => H264.keyframe) sound
    smallPackets _ rfl reception
  have whole := plays.all_frames unbroken complete
  have event : unitEvent H264.isIDR (usToRtp 1000 H264.clockRate) H264.keyframe =
      .output ⟨joinAnnexB H264.keyframe, 90, .key⟩ := by
    decide +kernel
  exact ⟨reception, same, whole.trans (congrArg (fun only => [only]) event)⟩

end RtpPacket.Codec
