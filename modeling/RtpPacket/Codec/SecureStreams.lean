import RtpPacket.Codec.Reassembly
import RtpPacket.Receive.SecureCall

/-!
# Frames through a call

The packets of a packetizer make a stream that a call can carry, so that what comes of frames
behind the jitter buffer comes of them at the end of a call: protected, lost, reordered, replayed
and mixed with forged packets on the way, they are opened, sorted and put together again.
-/

namespace RtpPacket.Codec

open ByteCodec Rtp Run Receive

set_option autoImplicit false

section Sending

def PlainPacket (ssrc : Nat) (packet : Packet) : Prop :=
  ∃ parsed, parse packet.bytes = some parsed ∧ parsed.ssrc = ssrc ∧ parsed.extension = false

theorem send_all_plain (outs : List Outgoing) (self : Packetizer) :
    (∀ packet ∈ (self.sendAll false outs).1, PlainPacket (self.ssrc % 2 ^ 32) packet) ∧
      (self.sendAll false outs).2.ssrc = self.ssrc := by
  induction outs generalizing self with
  | nil => exact ⟨fun _ member => absurd member List.not_mem_nil, rfl⟩
  | cons out rest ih =>
      obtain ⟨later, kept⟩ := ih self.advance
      have first := Packetizer.parse_make_packet self out false
      exact ⟨List.forall_mem_cons.mpr ⟨⟨_, first, rfl, rfl⟩, later⟩, kept⟩

theorem parse_plain_packets {ssrc : Nat} {packets : List Packet}
    (plain : ∀ packet ∈ packets, PlainPacket ssrc packet) :
    packets.map (parse ∘ Packet.bytes) =
      (packets.filterMap fun packet => parse packet.bytes).map some := by
  induction packets with
  | nil => rfl
  | cons packet rest ih =>
      obtain ⟨own, others⟩ := List.forall_mem_cons.mp plain
      obtain ⟨parsed, here, -⟩ := own
      simp only [List.map_cons, List.filterMap_cons, here, ih others, Function.comp_apply]

variable {Sender Parameters Frame : Type}

def sentBytes (packetize : Sender → Frame → Except String (List Packet × Sender))
    (self : Sender) (frames : List Frame) : List Bytes :=
  match packetizeAll packetize self frames with
  | .ok made => made.1.flatten.map Packet.bytes
  | .error _ => []

variable {packetize : Sender → Frame → Except String (List Packet × Sender)}
  {base : Sender → Packetizer} {parameters : Sender → Parameters}
  {describe : Parameters → Frame → List Outgoing} {next : Parameters → Frame → Parameters}

theorem packetize_all_plain {frames : List Frame}
    (sends : ∀ frame ∈ frames, ∀ self, ∃ packets after,
      Sends packetize base parameters describe next self frame packets after)
    {self : Sender} {made : List (List Packet) × Sender}
    (ran : packetizeAll packetize self frames = .ok made) :
    ∀ packet ∈ made.1.flatten, PlainPacket ((base self).ssrc % 2 ^ 32) packet := by
  induction frames generalizing self made with
  | nil =>
      cases ran
      exact fun _ member => absurd member List.not_mem_nil
  | cons frame rest ih =>
      obtain ⟨packets, after, here⟩ := sends frame List.mem_cons_self self
      obtain ⟨plain, ssrc⟩ := send_all_plain (describe (parameters self) frame) (base self)
      rw [← here.sent] at plain ssrc
      rw [packetizeAll, here.packetized] at ran
      change (packetizeAll packetize after rest >>= fun _ => _) = _ at ran
      cases others : packetizeAll packetize after rest with
      | error message =>
          rw [others] at ran
          cases ran
      | ok later =>
          rw [others] at ran
          cases ran
          have further := ih (fun other member => sends other (List.mem_cons_of_mem _ member)) others
          rw [ssrc] at further
          intro packet member
          rcases List.mem_append.mp member with own | other
          · exact plain packet own
          · exact further packet other

theorem packet_stream {frames : List Frame}
    (timestamps : ∀ current frame, ∀ out ∈ describe current frame, out.timestamp < 2 ^ 32)
    (sends : ∀ frame ∈ frames, ∀ self, ∃ packets after,
      Sends packetize base parameters describe next self frame packets after) (self : Sender)
    (bounded : (base self).seq + (sentPackets packetize self frames).length ≤ 2 ^ 48) :
    PacketStream (base self).seq ((base self).ssrc % 2 ^ 32) (sentBytes packetize self frames)
      (sentPackets packetize self frames) := by
  obtain ⟨sent, last, -, packetized, -⟩ := packetize_all_arrives timestamps sends self
  have plain := packetize_all_plain sends packetized
  have bytes : sentBytes packetize self frames = sent.flatten.map Packet.bytes := by
    rw [sentBytes, packetized]
  have parsed : sentPackets packetize self frames =
      sent.flatten.filterMap fun packet => parse packet.bytes := by
    rw [sentPackets, packetized]
  refine ⟨?_, sent_packets_numbered timestamps sends self, ?_, ?_, (base self).seq_range, bounded⟩
  · rw [bytes, parsed, List.map_map]
    exact parse_plain_packets plain
  · intro packet member
    rw [parsed] at member
    obtain ⟨original, inside, same⟩ := List.mem_filterMap.mp member
    obtain ⟨_, here, ssrc, -⟩ := plain original inside
    rw [here] at same
    cases same
    exact ssrc
  · intro packet member
    rw [bytes] at member
    obtain ⟨original, inside, rfl⟩ := List.mem_map.mp member
    obtain ⟨read, here, -, extension⟩ := plain original inside
    obtain ⟨-, fields⟩ := parse_eq_some_iff.mp here
    intro extended
    rw [fields] at extension
    exact absurd extended (of_decide_eq_false extension)

/-- Calls that carry the packets of some frames, and what the depacketizer makes of them. -/
def PlaysThrough {State : Type} (packetize : Sender → Frame → Except String (List Packet × Sender))
    (base : Sender → Packetizer)
    (depacketize : State → ParsedPacket → State × List DepacketizerEvent)
    (event : Frame → DepacketizerEvent) (frames : List Frame) (self : Sender) (state : State) :
    Prop :=
  ∀ (crypto : Srtp.Crypto) (sender receiver : Srtp.Session) (opts : Options)
    (events : List CallEvent),
    Srtp.Ends crypto sender receiver →
    (initJitterBuffer opts : JitterBuffer Opened).maxSize ≤ 256 →
    (base self).seq + (sentPackets packetize self frames).length ≤ 2 ^ 48 →
    let call := SecureCall.start sender receiver opts (base self).seq
      (sentBytes packetize self frames)
    Always (SecureCall.step crypto) (SecureCall.Permitted crypto) call events →
    (∀ number, Event.resync number ∉ (run (SecureCall.step crypto) call events).2) →
    ∃ heard : Reception (base self).seq (sentPackets packetize self frames),
      heard.opts = opts ∧ SecureCall.Hears crypto call events heard ∧
        Plays packetize depacketize event frames self state heard

theorem Reassembles.plays_through {State : Type}
    {depacketize : State → ParsedPacket → State × List DepacketizerEvent}
    {Known : Parameters → Prop} {Inv : State → Prop} {event : Frame → DepacketizerEvent}
    {frames : List Frame}
    (codec : Reassembles packetize base parameters describe next depacketize Known Inv event
      frames)
    {self : Sender} (known : Known (parameters self)) {state : State} (ready : Inv state) :
    PlaysThrough packetize base depacketize event frames self state := by
  intro crypto sender receiver opts events ends small bounded call permitted noResync
  have stream := packet_stream codec.timestamps codec.sends self bounded
  obtain ⟨heard, same, hears⟩ := SecureCall.reception ends stream small permitted noResync
  exact ⟨heard, same, hears, codec.plays known ready heard⟩

end Sending

/-- Streams of VP8, VP9, AV1, H.264, H.265 and AAC through a call. -/
theorem secure_streams_play (error : Bool) :
    (∀ (chunks : List FrameChunk) (data : FrameChunk → Bytes),
      (∀ chunk ∈ chunks, chunk.data = some (data chunk) ∧ data chunk ≠ []) →
      (∀ (self : PictureIdPacketizer) (depacketizer : FrameDepacketizer),
        FrameDepacketizer.new "VP8Depacketizer" ⟨true, error⟩ = .ok depacketizer →
        PlaysThrough Vp8.packetize (·.base) Vp8.depacketize
          (fun chunk => .output
            ⟨data chunk, usToRtp chunk.timestamp 90000, Vp8.frameType (data chunk)⟩)
          chunks self depacketizer) ∧
      (∀ (self : PictureIdPacketizer) (depacketizer : FrameDepacketizer),
        FrameDepacketizer.new "VP9Depacketizer" ⟨true, error⟩ = .ok depacketizer →
        PlaysThrough Vp9.packetize (·.base) Vp9.depacketize
          (fun chunk => .output
            ⟨data chunk, usToRtp chunk.timestamp 90000, Vp9.frameType (data chunk)⟩)
          chunks self depacketizer) ∧
      (∀ (self : Packetizer) (depacketizer : Av1.Depacketizer),
        Av1.Depacketizer.new ⟨true, error⟩ = .ok depacketizer →
        PlaysThrough Av1.packetize id Av1.depacketize
          (fun chunk => .output ⟨data chunk, usToRtp chunk.timestamp 90000,
            if chunk.type = some .key then .key else .delta⟩)
          chunks self depacketizer)) ∧
    (∀ (chunks : List Chunk) (units : Chunk → List Bytes),
      (∀ chunk ∈ chunks, Carries chunk (units chunk) ∧ units chunk ≠ [] ∧
        ∀ nalu ∈ units chunk, H264.WellFormed nalu) →
      ∀ (self : Packetizer) (depacketizer : NaluDepacketizer),
        NaluDepacketizer.new "H264Depacketizer" ⟨true, error⟩ = .ok depacketizer →
        PlaysThrough H264.packetize id H264.depacketize
          (fun chunk => unitEvent H264.isIDR (usToRtp chunk.timestamp H264.clockRate) (units chunk))
          chunks self depacketizer) ∧
    (∀ (submissions : List H265.Submission) (units : H265.Submission → List Bytes),
      (∀ submission ∈ submissions, submission.Sound units) →
      ∀ (self : Packetizer) (depacketizer : NaluDepacketizer),
        NaluDepacketizer.new "H265Depacketizer" ⟨true, error⟩ = .ok depacketizer →
        PlaysThrough H265.Submission.submit id H265.depacketize
          (fun submission => unitEvent H265.isIDR submission.rtpTs (units submission))
          submissions self depacketizer) ∧
    (∀ (chunks : List Chunk) (data : Chunk → Bytes),
      (∀ chunk ∈ chunks, Aac.AacPacketizer.Sendable data chunk) →
      ∀ (self : Aac.AacPacketizer) (opts : Aac.AacDepacketizerOptions)
        (depacketizer : Aac.AacDepacketizer),
        Aac.AacDepacketizer.new opts = .ok depacketizer →
        PlaysThrough Aac.AacPacketizer.packetize (·.base) Aac.AacDepacketizer.depacketize
          (fun chunk => .output ⟨data chunk, usToRtp chunk.timestamp self.clockRate, .key⟩)
          chunks self depacketizer) := by
  refine ⟨?_, ?_, ?_, ?_⟩
  · intro chunks data sound
    have carries := fun chunk member => (sound chunk member).1
    have nonempty := fun chunk member => (sound chunk member).2
    refine ⟨?_, ?_, ?_⟩
    · intro self depacketizer made
      cases made
      exact (vp8_reassembles carries nonempty error).plays_through trivial rfl
    · intro self depacketizer made
      cases made
      exact (vp9_reassembles carries nonempty error).plays_through trivial rfl
    · intro self depacketizer made
      cases made
      exact (av1_reassembles carries nonempty error).plays_through trivial rfl
  · intro chunks units sound self depacketizer made
    cases made
    exact (H264.reassembles (fun chunk member => (sound chunk member).1)
      (fun chunk member => (sound chunk member).2.1)
      (fun chunk member => (sound chunk member).2.2)).plays_through trivial ⟨rfl, rfl, rfl, rfl⟩
  · intro submissions units sound self depacketizer made
    cases made
    exact (H265.reassembles sound).plays_through trivial ⟨rfl, rfl, rfl, rfl⟩
  · intro chunks data sendable self opts depacketizer made
    exact (Aac.reassembles sendable self.clockRate).plays_through rfl
      (Aac.AacDepacketizer.new_ready made)

/-- The third packet comes before the second one, which comes twice, with a forged packet
between them. -/
def lossyCall : List CallEvent :=
  [.send, .send, .send, .deliver 0 0 0, .deliver 2 5 5, .forge [1, 2, 3] 6 6, .deliver 1 7 7,
    .deliver 1 8 8]

def twoFramesCall : SecureCall :=
  .start Srtp.toySession Srtp.toySession ⟨none, none, none, none⟩ lastPictureId.base.seq
    (sentBytes Vp8.packetize lastPictureId twoFrames)

theorem secure_streams_play_reordered :
    ∃ heard : Reception lastPictureId.base.seq
        (sentPackets Vp8.packetize lastPictureId twoFrames),
      SecureCall.Hears Srtp.toyCrypto twoFramesCall (lossyCall ++ [CallEvent.flush 100]) heard ∧
        handedOut Vp8.depacketize ⟨⟨true, false⟩, []⟩ heard =
          twoFrames.map fun chunk => .output ⟨chunk.data.getD [],
            usToRtp chunk.timestamp 90000, Vp8.frameType (chunk.data.getD [])⟩ := by
  have sound : ∀ chunk ∈ twoFrames, chunk.data = some (chunk.data.getD []) ∧
      chunk.data.getD [] ≠ [] := by
    simp [twoFrames]
  have packets : ∀ event ∈ (run (SecureCall.step Srtp.toyCrypto) twoFramesCall
      (lossyCall ++ [CallEvent.flush 100])).2, ∃ pkt, event = .packet pkt := by
    decide +kernel
  have first : ∀ entry ∈ (run (SecureCall.step Srtp.toyCrypto) twoFramesCall
      (lossyCall ++ [CallEvent.flush 100])).1.playback.played.head?, entry.2 = lastPictureId.base.seq := by
    decide +kernel
  have permitted : Always (SecureCall.step Srtp.toyCrypto) (SecureCall.Permitted Srtp.toyCrypto)
      twoFramesCall (lossyCall ++ [CallEvent.flush 100]) := by
    decide +kernel
  obtain ⟨heard, opts, hears, plays⟩ := ((secure_streams_play false).1 twoFrames
    (fun chunk => chunk.data.getD []) sound).1 lastPictureId ⟨⟨true, false⟩, []⟩ rfl
    Srtp.toyCrypto Srtp.toySession Srtp.toySession ⟨none, none, none, none⟩
    (lossyCall ++ [CallEvent.flush 100]) Srtp.toy_ends (by decide)
    (by rw [two_frames_packets]; decide) permitted (fun number member => by
      obtain ⟨pkt, same⟩ := packets _ member
      cases same)
  have latency : (initJitterBuffer ⟨none, none, none, none⟩ :
      JitterBuffer Opened).effectiveLatency = 50 := by
    rw [JitterBuffer.effectiveLatency]
    simp [initJitterBuffer]
  change SecureCall.Hears Srtp.toyCrypto twoFramesCall _ heard at hears
  refine ⟨heard, hears, plays.all_frames (hears.unbroken packets first) (hears.complete ?_ ?_)⟩
  · rw [opts, latency]
    decide +kernel
  · rw [two_frames_packets]
    decide +kernel

end RtpPacket.Codec
