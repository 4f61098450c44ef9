import RtpPacket.Codec.Av1
import RtpPacket.Codec.Vp8
import RtpPacket.Codec.Vp9

/-!
# VP8, VP9 and AV1 streams

Frames sent by a packetizer and received in order come out whole, whatever the size of
the packets and wherever the sequence numbers and picture identifiers wrap.
-/

namespace RtpPacket.Codec

open ByteCodec Rtp Run

set_option autoImplicit false

/-- Frames as they go over the wire, one group of packets for each. -/
structure Delivered (seq mtu : Nat) (chunks : List FrameChunk) (sent : List (List Packet))
    (received : List (List ParsedPacket)) : Prop where
  parsed : sent.map (·.map fun packet => parse packet.bytes) = received.map (·.map some)
  numbered : received.flatten.map (·.sequenceNumber) =
    (List.range received.flatten.length).map fun index => (seq + index) % 65536
  fits : ∀ packet ∈ received.flatten, packet.payload.length ≤ mtu
  timed : List.Forall₂
    (fun chunk packets => ∀ packet ∈ packets, packet.timestamp = usToRtp chunk.timestamp 90000)
    chunks received
  marked : ∀ packets ∈ received, ∃ count,
    packets.map (·.marker) = List.replicate count false ++ [true]

/-- One identifier for each frame, found at `offset` of every payload. -/
def PictureIds (offset pid : Nat) (received : List (List ParsedPacket)) : Prop :=
  ∀ index, ∀ packets ∈ received[index]?, ∀ packet ∈ packets,
    readBE 2 packet.payload offset = 0x8000 + (pid + index) % 0x8000

/-- Frames handed to a packetizer arrive, and come out of the depacketizer in order and once;
`shows` is what else is seen of them on the wire. -/
def StreamArrives {Sender State : Type}
    (packetize : Sender → FrameChunk → Except String (List Packet × Sender))
    (depacketize : State → ParsedPacket → State × List DepacketizerEvent) (seq mtu : Nat)
    (shows : List (List ParsedPacket) → Prop) (frame : FrameChunk → OutputChunk)
    (chunks : List FrameChunk) (self : Sender) (depacketizer : State) : Prop :=
  ∃ (sent : List (List Packet)) (last : Sender) (received : List (List ParsedPacket)),
    packetizeAll packetize self chunks = .ok (sent, last) ∧
    Delivered seq mtu chunks sent received ∧
    shows received ∧
    (run depacketize depacketizer received.flatten).2 = chunks.map fun chunk =>
      .output (frame chunk)

abbrev FrameParameters (Picture : Type) : Type := { mtu : Nat // 100 ≤ mtu } × Picture

def describeFrame {Picture : Type}
    (descriptor : Picture → FrameChunk → Bool → Bool → InlinePrefix) (prefixLen : Picture → Nat)
    (data : FrameChunk → Bytes) (current : FrameParameters Picture) (chunk : FrameChunk) :
    List Outgoing :=
  frameOutgoing (descriptor current.2 chunk) (prefixLen current.2) current.1
    (usToRtp chunk.timestamp 90000) (data chunk)

section FrameStream

variable {Sender State Picture : Type} {base : Sender → Packetizer} {picture : Sender → Picture}
  {next : Picture → Picture} {descriptor : Picture → FrameChunk → Bool → Bool → InlinePrefix}
  {prefixLen : Picture → Nat}
  {packetize : Sender → FrameChunk → Except String (List Packet × Sender)}
  {depacketize : State → ParsedPacket → State × List DepacketizerEvent}
  {frameType : FrameChunk → FrameType} {chunks : List FrameChunk} {data : FrameChunk → Bytes}

/-- A stream of any codec that cuts its frames as `packetizeFrame` does. The packets of a
frame keep their description, for what a codec says in it. -/
theorem frame_stream {Inv : State → Prop} (nonempty : ∀ chunk ∈ chunks, data chunk ≠ [])
    (short : ∀ current, prefixLen current ≤ 4)
    (packetizes : ∀ chunk ∈ chunks, ∀ self, ∃ packets after,
      packetize self chunk = .ok (packets, after) ∧
        (packets, base after) = packetizeFrame (descriptor (picture self) chunk)
          (prefixLen (picture self)) (data chunk) (usToRtp chunk.timestamp 90000) false
          (base self) ∧
        picture after = next (picture self))
    (reads : ∀ state packet, depacketize state packet = depacketize state packet.outgoing.packet)
    (handsOut : ∀ current mtu, 100 ≤ mtu → ∀ chunk ∈ chunks, ∀ state, Inv state →
      ∃ after, Inv after ∧
        run (fun state out => depacketize state out.packet) state
          (frameOutgoing (descriptor current chunk) (prefixLen current) mtu
            (usToRtp chunk.timestamp 90000) (data chunk)) =
          (after, [.output ⟨data chunk, usToRtp chunk.timestamp 90000, frameType chunk⟩]))
    (self : Sender) {depacketizer : State} (ready : Inv depacketizer) :
    StreamArrives packetize depacketize (base self).seq (base self).mtu
      (fun received => ∀ index, ∀ packets ∈ received[index]?, ∀ packet ∈ packets,
        ∃ chunk first last piece, packet.payload =
          (descriptor (next^[index] (picture self)) chunk first last).bytes
            (prefixLen (next^[index] (picture self))) ++ piece)
      (fun chunk => ⟨data chunk, usToRtp chunk.timestamp 90000, frameType chunk⟩)
      chunks self depacketizer := by
  have timestamps (current : FrameParameters Picture) (chunk : FrameChunk) :
      ∀ out ∈ describeFrame descriptor prefixLen data current chunk, out.timestamp < 2 ^ 32 := by
    intro out member
    rw [(fragment_outgoing_member member).1]
    exact Word.wrap_unsigned_lt 32 _
  have sends (chunk : FrameChunk) (member : chunk ∈ chunks) (before : Sender) :
      ∃ packets after, Sends packetize base
        (fun sender => (⟨(base sender).mtu, (base sender).mtu_range.1⟩, picture sender))
        (describeFrame descriptor prefixLen data) (fun current _ => Prod.map id next current)
        before chunk packets after := by
    obtain ⟨packets, after, packetized, cut, kept⟩ := packetizes chunk member before
    rw [packetize_frame_sends] at cut
    refine ⟨packets, after, packetized, cut, Prod.ext (Subtype.ext ?_) kept⟩
    have base := congrArg Prod.snd cut
    exact (congrArg Packetizer.mtu base).trans (Packetizer.send_all_mtu _ _ _)
  have marked (current : FrameParameters Picture) (chunk : FrameChunk) (member : chunk ∈ chunks) :
      ∃ count, (describeFrame descriptor prefixLen data current chunk).map (·.marker) =
        List.replicate count false ++ [true] :=
    frame_outgoing_markers (short current.2) current.1.2 (nonempty chunk member)
  obtain ⟨sent, last, received, packetized, parsed, described, numbered, markers, handed⟩ :=
    stream_arrives timestamps sends marked reads
      (fun current chunk member => handsOut current.2 current.1 current.1.2 chunk member) self ready
  have shape {index : Nat} {packets : List ParsedPacket} (there : received[index]? = some packets) :
      ∃ chunk, chunks[index]? = some chunk ∧ ∀ packet ∈ packets,
        packet.timestamp = usToRtp chunk.timestamp 90000 ∧
          packet.payload.length ≤ (base self).mtu ∧ ∃ first last piece,
            packet.payload = (descriptor (next^[index] (picture self)) chunk first last).bytes
              (prefixLen (next^[index] (picture self))) ++ piece := by
    obtain ⟨chunk, chunkThere, same⟩ := received_at described there
    have inside : index ≤ chunks.length :=
      (List.getElem?_eq_some_iff.mp chunkThere).1.le
    rw [List.foldl_const, List.length_take_of_le inside, Prod.map_iterate,
      Function.iterate_id] at same
    refine ⟨chunk, chunkThere, fun packet member => ?_⟩
    have out := List.mem_map_of_mem (f := (·.outgoing)) member
    rw [same] at out
    obtain ⟨time, first, last, piece, payload, _, fits⟩ := frame_outgoing_member (short _)
      (base self).mtu_range.1 (nonempty chunk (List.mem_of_getElem? chunkThere)) out
    exact ⟨time, fits, first, last, piece, payload⟩
  have length : chunks.length = received.length := by
    rw [← describe_all_length, ← described, List.length_map]
  refine ⟨sent, last, received, packetized, ⟨parsed, numbered, ?_, ?_, markers⟩, ?_, handed⟩
  · intro packet member
    obtain ⟨packets, packetsMember, inside⟩ := List.mem_flatten.mp member
    obtain ⟨index, there⟩ := List.mem_iff_getElem?.mp packetsMember
    obtain ⟨chunk, _, each⟩ := shape there
    exact (each packet inside).2.1
  · apply List.forall₂_iff_get.mpr
    refine ⟨length, fun index inChunks inReceived packet member => ?_⟩
    obtain ⟨chunk, chunkThere, each⟩ := shape (List.getElem?_eq_getElem inReceived)
    rw [List.getElem?_eq_getElem inChunks, Option.some.injEq] at chunkThere
    rw [List.get_eq_getElem, chunkThere]
    exact (each packet member).1
  · intro index packets there packet member
    obtain ⟨chunk, _, each⟩ := shape there
    obtain ⟨first, last, piece, payload⟩ := (each packet member).2.2
    exact ⟨chunk, first, last, piece, payload⟩

end FrameStream

theorem Vp8.packetizes {chunk : FrameChunk} {data : Bytes} (carries : chunk.data = some data)
    (self : PictureIdPacketizer) :
    Vp8.packetize self chunk = .ok (Vp8.packetizeWith self data chunk.timestamp false) := by
  obtain ⟨valid, frame⟩ := Chunk.accepted carries "VP8Packetizer"
  rw [Vp8.packetize, valid, frame]
  rfl

theorem Vp9.packetizes {chunk : FrameChunk} {data : Bytes} (carries : chunk.data = some data)
    (self : PictureIdPacketizer) :
    Vp9.packetize self chunk =
      .ok (Vp9.packetizeWith self chunk.type data chunk.timestamp false) := by
  obtain ⟨valid, frame⟩ := Chunk.accepted carries "VP9Packetizer"
  rw [Vp9.packetize, valid, frame]
  rfl

theorem Av1.packetizes {chunk : FrameChunk} {data : Bytes} (carries : chunk.data = some data)
    (self : Packetizer) :
    Av1.packetize self chunk =
      .ok (Av1.packetizeWith self chunk.type data chunk.timestamp false) := by
  obtain ⟨valid, frame⟩ := Chunk.accepted carries "AV1Packetizer"
  rw [Av1.packetize, valid, frame]
  rfl

section Codecs

variable {chunks : List FrameChunk} {data : FrameChunk → Bytes}

theorem vp8_stream (carries : ∀ chunk ∈ chunks, chunk.data = some (data chunk))
    (nonempty : ∀ chunk ∈ chunks, data chunk ≠ []) (error : Bool) (self : PictureIdPacketizer) :
    StreamArrives Vp8.packetize Vp8.depacketize self.base.seq self.base.mtu
      (fun received => self.picture.hasPid = true → PictureIds 2 self.picture.pid received)
      (fun chunk => ⟨data chunk, usToRtp chunk.timestamp 90000, Vp8.frameType (data chunk)⟩)
      chunks self ⟨⟨true, error⟩, []⟩ := by
  obtain ⟨sent, last, received, packetized, delivered, payloads, handed⟩ :=
    @frame_stream PictureIdPacketizer FrameDepacketizer PictureId (·.base) (·.picture)
      PictureId.advance (fun picture _ => Vp8.descriptor picture)
      (fun picture => Vp8.prefixLen picture.hasPid) Vp8.packetize Vp8.depacketize
      (fun chunk => Vp8.frameType (data chunk)) chunks data
      (fun state => state.callbacks = ⟨true, error⟩)
      nonempty (fun _ => Vp8.prefix_len_short _)
      (fun chunk member self => ⟨_, _, Vp8.packetizes (carries chunk member) self, rfl, rfl⟩)
      (fun _ _ => rfl)
      (fun picture mtu mtuRange chunk member state listening => by
        obtain ⟨callbacks, held⟩ := state
        cases listening
        exact ⟨_, rfl, Vp8.run_frame picture _ mtuRange (nonempty chunk member) error held⟩)
      self ⟨⟨true, error⟩, []⟩ rfl
  refine ⟨sent, last, received, packetized, delivered, ?_, handed⟩
  intro present index packets there packet member
  obtain ⟨_, first, last, piece, payload⟩ := payloads index packets there packet member
  obtain ⟨still, pid⟩ := self.picture.advance_iterate present index
  rw [payload, still, ← pid]
  exact PictureId.read_pid_field _ still [_, _] piece

theorem vp9_stream (carries : ∀ chunk ∈ chunks, chunk.data = some (data chunk))
    (nonempty : ∀ chunk ∈ chunks, data chunk ≠ []) (error : Bool) (self : PictureIdPacketizer) :
    StreamArrives Vp9.packetize Vp9.depacketize self.base.seq self.base.mtu
      (fun received => self.picture.hasPid = true → PictureIds 1 self.picture.pid received)
      (fun chunk => ⟨data chunk, usToRtp chunk.timestamp 90000, Vp9.frameType (data chunk)⟩)
      chunks self ⟨⟨true, error⟩, []⟩ := by
  obtain ⟨sent, last, received, packetized, delivered, payloads, handed⟩ :=
    @frame_stream PictureIdPacketizer FrameDepacketizer PictureId (·.base) (·.picture)
      PictureId.advance (fun picture chunk => Vp9.descriptor picture chunk.type)
      (fun picture => Vp9.prefixLen picture.hasPid) Vp9.packetize Vp9.depacketize
      (fun chunk => Vp9.frameType (data chunk)) chunks data
      (fun state => state.callbacks = ⟨true, error⟩)
      nonempty (fun _ => Vp9.prefix_len_short _)
      (fun chunk member self => ⟨_, _, Vp9.packetizes (carries chunk member) self, rfl, rfl⟩)
      (fun _ _ => rfl)
      (fun picture mtu mtuRange chunk member state listening => by
        obtain ⟨callbacks, held⟩ := state
        cases listening
        exact ⟨_, rfl, Vp9.run_frame picture chunk.type _ mtuRange (nonempty chunk member) error
          held⟩)
      self ⟨⟨true, error⟩, []⟩ rfl
  refine ⟨sent, last, received, packetized, delivered, ?_, handed⟩
  intro present index packets there packet member
  obtain ⟨_, first, last, piece, payload⟩ := payloads index packets there packet member
  obtain ⟨still, pid⟩ := self.picture.advance_iterate present index
  rw [payload, still, ← pid]
  exact PictureId.read_pid_field _ still [_] piece

theorem av1_stream (carries : ∀ chunk ∈ chunks, chunk.data = some (data chunk))
    (nonempty : ∀ chunk ∈ chunks, data chunk ≠ []) (error : Bool) (self : Packetizer) :
    StreamArrives Av1.packetize Av1.depacketize self.seq self.mtu (fun _ => True)
      (fun chunk => ⟨data chunk, usToRtp chunk.timestamp 90000,
        if chunk.type = some .key then .key else .delta⟩)
      chunks self ⟨⟨⟨true, error⟩, []⟩, false⟩ := by
  obtain ⟨sent, last, received, packetized, delivered, _, handed⟩ :=
    @frame_stream Packetizer Av1.Depacketizer Unit id (fun _ => ()) id
      (fun _ chunk => Av1.descriptor (chunk.type == some .key)) (fun _ => 1)
      Av1.packetize Av1.depacketize
      (fun chunk => if chunk.type = some .key then .key else .delta) chunks data
      (fun state => state.callbacks = ⟨true, error⟩)
      nonempty (fun _ => by decide)
      (fun chunk member self => ⟨_, _, Av1.packetizes (carries chunk member) self, rfl, rfl⟩)
      (fun _ _ => rfl)
      (fun _ mtu mtuRange chunk member state listening => by
        obtain ⟨⟨callbacks, held⟩, wasKey⟩ := state
        cases listening
        have handed := Av1.run_frame (chunk.type == some .key) (usToRtp chunk.timestamp 90000)
          mtuRange (nonempty chunk member) error wasKey held
        simp only [beq_iff_eq] at handed
        exact ⟨_, rfl, handed⟩)
      self ⟨⟨⟨true, error⟩, []⟩, false⟩ rfl
  exact ⟨sent, last, received, packetized, delivered, trivial, handed⟩

end Codecs

/-- Any stream of frames of any of the three codecs arrives as it was sent. -/
theorem frame_streams_round_trip {chunks : List FrameChunk} (data : FrameChunk → Bytes)
    (carries : ∀ chunk ∈ chunks, chunk.data = some (data chunk))
    (nonempty : ∀ chunk ∈ chunks, data chunk ≠ []) (error : Bool) :
    (∀ (self : PictureIdPacketizer) (depacketizer : FrameDepacketizer),
      FrameDepacketizer.new "VP8Depacketizer" ⟨true, error⟩ = .ok depacketizer →
      StreamArrives Vp8.packetize Vp8.depacketize self.base.seq self.base.mtu
        (fun received => self.picture.hasPid = true → PictureIds 2 self.picture.pid received)
        (fun chunk => ⟨data chunk, usToRtp chunk.timestamp 90000, Vp8.frameType (data chunk)⟩)
        chunks self depacketizer) ∧
    (∀ (self : PictureIdPacketizer) (depacketizer : FrameDepacketizer),
      FrameDepacketizer.new "VP9Depacketizer" ⟨true, error⟩ = .ok depacketizer →
      StreamArrives Vp9.packetize Vp9.depacketize self.base.seq self.base.mtu
        (fun received => self.picture.hasPid = true → PictureIds 1 self.picture.pid received)
        (fun chunk => ⟨data chunk, usToRtp chunk.timestamp 90000, Vp9.frameType (data chunk)⟩)
        chunks self depacketizer) ∧
    (∀ (self : Packetizer) (depacketizer : Av1.Depacketizer),
      Av1.Depacketizer.new ⟨true, error⟩ = .ok depacketizer →
      StreamArrives Av1.packetize Av1.depacketize self.seq self.mtu (fun _ => True)
        (fun chunk => ⟨data chunk, usToRtp chunk.timestamp 90000,
          if chunk.type = some .key then .key else .delta⟩)
        chunks self depacketizer) := by
  refine ⟨?_, ?_, ?_⟩
  · intro self depacketizer fresh
    cases fresh
    exact vp8_stream carries nonempty error self
  · intro self depacketizer fresh
    cases fresh
    exact vp9_stream carries nonempty error self
  · intro self depacketizer fresh
    cases fresh
    exact av1_stream carries nonempty error self

def twoFrames : List FrameChunk :=
  [{ data := some (List.replicate 120 0x10), nalus := none, timestamp := 1000, type := some .key },
    { data := some [0x11, 0x22], nalus := none, timestamp := 2000, type := some .delta }]

def lastPictureId : PictureIdPacketizer where
  base := smallPackets
  picture := { hasPid := true, pid := 0x7FFF, pid_range := by decide }

theorem two_frames_round_trip :
    StreamArrives Vp8.packetize Vp8.depacketize 65535 100
      (fun received => PictureIds 2 0x7FFF received)
      (fun chunk => ⟨chunk.data.getD [], usToRtp chunk.timestamp 90000,
        Vp8.frameType (chunk.data.getD [])⟩)
      twoFrames lastPictureId ⟨⟨true, false⟩, []⟩ := by
  have carries : ∀ chunk ∈ twoFrames, chunk.data = some (chunk.data.getD []) := by
    simp [twoFrames]
  have nonempty : ∀ chunk ∈ twoFrames, chunk.data.getD [] ≠ [] := by
    simp [twoFrames]
  obtain ⟨sent, last, received, packetized, delivered, pids, handed⟩ :=
    (frame_streams_round_trip (fun chunk => chunk.data.getD []) carries nonempty false).1
      lastPictureId ⟨⟨true, false⟩, []⟩ rfl
  exact ⟨sent, last, received, packetized, delivered, pids rfl, handed⟩

end RtpPacket.Codec
