import RtpPacket.Lib.Cutting
import RtpPacket.Rtp.Sending

/-!
# Frames in pieces

Every video codec sends a frame that does not fit a packet as pieces behind a
descriptor that tells the first piece and the last one apart, and puts the pieces
together again on the other side. This module describes the packets of such a frame
and of a whole stream, and runs a depacketizer over them.
-/

namespace RtpPacket.Codec

open ByteCodec Rtp Run

set_option autoImplicit false

/-- The packets of one frame: `descriptor` is told whether its piece is the first and
whether it is the last, and the last packet carries the marker. -/
def fragmentOutgoing (descriptor : Bool → Bool → Bytes) (rtpTs : Nat) (marker : Bool) :
    Bool → List Bytes → List Outgoing
  | _, [] => []
  | first, piece :: rest =>
      { payload := descriptor first rest.isEmpty ++ piece
        timestamp := rtpTs
        marker := rest.isEmpty && marker } ::
        fragmentOutgoing descriptor rtpTs marker false rest

section Description

variable {descriptor : Bool → Bool → Bytes} {rtpTs : Nat} {marker : Bool}

theorem fragment_outgoing_markers (first : Bool) {pieces : List Bytes} (some : pieces ≠ []) :
    (fragmentOutgoing descriptor rtpTs marker first pieces).map (·.marker) =
      List.replicate (pieces.length - 1) false ++ [marker] := by
  induction pieces generalizing first with
  | nil => exact absurd rfl some
  | cons piece rest ih =>
      cases rest with
      | nil => simp [fragmentOutgoing]
      | cons next others =>
          rw [fragmentOutgoing, List.map_cons, ih false (by simp)]
          simp [List.replicate_succ]

/-- Only the first piece is marked as the start, and only a lone one as the end too. -/
theorem fragment_outgoing_member {first : Bool} {pieces : List Bytes} {out : Outgoing}
    (member : out ∈ fragmentOutgoing descriptor rtpTs marker first pieces) :
    out.timestamp = rtpTs ∧
      ∃ start last, ∃ piece ∈ pieces, out.payload = descriptor start last ++ piece ∧
        (start = true → first = true ∧ (last = true → pieces.length = 1)) := by
  induction pieces generalizing first with
  | nil => simp [fragmentOutgoing] at member
  | cons piece rest ih =>
      cases List.mem_cons.mp member with
      | inl here =>
          rw [here]
          refine ⟨rfl, first, rest.isEmpty, piece, List.mem_cons_self, rfl, ?_⟩
          intro start
          refine ⟨start, fun last => ?_⟩
          rw [List.isEmpty_iff.mp last]
          rfl
      | inr later =>
          obtain ⟨time, start, last, other, otherMember, payload, starts⟩ := ih later
          refine ⟨time, start, last, other, List.mem_cons_of_mem _ otherMember, payload, ?_⟩
          intro started
          exact absurd (starts started).1 (by simp)

end Description

section Reassembly

variable {State : Type} {receive : State → Outgoing → State × List DepacketizerEvent}
  {descriptor : Bool → Bool → Bytes} {rtpTs : Nat} {marker : Bool} {valid : Bytes → Prop}

theorem run_later_fragments (hold : List Bytes → State)
    (finish : List Bytes → State × List DepacketizerEvent)
    (middle : ∀ held piece, valid piece →
      receive (hold held) ⟨descriptor false false ++ piece, rtpTs, false⟩ =
        (hold (held ++ [piece]), []))
    (last : ∀ held piece, valid piece →
      receive (hold held) ⟨descriptor false true ++ piece, rtpTs, marker⟩ =
        finish (held ++ [piece]))
    {pieces : List Bytes} (some : pieces ≠ []) (each : ∀ piece ∈ pieces, valid piece)
    (held : List Bytes) :
    run receive (hold held) (fragmentOutgoing descriptor rtpTs marker false pieces) =
      finish (held ++ pieces) := by
  induction pieces generalizing held with
  | nil => exact absurd rfl some
  | cons piece rest ih =>
      have pieceValid := each piece List.mem_cons_self
      cases rest with
      | nil =>
          simp only [fragmentOutgoing, List.isEmpty_nil, Bool.true_and, run,
            last held piece pieceValid, List.append_nil]
      | cons next others =>
          have later := ih (by simp) (fun other member =>
            each other (List.mem_cons_of_mem _ member)) (held ++ [piece])
          rw [fragmentOutgoing, run]
          simp only [List.isEmpty_cons, Bool.false_and, middle held piece pieceValid]
          rw [later, List.append_assoc, List.singleton_append, List.nil_append]

theorem run_fragments (hold : List Bytes → State)
    (finish : List Bytes → State × List DepacketizerEvent) {state : State}
    (start : ∀ piece, valid piece →
      receive state ⟨descriptor true false ++ piece, rtpTs, false⟩ = (hold [piece], []))
    (middle : ∀ held piece, valid piece →
      receive (hold held) ⟨descriptor false false ++ piece, rtpTs, false⟩ =
        (hold (held ++ [piece]), []))
    (last : ∀ held piece, valid piece →
      receive (hold held) ⟨descriptor false true ++ piece, rtpTs, marker⟩ =
        finish (held ++ [piece]))
    {pieces : List Bytes} (several : 1 < pieces.length)
    (each : ∀ piece ∈ pieces, valid piece) :
    run receive state (fragmentOutgoing descriptor rtpTs marker true pieces) = finish pieces := by
  cases pieces with
  | nil => simp at several
  | cons piece rest =>
      have restNonempty : rest ≠ [] := by
        rintro rfl
        simp at several
      have later := run_later_fragments hold finish middle last restNonempty
        (fun other member => each other (List.mem_cons_of_mem _ member)) [piece]
      have notLast : rest.isEmpty = false := by simpa using restNonempty
      rw [fragmentOutgoing, run]
      simp only [notLast, Bool.false_and, start piece (each piece List.mem_cons_self)]
      rw [later, List.nil_append, List.singleton_append]

theorem run_pieces (hold : List Bytes → State)
    (finish : List Bytes → State × List DepacketizerEvent) {state : State}
    (lone : ∀ piece, valid piece →
      receive state ⟨descriptor true true ++ piece, rtpTs, marker⟩ = finish [piece])
    (start : ∀ piece, valid piece →
      receive state ⟨descriptor true false ++ piece, rtpTs, false⟩ = (hold [piece], []))
    (middle : ∀ held piece, valid piece →
      receive (hold held) ⟨descriptor false false ++ piece, rtpTs, false⟩ =
        (hold (held ++ [piece]), []))
    (last : ∀ held piece, valid piece →
      receive (hold held) ⟨descriptor false true ++ piece, rtpTs, marker⟩ =
        finish (held ++ [piece]))
    {pieces : List Bytes} (some : pieces ≠ []) (each : ∀ piece ∈ pieces, valid piece) :
    run receive state (fragmentOutgoing descriptor rtpTs marker true pieces) = finish pieces := by
  by_cases several : 1 < pieces.length
  · exact run_fragments hold finish start middle last several each
  · obtain ⟨piece, rfl⟩ := List.length_eq_one_iff.mp
      (Nat.le_antisymm (Nat.le_of_not_lt several) (List.length_pos_iff.mpr some))
    rw [fragmentOutgoing, run]
    simp only [List.isEmpty_nil, Bool.true_and, lone piece (each piece List.mem_cons_self)]
    simp [fragmentOutgoing, run]

end Reassembly

section Streams

variable {Sender Parameters Frame : Type}

/-- Frames handed to a packetizer one after another, each with the packets it gives. -/
def packetizeAll (packetize : Sender → Frame → Except String (List Packet × Sender)) :
    Sender → List Frame → Except String (List (List Packet) × Sender)
  | self, [] => .ok ([], self)
  | self, frame :: rest => do
      let made ← packetize self frame
      let later ← packetizeAll packetize made.2 rest
      return (made.1 :: later.1, later.2)

theorem packetize_all_accepts
    {packetize : Sender → Frame → Except String (List Packet × Sender)} {self : Sender}
    {frames : List Frame} {made : List (List Packet) × Sender}
    (ran : packetizeAll packetize self frames = .ok made) {frame : Frame}
    (member : frame ∈ frames) : ∃ sender sent, packetize sender frame = .ok sent := by
  induction frames generalizing self made with
  | nil => cases member
  | cons first rest ih =>
      rw [packetizeAll] at ran
      cases here : packetize self first with
      | error message =>
          rw [here] at ran
          cases ran
      | ok sent =>
          cases List.mem_cons.mp member with
          | inl same =>
              rw [same]
              exact ⟨self, sent, here⟩
          | inr later =>
              rw [here] at ran
              change (packetizeAll packetize sent.2 rest >>= fun _ => _) = _ at ran
              cases others : packetizeAll packetize sent.2 rest with
              | error message =>
                  rw [others] at ran
                  cases ran
              | ok _ => exact ih others later

def describeAll (describe : Parameters → Frame → List Outgoing)
    (next : Parameters → Frame → Parameters) :
    Parameters → List Frame → List (List Outgoing)
  | _, [] => []
  | parameters, frame :: rest =>
      describe parameters frame :: describeAll describe next (next parameters frame) rest

theorem run_describe_all {State : Type}
    {receive : State → Outgoing → State × List DepacketizerEvent} {Inv : State → Prop}
    {describe : Parameters → Frame → List Outgoing} {next : Parameters → Frame → Parameters}
    {event : Frame → DepacketizerEvent} {frames : List Frame}
    (handsOut : ∀ current, ∀ frame ∈ frames, ∀ state, Inv state →
      ∃ after, Inv after ∧ run receive state (describe current frame) = (after, [event frame]))
    (current : Parameters) {state : State} (ready : Inv state) :
    (run receive state (describeAll describe next current frames).flatten).2 =
      frames.map event := by
  induction frames generalizing current state with
  | nil => rfl
  | cons frame rest ih =>
      obtain ⟨after, kept, here⟩ := handsOut current frame List.mem_cons_self state ready
      have later := ih (fun other otherFrame member => handsOut other otherFrame
        (List.mem_cons_of_mem _ member)) (next current frame) kept
      rw [describeAll, List.flatten_cons, run_append, here, later]
      rfl

/-- A packetizer that sends what `describe` says. -/
structure Sends (packetize : Sender → Frame → Except String (List Packet × Sender))
    (base : Sender → Packetizer) (parameters : Sender → Parameters)
    (describe : Parameters → Frame → List Outgoing) (next : Parameters → Frame → Parameters)
    (before : Sender) (frame : Frame) (packets : List Packet) (after : Sender) : Prop where
  packetized : packetize before frame = .ok (packets, after)
  sent : (packets, base after) =
    Packetizer.sendAll false (describe (parameters before) frame) (base before)
  kept : parameters after = next (parameters before) frame

theorem packetize_all_arrives
    {packetize : Sender → Frame → Except String (List Packet × Sender)}
    {base : Sender → Packetizer} {parameters : Sender → Parameters}
    {describe : Parameters → Frame → List Outgoing} {next : Parameters → Frame → Parameters}
    (timestamps : ∀ current frame, ∀ out ∈ describe current frame, out.timestamp < 2 ^ 32)
    {frames : List Frame}
    (sends : ∀ frame ∈ frames, ∀ self, ∃ packets after,
      Sends packetize base parameters describe next self frame packets after) (self : Sender) :
    ∃ (sent : List (List Packet)) (last : Sender) (received : List (List ParsedPacket)),
      packetizeAll packetize self frames = .ok (sent, last) ∧
      sent.map (·.map fun packet => parse packet.bytes) = received.map (·.map some) ∧
      received.map (·.map (·.outgoing)) = describeAll describe next (parameters self) frames ∧
      received.flatten.map (·.sequenceNumber) =
        (List.range received.flatten.length).map fun index =>
          ((base self).seq + index) % 65536 := by
  induction frames generalizing self with
  | nil => exact ⟨[], self, [], rfl, rfl, rfl, rfl⟩
  | cons frame rest ih =>
      obtain ⟨packets, after, here⟩ := sends frame List.mem_cons_self self
      obtain ⟨sent, last, received, packetized, parsed, described, numbered⟩ :=
        ih (fun other member => sends other (List.mem_cons_of_mem _ member)) after
      refine ⟨packets :: sent, last,
        Packetizer.arrivals (base self) (describe (parameters self) frame) :: received,
        ?_, ?_, ?_, ?_⟩
      · rw [packetizeAll, here.packetized]
        change (packetizeAll packetize after rest >>= fun later => _) = _
        rw [packetized]
        rfl
      · have first := Packetizer.parse_send_all false (describe (parameters self) frame) (base self)
        rw [← here.sent] at first
        rw [List.map_cons, List.map_cons, first, parsed]
      · rw [List.map_cons, described, describeAll, here.kept,
          Packetizer.arrivals_outgoing _ (timestamps _ _)]
      · have seq : (base after).seq =
            ((base self).seq + (describe (parameters self) frame).length) % 65536 := by
          rw [← Packetizer.send_all_seq false, ← here.sent]
        rw [List.flatten_cons, List.map_append, numbered,
          Packetizer.arrivals_sequence_numbers, List.length_append,
          Packetizer.arrivals_length, seq]
        exact (SerialNumber.successive_add _ _ _).symm

/-- Some of the packets of a run, in the order sent, each with its place among all. -/
def Survivors (packetize : Sender → Frame → Except String (List Packet × Sender))
    (self : Sender) (frames : List Frame) (received : List (ParsedPacket × Nat)) : Prop :=
  ∃ (sent : List (List Packet)) (last : Sender) (packets : List ParsedPacket),
    packetizeAll packetize self frames = .ok (sent, last) ∧
      sent.flatten.map (fun packet => parse packet.bytes) = packets.map some ∧
      received.Sublist packets.zipIdx

def sentPackets (packetize : Sender → Frame → Except String (List Packet × Sender))
    (self : Sender) (frames : List Frame) : List ParsedPacket :=
  match packetizeAll packetize self frames with
  | .ok made => made.1.flatten.filterMap fun packet => parse packet.bytes
  | .error _ => []

theorem survivors_iff
    {packetize : Sender → Frame → Except String (List Packet × Sender)}
    {base : Sender → Packetizer} {parameters : Sender → Parameters}
    {describe : Parameters → Frame → List Outgoing} {next : Parameters → Frame → Parameters}
    (timestamps : ∀ current frame, ∀ out ∈ describe current frame, out.timestamp < 2 ^ 32)
    {frames : List Frame}
    (sends : ∀ frame ∈ frames, ∀ self, ∃ packets after,
      Sends packetize base parameters describe next self frame packets after) (self : Sender) :
    (sentPackets packetize self frames).map (·.outgoing) =
        (describeAll describe next (parameters self) frames).flatten ∧
      ∀ received, Survivors packetize self frames received ↔
        received.Sublist (sentPackets packetize self frames).zipIdx := by
  obtain ⟨sent, last, arrived, packetized, parsed, described, _⟩ :=
    packetize_all_arrives timestamps sends self
  have flat : sent.flatten.map (fun packet => parse packet.bytes) = arrived.flatten.map some := by
    rw [List.map_flatten, List.map_flatten, parsed]
  have all : sentPackets packetize self frames = arrived.flatten := by
    have filtered := congrArg (List.filterMap id) flat
    rw [List.filterMap_map, List.filterMap_map, Function.id_comp, Function.id_comp,
      List.filterMap_some] at filtered
    rw [sentPackets, packetized]
    exact filtered
  rw [all]
  refine ⟨by rw [List.map_flatten, described], ?_⟩
  intro received
  constructor
  · rintro ⟨other, _, packets, ran, read, some⟩
    rw [ran] at packetized
    injection packetized with both
    injection both with same _
    rw [same, flat] at read
    rwa [List.map_injective_iff.mpr (Option.some_injective _) read]
  · intro some
    exact ⟨sent, last, arrived.flatten, packetized, flat, some⟩

theorem sent_packets_numbered
    {packetize : Sender → Frame → Except String (List Packet × Sender)}
    {base : Sender → Packetizer} {parameters : Sender → Parameters}
    {describe : Parameters → Frame → List Outgoing} {next : Parameters → Frame → Parameters}
    (timestamps : ∀ current frame, ∀ out ∈ describe current frame, out.timestamp < 2 ^ 32)
    {frames : List Frame}
    (sends : ∀ frame ∈ frames, ∀ self, ∃ packets after,
      Sends packetize base parameters describe next self frame packets after) (self : Sender) :
    (sentPackets packetize self frames).map (·.sequenceNumber) =
      (List.range (sentPackets packetize self frames).length).map fun index =>
        ((base self).seq + index) % 65536 := by
  obtain ⟨sent, last, received, packetized, parsed, -, numbered⟩ :=
    packetize_all_arrives timestamps sends self
  have all : sentPackets packetize self frames = received.flatten := by
    have flat := congrArg (fun groups => (List.flatten groups).filterMap id) parsed
    simp only [← List.map_flatten, List.filterMap_map, Function.id_comp, List.filterMap_some]
      at flat
    rw [sentPackets, packetized]
    exact flat
  rw [all]
  exact numbered

theorem describe_all_const (describe : Parameters → Frame → List Outgoing)
    (parameters : Parameters) (frames : List Frame) :
    describeAll describe (fun kept _ => kept) parameters frames =
      frames.map (describe parameters) := by
  induction frames with
  | nil => rfl
  | cons frame rest ih => rw [describeAll, List.map_cons, ih]

theorem describe_all_member {describe : Parameters → Frame → List Outgoing}
    {next : Parameters → Frame → Parameters} {frames : List Frame} {parameters : Parameters}
    {group : List Outgoing} (member : group ∈ describeAll describe next parameters frames) :
    ∃ current, ∃ frame ∈ frames, group = describe current frame := by
  induction frames generalizing parameters with
  | nil => simp [describeAll] at member
  | cons frame rest ih =>
      cases List.mem_cons.mp member with
      | inl here => exact ⟨parameters, frame, List.mem_cons_self, here⟩
      | inr later =>
          obtain ⟨current, other, otherMember, same⟩ := ih later
          exact ⟨current, other, List.mem_cons_of_mem _ otherMember, same⟩

theorem describe_all_get (describe : Parameters → Frame → List Outgoing)
    (next : Parameters → Frame → Parameters) (frames : List Frame) (parameters : Parameters)
    (index : Nat) :
    (describeAll describe next parameters frames)[index]? =
      frames[index]?.map (describe ((frames.take index).foldl next parameters)) := by
  induction frames generalizing parameters index with
  | nil => rfl
  | cons frame rest ih =>
      cases index with
      | zero => rfl
      | succ index => exact ih (next parameters frame) index

@[simp] theorem describe_all_length (describe : Parameters → Frame → List Outgoing)
    (next : Parameters → Frame → Parameters) (frames : List Frame) (parameters : Parameters) :
    (describeAll describe next parameters frames).length = frames.length := by
  induction frames generalizing parameters with
  | nil => rfl
  | cons frame rest ih => rw [describeAll, List.length_cons, ih, List.length_cons]

theorem received_at {received : List (List ParsedPacket)} {frames : List Frame}
    {describe : Parameters → Frame → List Outgoing} {next : Parameters → Frame → Parameters}
    {parameters : Parameters}
    (described : received.map (·.map (·.outgoing)) = describeAll describe next parameters frames)
    {index : Nat} {packets : List ParsedPacket} (there : received[index]? = some packets) :
    ∃ frame, frames[index]? = some frame ∧
      packets.map (·.outgoing) = describe ((frames.take index).foldl next parameters) frame := by
  have entry : some (packets.map (·.outgoing)) =
      frames[index]?.map (describe ((frames.take index).foldl next parameters)) := by
    rw [← describe_all_get, ← described, List.getElem?_map, there]
    rfl
  obtain ⟨frame, frameThere, same⟩ := Option.map_eq_some_iff.mp entry.symm
  exact ⟨frame, frameThere, same.symm⟩

theorem received_member {received : List (List ParsedPacket)} {groups : List (List Outgoing)}
    (described : received.map (·.map (·.outgoing)) = groups) {packets : List ParsedPacket}
    (member : packets ∈ received) : packets.map (·.outgoing) ∈ groups := by
  rw [← described]
  exact List.mem_map_of_mem member

theorem received_forall₂ {received : List (List ParsedPacket)} {frames : List Frame}
    {describe : Frame → List Outgoing}
    (described : received.map (·.map (·.outgoing)) = frames.map describe) :
    List.Forall₂ (fun frame packets => describe frame = packets.map (·.outgoing))
      frames received := by
  have equal : List.Forall₂ (· = ·) (frames.map describe) (received.map (·.map (·.outgoing))) := by
    rw [described]
    exact List.forall₂_refl _
  rw [List.forall₂_map_left_iff, List.forall₂_map_right_iff] at equal
  exact equal

theorem run_received {State : Type}
    {depacketize : State → ParsedPacket → State × List DepacketizerEvent}
    (reads : ∀ state packet, depacketize state packet = depacketize state packet.outgoing.packet)
    (state : State) (packets : List ParsedPacket) :
    run depacketize state packets =
      run (fun current out => depacketize current out.packet) state
        (packets.map (·.outgoing)) := by
  induction packets generalizing state with
  | nil => rfl
  | cons packet rest ih =>
      have first := reads state packet
      rw [List.map_cons, run, run, first, ih]

/-- Packets whose description marks the end of each frame and makes the depacketizer hand
out one chunk a frame: the whole stream arrives, numbered, marked and reassembled. -/
theorem stream_arrives {State : Type}
    {packetize : Sender → Frame → Except String (List Packet × Sender)}
    {base : Sender → Packetizer} {parameters : Sender → Parameters}
    {describe : Parameters → Frame → List Outgoing} {next : Parameters → Frame → Parameters}
    {depacketize : State → ParsedPacket → State × List DepacketizerEvent} {Inv : State → Prop}
    {event : Frame → DepacketizerEvent} {frames : List Frame}
    (timestamps : ∀ current frame, ∀ out ∈ describe current frame, out.timestamp < 2 ^ 32)
    (sends : ∀ frame ∈ frames, ∀ self, ∃ packets after,
      Sends packetize base parameters describe next self frame packets after)
    (marked : ∀ current, ∀ frame ∈ frames, ∃ count,
      (describe current frame).map (·.marker) = List.replicate count false ++ [true])
    (reads : ∀ state packet, depacketize state packet = depacketize state packet.outgoing.packet)
    (handsOut : ∀ current, ∀ frame ∈ frames, ∀ state, Inv state →
      ∃ after, Inv after ∧
        run (fun state out => depacketize state out.packet) state (describe current frame) =
          (after, [event frame]))
    (self : Sender) {depacketizer : State} (ready : Inv depacketizer) :
    ∃ (sent : List (List Packet)) (last : Sender) (received : List (List ParsedPacket)),
      packetizeAll packetize self frames = .ok (sent, last) ∧
      sent.map (·.map fun packet => parse packet.bytes) = received.map (·.map some) ∧
      received.map (·.map (·.outgoing)) = describeAll describe next (parameters self) frames ∧
      received.flatten.map (·.sequenceNumber) =
        (List.range received.flatten.length).map (fun index => ((base self).seq + index) % 65536) ∧
      (∀ packets ∈ received, ∃ count,
        packets.map (·.marker) = List.replicate count false ++ [true]) ∧
      (run depacketize depacketizer received.flatten).2 = frames.map event := by
  obtain ⟨sent, last, received, packetized, parsed, described, numbered⟩ :=
    packetize_all_arrives timestamps sends self
  refine ⟨sent, last, received, packetized, parsed, described, numbered, ?_, ?_⟩
  · intro packets member
    obtain ⟨current, frame, frameMember, same⟩ :=
      describe_all_member (received_member described member)
    obtain ⟨count, markers⟩ := marked current frame frameMember
    refine ⟨count, ?_⟩
    rw [← markers, ← same, List.map_map]
    rfl
  · have flat : received.flatten.map (·.outgoing) =
        (describeAll describe next (parameters self) frames).flatten := by
      rw [← described, List.map_flatten]
    rw [run_received reads, flat]
    exact run_describe_all handsOut (parameters self) ready

end Streams

def smallPackets : Packetizer where
  mtu := 100
  ssrc := 1
  payloadType := 96
  seq := 65535
  mtu_range := by decide
  payload_type_range := dynamic_type_lt
  seq_range := last_number_lt

end RtpPacket.Codec
