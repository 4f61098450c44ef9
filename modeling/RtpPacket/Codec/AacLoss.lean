import RtpPacket.Codec.AacStream
import RtpPacket.Lib.Parts

/-!
# AAC with losses

The depacketizer tells units apart by their announced sizes alone, and a unit is
complete when as many bytes have come. Fragments of two units of one size can add up to
that; where none do, every unit handed out is one that was sent, with its timestamp.
-/

namespace RtpPacket.Codec.Aac

open ByteCodec Rtp Run Word

set_option autoImplicit false

def piece (out : Outgoing) : Bytes := out.payload.drop 4

def unitGroups (mtu : Nat) (units : List (Nat × Bytes)) : List (Nat × List Outgoing) :=
  units.map fun unit => (unit.1, auOutgoing mtu unit.1 unit.2)

section Units

variable {mtu : Nat} {units : List (Nat × Bytes)}

theorem fragment_outgoing_pieces (size rtpTs : Nat) (marker first : Bool) (pieces : List Bytes) :
    (fragmentOutgoing (fun _ _ => auDescriptor size) rtpTs marker first pieces).map piece =
      pieces := by
  induction pieces generalizing first with
  | nil => rfl
  | cons fragment rest ih =>
      rw [fragmentOutgoing, List.map_cons, ih]
      apply congrArg (· :: rest)
      exact List.drop_left' (header_section_length _)

theorem au_outgoing_pieces (mtu rtpTs : Nat) (data : Bytes) :
    (auOutgoing mtu rtpTs data).map piece = framePieces 4 mtu data :=
  fragment_outgoing_pieces data.length rtpTs true true (framePieces 4 mtu data)

theorem whole_unit (mtuRange : 100 ≤ mtu) {rtpTs : Nat} {data : Bytes} (some : data ≠ [])
    {outs : List Outgoing} (part : outs.Sublist (auOutgoing mtu rtpTs data))
    (length : (outs.map piece).flatten.length = data.length) : (outs.map piece).flatten = data := by
  obtain ⟨_, pieces, whole⟩ := @frame_pieces 4 mtu data (by decide) mtuRange some
  have kept := part.map piece
  rw [au_outgoing_pieces] at kept
  have all := Parts.eq_of_flatten_length kept (fun fragment member => (pieces fragment member).1)
    (by rw [length, whole])
  rw [all, whole]

theorem part_length_le (mtuRange : 100 ≤ mtu) {rtpTs : Nat} {data : Bytes} (some : data ≠ [])
    {outs : List Outgoing} (part : outs.Sublist (auOutgoing mtu rtpTs data)) :
    (outs.map piece).flatten.length ≤ data.length := by
  have kept := Parts.flatten_length_le (part.map piece)
  rwa [au_outgoing_pieces,
    (@frame_pieces 4 mtu data (by decide) mtuRange some).2.2] at kept

theorem au_outgoing_read (mtuRange : 100 ≤ mtu) {rtpTs : Nat} {data : Bytes} (some : data ≠ [])
    {out : Outgoing} (member : out ∈ auOutgoing mtu rtpTs data) :
    out = ⟨auDescriptor data.length ++ piece out, rtpTs, out.marker⟩ ∧
      (piece out).length ≤ data.length := by
  obtain ⟨time, fragment, payload, _⟩ := au_outgoing_member mtuRange some member
  have behind : piece out = fragment := by
    rw [piece, payload]
    exact List.drop_left' (header_section_length _)
  have length := part_length_le mtuRange some (List.singleton_sublist.mpr member)
  rw [List.map_singleton, List.flatten_singleton] at length
  refine ⟨?_, length⟩
  rw [behind, ← payload, ← time]

theorem unit_groups_keyed (group : Nat × List Outgoing) (member : group ∈ unitGroups mtu units) :
    ∀ out ∈ group.2, out.timestamp = group.1 := by
  obtain ⟨unit, _, rfl⟩ := List.mem_map.mp member
  intro out inside
  exact (fragment_outgoing_member inside).1

end Units

namespace AacDepacketizer

/-- What is held are the pieces of some of the packets so far, the first of which gave the
timestamp. -/
structure Holds (past : List Outgoing) (state : AacDepacketizer) : Prop where
  listening : state.callbacks.output = true
  held : ∀ fragments ∈ state.fragments, ∃ first rest, (first :: rest).Sublist past ∧
    fragments = (first :: rest).map piece ∧ state.fragmentTimestamp = first.timestamp ∧
    state.receivedSize = fragments.flatten.length

def announcedSize (payload : Bytes) : Nat :=
  (readHeader (readBE 2 payload auHeadersLengthPrefixBytes)).size

/-- The last fragment of a unit arrives, and makes up the announced size with the
fragments held. -/
structure Completes (state : AacDepacketizer) (packet : ParsedPacket) : Prop where
  held : state.fragments.isSome = true
  marker : packet.marker = true
  expected : state.expectedSize = announcedSize packet.payload
  received : state.receivedSize + (packet.payload.length - 4) = state.expectedSize

/-- The fragments that a packet completes are those of its own unit, by the timestamp. -/
def OwnFragments (self : AacDepacketizer) (packet : ParsedPacket) : Prop :=
  self.Completes packet → packet.timestamp = self.fragmentTimestamp

theorem completes_iff (self : AacDepacketizer) (packet : ParsedPacket) :
    self.Completes packet ↔
      self.fragments.isSome = true ∧ packet.marker = true ∧
        self.expectedSize = announcedSize packet.payload ∧
        self.receivedSize + (packet.payload.length - 4) = self.expectedSize :=
  ⟨fun completes => ⟨completes.held, completes.marker, completes.expected, completes.received⟩,
    fun all => ⟨all.1, all.2.1, all.2.2.1, all.2.2.2⟩⟩

instance (self : AacDepacketizer) (packet : ParsedPacket) : Decidable (self.Completes packet) :=
  decidable_of_iff _ (self.completes_iff packet).symm

instance (self : AacDepacketizer) (packet : ParsedPacket) :
    Decidable (self.OwnFragments packet) :=
  inferInstanceAs (Decidable (self.Completes packet → packet.timestamp = self.fragmentTimestamp))

theorem own_fragments_outgoing {self : AacDepacketizer} {packet : ParsedPacket}
    (own : self.OwnFragments packet) : self.OwnFragments packet.outgoing.packet := by
  intro completes
  exact own ((self.completes_iff packet).mpr
    ((self.completes_iff packet.outgoing.packet).mp completes))

theorem announced_size {size : Nat} (short : size ≤ maxAuSize) (fragment : Bytes) :
    announcedSize (auDescriptor size ++ fragment) = size := by
  have announced : ∀ header ∈ [(size, (0 : Fin 8))], header.1 ≤ maxAuSize := by
    intro header member
    rw [List.mem_singleton.mp member]
    exact short
  have read := (read_header_section announced (show 1 * auHeaderBits < 65536 by decide)
    fragment).2
  exact congrArg AuHeader.size (List.singleton_inj.mp read)

/-- A fragment is held alone, or behind the fragments of a unit of the same size. -/
theorem append_fragment_cases (self : AacDepacketizer) (fragment : Bytes) (size packetTs : Nat) :
    (self.beginFragments size packetTs).1.appendFragment fragment =
        self.holding size packetTs [fragment] ∨
      ∃ fragments, self.fragments = some fragments ∧ self.expectedSize = size ∧
        (self.beginFragments size packetTs).1.appendFragment fragment =
          { self with
            fragments := some (fragments ++ [fragment])
            receivedSize := self.receivedSize + fragment.length } := by
  by_cases begins : (self.fragments.isNone || self.expectedSize != size) = true
  · left
    rw [beginFragments, if_pos begins]
    simp [appendFragment, holding]
  · right
    have continues : ¬ self.fragments = none ∧ self.expectedSize = size := by
      simpa using begins
    obtain ⟨fragments, held⟩ := Option.ne_none_iff_exists'.mp continues.1
    refine ⟨fragments, held, continues.2, ?_⟩
    rw [beginFragments, if_neg begins, appendFragment, held]
    rfl

theorem begin_fragments_no_output (self : AacDepacketizer) (size packetTs : Nat)
    (output : OutputChunk) : .output output ∉ (self.beginFragments size packetTs).2 := by
  rw [beginFragments]
  dsimp only
  split_ifs
  · exact self.callbacks.emit_error_no_output _ output
  · exact List.not_mem_nil
  · exact List.not_mem_nil

theorem finish_fragments_reset (self : AacDepacketizer) :
    self.finishFragments.1 = self.resetFragmentState := by
  rw [finishFragments]
  split_ifs <;> rfl

theorem finish_fragments_output {self : AacDepacketizer} {output : OutputChunk}
    (emitted : .output output ∈ self.finishFragments.2) :
    self.receivedSize = self.expectedSize ∧
      output = ⟨(self.fragments.getD []).flatten, self.fragmentTimestamp, .key⟩ := by
  rw [finishFragments] at emitted
  by_cases whole : self.receivedSize = self.expectedSize
  · refine ⟨whole, ?_⟩
    rw [if_neg (not_not_intro whole)] at emitted
    injection List.mem_singleton.mp emitted
  · rw [if_pos whole] at emitted
    exact absurd emitted (self.callbacks.emit_error_no_output _ output)

theorem append_fragment_holds {past : List Outgoing} {self : AacDepacketizer}
    (holds : Holds past self) {out : Outgoing} (size : Nat) :
    Holds (past ++ [out])
      ((self.beginFragments size out.timestamp).1.appendFragment (piece out)) := by
  cases self.append_fragment_cases (piece out) size out.timestamp with
  | inl alone =>
      rw [alone]
      refine ⟨holds.listening, ?_⟩
      intro fragments held
      cases held
      exact ⟨out, [], List.sublist_append_right past [out], rfl, rfl, rfl⟩
  | inr behind =>
      obtain ⟨fragments, held, _, appended⟩ := behind
      obtain ⟨first, rest, part, pieces, stamp, received⟩ := holds.held fragments held
      rw [appended]
      refine ⟨holds.listening, ?_⟩
      intro extended extendedHeld
      cases extendedHeld
      refine ⟨first, rest ++ [out], part.append_right [out], ?_, stamp, ?_⟩
      · rw [pieces, ← List.cons_append, List.map_append]
        rfl
      · rw [List.flatten_append, List.flatten_singleton, List.length_append, ← received]

theorem completed_unit {mtu : Nat} (mtuRange : 100 ≤ mtu) {units : List (Nat × Bytes)}
    (distinct : (units.map Prod.fst).Nodup)
    (valid : ∀ unit ∈ units, unit.2 ≠ [] ∧ unit.2.length ≤ maxAuSize)
    {past : List Outgoing} {self : AacDepacketizer} (holds : Holds past self) {out : Outgoing}
    (sent : (past ++ [out]).Sublist ((unitGroups mtu units).flatMap Prod.snd))
    (own : self.OwnFragments out.packet) {fragments : List Bytes}
    (held : self.fragments = some fragments) (marked : out.marker = true)
    (expected : self.expectedSize = announcedSize out.payload)
    (whole : self.receivedSize + (piece out).length = self.expectedSize) :
    ∃ unit ∈ units, self.fragmentTimestamp = unit.1 ∧
      (fragments ++ [piece out]).flatten = unit.2 := by
  obtain ⟨first, rest, part, pieces, stamp, received⟩ := holds.held fragments held
  have length : out.payload.length - 4 = (piece out).length := by
    rw [piece, List.length_drop]
  have completes : self.Completes out.packet := by
    refine ⟨?_, marked, expected, ?_⟩
    · rw [held]
      rfl
    · rw [← whole, ← length]
      rfl
  have same : first.timestamp = out.timestamp := by
    rw [← stamp]
    exact (own completes).symm
  have keys : ((unitGroups mtu units).map Prod.fst).Nodup := by
    rwa [unitGroups, List.map_map]
  obtain ⟨group, groupMember, together⟩ := Parts.of_one_group (·.timestamp) unit_groups_keyed keys
    ((part.append_right [out]).trans sent) same
  obtain ⟨unit, member, rfl⟩ := List.mem_map.mp groupMember
  obtain ⟨some, short⟩ := valid unit member
  have inside := together.subset (List.mem_append_right _ (List.mem_singleton.mpr rfl))
  obtain ⟨shape, _⟩ := au_outgoing_read mtuRange some inside
  have size : announcedSize out.payload = unit.2.length := by
    rw [shape]
    exact announced_size short _
  have joined : ((first :: rest ++ [out]).map piece) = fragments ++ [piece out] := by
    rw [List.map_append, pieces]
    rfl
  refine ⟨unit, member, ?_, ?_⟩
  · rw [stamp, same, shape]
  · rw [← joined]
    apply whole_unit mtuRange some together
    rw [joined, List.flatten_append, List.flatten_singleton, List.length_append, ← received, whole,
      expected, size]

theorem holds_reset (past : List Outgoing) {self : AacDepacketizer}
    (listening : self.callbacks.output = true) : Holds past self.resetFragmentState := by
  refine ⟨listening, ?_⟩
  intro fragments held
  cases held

theorem handle_fragment_holds {past : List Outgoing} {self : AacDepacketizer}
    (holds : Holds past self) (out : Outgoing) (size : Nat) :
    Holds (past ++ [out])
      (self.handleFragment (piece out) size out.timestamp out.marker).1 := by
  have kept := @append_fragment_holds past self holds out size
  rw [handleFragment]
  cases out.marker with
  | false => exact kept
  | true =>
      rw [if_pos rfl]
      dsimp only
      rw [finish_fragments_reset]
      exact holds_reset _ kept.listening

/-- A fragment hands out a unit only as the last one of it, when the others are held. -/
theorem handle_fragment_output {self : AacDepacketizer} {fragment : Bytes} {size packetTs : Nat}
    {marker : Bool} (shorter : fragment.length < size) {output : OutputChunk}
    (emitted : .output output ∈ (self.handleFragment fragment size packetTs marker).2) :
    marker = true ∧ self.expectedSize = size ∧
      self.receivedSize + fragment.length = self.expectedSize ∧
      ∃ fragments, self.fragments = some fragments ∧
        output = ⟨(fragments ++ [fragment]).flatten, self.fragmentTimestamp, .key⟩ := by
  have quiet := self.begin_fragments_no_output size packetTs output
  rw [handleFragment] at emitted
  cases marked : marker with
  | false =>
      rw [marked] at emitted
      exact absurd emitted quiet
  | true =>
      rw [if_pos marked] at emitted
      cases List.mem_append.mp emitted with
      | inl dropped => exact absurd dropped quiet
      | inr finished =>
          obtain ⟨whole, handed⟩ := finish_fragments_output finished
          cases self.append_fragment_cases fragment size packetTs with
          | inl alone =>
              rw [alone] at whole
              change [fragment].flatten.length = size at whole
              rw [List.flatten_singleton] at whole
              omega
          | inr behind =>
              obtain ⟨fragments, held, expected, appended⟩ := behind
              rw [appended] at whole handed
              exact ⟨rfl, expected, whole, fragments, held, handed⟩

theorem depacketize_keeps {mtu : Nat} (mtuRange : 100 ≤ mtu) {units : List (Nat × Bytes)}
    (distinct : (units.map Prod.fst).Nodup)
    (valid : ∀ unit ∈ units, unit.2 ≠ [] ∧ unit.2.length ≤ maxAuSize)
    {past : List Outgoing} {self : AacDepacketizer} (holds : Holds past self) {out : Outgoing}
    (sent : (past ++ [out]).Sublist ((unitGroups mtu units).flatMap Prod.snd))
    (own : self.OwnFragments out.packet) :
    Holds (past ++ [out]) (self.depacketize out.packet).1 ∧
      ∀ output, .output output ∈ (self.depacketize out.packet).2 →
        ∃ unit ∈ units, output.timestamp = unit.1 ∧ output.data = unit.2 := by
  obtain ⟨group, groupMember, inside⟩ := List.mem_flatMap.mp
    (sent.subset (List.mem_append_right past (List.mem_singleton.mpr rfl)))
  obtain ⟨unit, member, rfl⟩ := List.mem_map.mp groupMember
  obtain ⟨some, short⟩ := valid unit member
  obtain ⟨shape, fits⟩ := au_outgoing_read mtuRange some inside
  have time : out.timestamp = unit.1 := congrArg Outgoing.timestamp shape
  have read : self.depacketize out.packet =
      if (piece out).length < unit.2.length then
        self.handleFragment (piece out) unit.2.length out.timestamp out.marker
      else (self.resetFragmentState, [.output ⟨piece out, unit.1, .key⟩]) := by
    rw [time, ← self.depacketize_unit holds.listening short fits, ← shape]
  rw [read]
  by_cases shorter : (piece out).length < unit.2.length
  · rw [if_pos shorter]
    refine ⟨handle_fragment_holds holds out unit.2.length, ?_⟩
    intro output emitted
    obtain ⟨marked, expected, whole, fragments, held, handed⟩ :=
      handle_fragment_output shorter emitted
    have announced : self.expectedSize = announcedSize out.payload := by
      rw [expected, shape, announced_size short]
    rw [handed]
    exact completed_unit mtuRange distinct valid holds sent own held marked announced whole
  · rw [if_neg shorter]
    refine ⟨holds_reset _ holds.listening, ?_⟩
    intro output emitted
    injection List.mem_singleton.mp emitted with same
    have whole := whole_unit mtuRange some (List.singleton_sublist.mpr inside)
    rw [List.map_singleton, List.flatten_singleton] at whole
    rw [same]
    exact ⟨unit, member, rfl, whole (by omega)⟩

theorem run_keeps_units {mtu : Nat} (mtuRange : 100 ≤ mtu) {units : List (Nat × Bytes)}
    (distinct : (units.map Prod.fst).Nodup)
    (valid : ∀ unit ∈ units, unit.2 ≠ [] ∧ unit.2.length ≤ maxAuSize)
    {past : List Outgoing} {self : AacDepacketizer} (holds : Holds past self)
    {packets : List ParsedPacket}
    (sent : (past ++ packets.map (·.outgoing)).Sublist ((unitGroups mtu units).flatMap Prod.snd))
    (own : Always depacketize OwnFragments self packets) {output : OutputChunk}
    (handed : .output output ∈ (run depacketize self packets).2) :
    ∃ unit ∈ units, output.timestamp = unit.1 ∧ output.data = unit.2 := by
  induction packets generalizing past self with
  | nil => cases handed
  | cons packet rest ih =>
      obtain ⟨now, later⟩ := own
      have split : past ++ (packet :: rest).map (·.outgoing) =
          past ++ [packet.outgoing] ++ rest.map (·.outgoing) := by
        rw [List.append_assoc]
        rfl
      rw [split] at sent
      have step := depacketize_keeps mtuRange distinct valid holds
        ((List.sublist_append_left _ _).trans sent) (own_fragments_outgoing now)
      cases List.mem_append.mp handed with
      | inl here => exact step.2 output here
      | inr there => exact ih step.1 sent later there

end AacDepacketizer

def Intact (data : Chunk → Bytes) (clockRate : Nat) (chunks : List Chunk) (output : OutputChunk) :
    Prop :=
  ∃ chunk ∈ chunks, output.timestamp = usToRtp chunk.timestamp clockRate ∧
    output.data = data chunk

/-- Whatever is lost, what is handed out are units as they were sent, when no packet
completes fragments of another one. -/
theorem aac_loss_keeps_units (self : AacPacketizer) {chunks : List Chunk} {data : Chunk → Bytes}
    (sendable : ∀ chunk ∈ chunks, AacPacketizer.Sendable data chunk)
    (distinct : (chunks.map fun chunk => usToRtp chunk.timestamp self.clockRate).Nodup)
    {received : List (ParsedPacket × Nat)}
    (survivors : Survivors AacPacketizer.packetize self chunks received)
    {opts : AacDepacketizerOptions} {depacketizer : AacDepacketizer}
    (fresh : AacDepacketizer.new opts = .ok depacketizer)
    (own : Always AacDepacketizer.depacketize AacDepacketizer.OwnFragments depacketizer
      (received.map Prod.fst))
    {output : OutputChunk}
    (handed : .output output ∈
      (run AacDepacketizer.depacketize depacketizer (received.map Prod.fst)).2) :
    Intact data self.clockRate chunks output := by
  let units := chunks.map fun chunk => (usToRtp chunk.timestamp self.clockRate, data chunk)
  have valid (unit : Nat × Bytes) (member : unit ∈ units) :
      unit.2 ≠ [] ∧ unit.2.length ≤ maxAuSize := by
    obtain ⟨chunk, chunkMember, rfl⟩ := List.mem_map.mp member
    exact ⟨(sendable chunk chunkMember).nonempty, (sendable chunk chunkMember).size.2⟩
  obtain ⟨described, sublist⟩ := survivors_iff (AacPacketizer.describe_timestamps data)
    (fun chunk member => AacPacketizer.packetize_sends (sendable chunk member)) self
  have groups : (sentPackets AacPacketizer.packetize self chunks).map (·.outgoing) =
      (unitGroups self.base.mtu units).flatMap Prod.snd := by
    rw [described, describe_all_const, unitGroups, List.map_map, List.flatMap_map]
    rfl
  have left : (received.map Prod.fst).Sublist
      (sentPackets AacPacketizer.packetize self chunks) := by
    have kept := ((sublist received).mp survivors).map Prod.fst
    rwa [List.zipIdx_map_fst] at kept
  have sent := left.map (·.outgoing)
  rw [groups] at sent
  have holds : AacDepacketizer.Holds [] depacketizer := by
    obtain ⟨listening, idle⟩ := AacDepacketizer.new_ready fresh
    refine ⟨listening, ?_⟩
    rw [idle]
    intro fragments held
    cases held
  obtain ⟨unit, member, time, bytes⟩ := AacDepacketizer.run_keeps_units self.base.mtu_range.1
    (by rwa [List.map_map]) valid holds sent own handed
  obtain ⟨chunk, chunkMember, rfl⟩ := List.mem_map.mp member
  exact ⟨chunk, chunkMember, time, bytes⟩

def chunkOf (data : Bytes) (timestamp : Rat) : Chunk := ⟨some data, none, timestamp⟩

def unitOf (chunk : Chunk) : Bytes := chunk.data.getD []

def smallPacketizer : AacPacketizer := ⟨smallPackets, 48000⟩

theorem survivors_sendable (self : AacPacketizer) {chunks : List Chunk}
    (sendable : ∀ chunk ∈ chunks, AacPacketizer.Sendable unitOf chunk)
    {received : List (ParsedPacket × Nat)}
    (left : received.Sublist (sentPackets AacPacketizer.packetize self chunks).zipIdx) :
    Survivors AacPacketizer.packetize self chunks received :=
  ((survivors_iff (AacPacketizer.describe_timestamps unitOf)
    (fun chunk member => AacPacketizer.packetize_sends (sendable chunk member)) self).2
      received).mpr left

theorem sendable_pair {first second : Bytes} (one : 1 ≤ first.length ∧ first.length ≤ 8191)
    (two : 1 ≤ second.length ∧ second.length ≤ 8191) (earlier later : Rat) :
    ∀ chunk ∈ [chunkOf first earlier, chunkOf second later],
      AacPacketizer.Sendable unitOf chunk := by
  intro chunk member
  cases List.mem_cons.mp member with
  | inl here =>
      rw [here]
      exact ⟨rfl, one⟩
  | inr there =>
      rw [List.mem_singleton.mp there]
      exact ⟨rfl, two⟩

def unequalUnits : List Chunk :=
  [chunkOf (List.replicate 97 1) 0, chunkOf (List.replicate 98 2) 1000]

/-- The end of the first unit is lost, and the second one comes out. -/
theorem aac_loss_keeps_unequal :
    Intact unitOf 48000 unequalUnits ⟨List.replicate 98 2, 48, .key⟩ := by
  have sendable : ∀ chunk ∈ unequalUnits, AacPacketizer.Sendable unitOf chunk :=
    sendable_pair (by decide) (by decide) 0 1000
  exact @aac_loss_keeps_units smallPacketizer unequalUnits unitOf sendable (by decide +kernel)
    ((sentPackets AacPacketizer.packetize smallPacketizer unequalUnits).zipIdx.eraseIdx 1)
    (survivors_sendable smallPacketizer sendable (List.eraseIdx_sublist _ 1))
    ⟨⟨true, false⟩, none⟩ newDepacketizer rfl (by decide +kernel) _ (by decide +kernel)

def equalUnits : List Chunk :=
  [chunkOf (List.replicate 97 1) 0, chunkOf (List.replicate 97 2) 1000]

/-- The end of the first unit and the start of the second one are lost: what is left of both
comes out as the first one. -/
theorem lost_packets_splice :
    (equalUnits.map fun chunk => usToRtp chunk.timestamp 48000).Nodup ∧
      Survivors AacPacketizer.packetize smallPacketizer equalUnits
        (((sentPackets AacPacketizer.packetize smallPacketizer equalUnits).zipIdx.eraseIdx
          1).eraseIdx 1) ∧
      .output ⟨List.replicate 96 1 ++ [2], 0, .key⟩ ∈
        (run AacDepacketizer.depacketize newDepacketizer
          ((((sentPackets AacPacketizer.packetize smallPacketizer equalUnits).zipIdx.eraseIdx
            1).eraseIdx 1).map Prod.fst)).2 ∧
      ¬ Intact unitOf 48000 equalUnits ⟨List.replicate 96 1 ++ [2], 0, .key⟩ := by
  have sendable : ∀ chunk ∈ equalUnits, AacPacketizer.Sendable unitOf chunk :=
    sendable_pair (by decide) (by decide) 0 1000
  refine ⟨by decide +kernel, survivors_sendable smallPacketizer sendable
    ((List.eraseIdx_sublist _ 1).trans (List.eraseIdx_sublist _ 1)), by decide +kernel, ?_⟩
  rintro ⟨chunk, member, _, data⟩
  cases List.mem_cons.mp member with
  | inl first =>
      rw [first] at data
      exact absurd data (by decide)
  | inr second =>
      rw [List.mem_singleton.mp second] at data
      exact absurd data (by decide)

end RtpPacket.Codec.Aac
