import RtpPacket.Codec.Aac
import RtpPacket.Codec.Frames

/-!
# AAC streams

Units sent by the packetizer and received in order come out whole, with their
timestamps, whether they fit a packet or not. Packets of several units come out unit by
unit, a constant duration apart.
-/

namespace RtpPacket.Codec.Aac

open ByteCodec Rtp Run Cutting Word

set_option autoImplicit false

/-- Headers behind the length of their section, each a size and an index or its delta. -/
def headerSection (headers : List (Nat × Fin 8)) : Bytes :=
  encodeBE 2 (headers.length * auHeaderBits) ++
    (headers.map fun header => header.1 * 8 + header.2.val).flatMap (encodeBE 2)

def auDescriptor (size : Nat) : Bytes := headerSection [(size, 0)]

def auOutgoing (mtu rtpTs : Nat) (data : Bytes) : List Outgoing :=
  fragmentOutgoing (fun _ _ => auDescriptor data.length) rtpTs true true (framePieces 4 mtu data)

theorem au_payload_eq {size : Nat} (short : size ≤ maxAuSize) (data : Bytes) :
    auPayload (size &&& maxAuSize) data = auDescriptor size ++ data := by
  have bound : size < 2 ^ 13 := Nat.lt_of_le_of_lt short (by decide)
  have kept : size &&& maxAuSize = size := by
    rw [maxAuSize, Nat.one_shiftLeft, Nat.and_two_pow_sub_one_eq_mod]
    exact Nat.mod_eq_of_lt bound
  have shifted : size <<< 3 &&& 0xFFFF = size * 8 := by
    rw [Nat.and_two_pow_sub_one_eq_mod _ 16, Nat.shiftLeft_eq]
    exact Nat.mod_eq_of_lt (by omega)
  rw [auPayload, kept, shifted, ← List.append_assoc]
  rfl

theorem fragment_loop_sends {maxFragSize : Nat} (some : maxFragSize ≠ 0) {data : Bytes}
    (short : data.length ≤ maxAuSize) (rtpTs : Nat) (withMeta first : Bool) (offset : Nat)
    (self : Packetizer) :
    fragmentLoop maxFragSize some data rtpTs withMeta offset self =
      Packetizer.sendAll withMeta
        (fragmentOutgoing (fun _ _ => auDescriptor data.length) rtpTs true first
          (cut maxFragSize (needed maxFragSize (data.length - offset)) (data.drop offset)))
        self := by
  have positive : 0 < maxFragSize := Nat.pos_of_ne_zero some
  induction offset, self using fragmentLoop.induct maxFragSize some data rtpTs withMeta
      generalizing first with
  | case1 offset self inside fragSize fragData isLast made ih =>
      have left : data.length - offset = (data.drop offset).length := by
        rw [List.length_drop]
      have next : data.drop (offset + fragSize) = (data.drop offset).drop maxFragSize := by
        change data.drop (offset + min maxFragSize (data.length - offset)) = _
        rw [left, drop_bounded]
      have piece : fragData = (data.drop offset).take maxFragSize := by
        change (data.drop offset).take (min maxFragSize (data.length - offset)) = _
        rw [left, take_bounded]
      have rest : data.length - (offset + fragSize) = data.length - offset - maxFragSize := by
        change data.length - (offset + min maxFragSize (data.length - offset)) = _
        omega
      have last : isLast = (cut maxFragSize (needed maxFragSize (data.length - offset - maxFragSize))
          ((data.drop offset).drop maxFragSize)).isEmpty := by
        rw [Bool.eq_iff_iff, beq_iff_eq, List.isEmpty_iff_length_eq_zero, cut_length,
          ← rest, needed_eq_zero_iff positive]
        change offset + min maxFragSize (data.length - offset) = data.length ↔
          data.length - (offset + min maxFragSize (data.length - offset)) = 0
        omega
      rw [fragmentLoop, if_pos inside, needed_step positive (by omega), cut, fragmentOutgoing,
        Packetizer.sendAll]
      have built : made = self.makePacket
          (auDescriptor data.length ++ (data.drop offset).take maxFragSize) rtpTs
          ((cut maxFragSize (needed maxFragSize (data.length - offset - maxFragSize))
            ((data.drop offset).drop maxFragSize)).isEmpty && true) withMeta := by
        rw [← piece, ← last, ← au_payload_eq short, Bool.and_true]
        rfl
      have later := ih false
      rw [rest, next] at later
      rw [← built, ← later]
  | case2 offset self outside =>
      have none : data.length - offset = 0 := by omega
      rw [fragmentLoop, if_neg outside, none, (needed_eq_zero_iff positive).mpr rfl]
      rfl

theorem unit_packets_sends {data : Bytes} (some : data ≠ []) (short : data.length ≤ maxAuSize)
    (rtpTs : Nat) (withMeta : Bool) (self : Packetizer) :
    AacPacketizer.unitPackets self data rtpTs withMeta =
      Packetizer.sendAll withMeta (auOutgoing self.mtu rtpTs data) self := by
  have mtuRange := self.mtu_range.1
  have room : self.mtu - (auHeadersLengthPrefixBytes + auHeaderBytes) ≠ 0 := by
    rw [auHeadersLengthPrefixBytes, auHeaderBytes]
    omega
  rw [AacPacketizer.unitPackets, if_neg (by simpa using some), if_neg (Nat.not_lt_of_le short)]
  dsimp only
  rw [dif_neg room, auOutgoing, framePieces]
  by_cases fits : data.length ≤ self.mtu - 4
  · have inside : data.length ≤ self.mtu - (auHeadersLengthPrefixBytes + auHeaderBytes) := fits
    rw [if_pos fits, if_pos inside]
    have built : buildSinglePacket self data rtpTs true withMeta =
        self.makePacket (auDescriptor data.length ++ data) rtpTs true withMeta := by
      rw [← au_payload_eq short]
      rfl
    rw [built]
    rfl
  · have outside : ¬ data.length ≤ self.mtu - (auHeadersLengthPrefixBytes + auHeaderBytes) := fits
    rw [if_neg fits, if_neg outside]
    exact fragment_loop_sends room short rtpTs withMeta true 0 self

theorem au_outgoing_member {mtu rtpTs : Nat} {data : Bytes} (mtuRange : 100 ≤ mtu)
    (some : data ≠ []) {out : Outgoing} (member : out ∈ auOutgoing mtu rtpTs data) :
    out.timestamp = rtpTs ∧ ∃ piece, out.payload = auDescriptor data.length ++ piece ∧
      piece ≠ [] ∧ out.payload.length ≤ mtu := by
  obtain ⟨time, _, _, piece, pieceMember, payload, _⟩ := fragment_outgoing_member member
  obtain ⟨_, pieces, _⟩ := @frame_pieces 4 mtu data (by decide) mtuRange some
  obtain ⟨nonempty, short⟩ := pieces piece pieceMember
  have header : (auDescriptor data.length).length = 4 := rfl
  refine ⟨time, piece, payload, nonempty, ?_⟩
  rw [payload, List.length_append, header]
  omega

theorem au_outgoing_markers {mtu rtpTs : Nat} {data : Bytes} (mtuRange : 100 ≤ mtu)
    (some : data ≠ []) :
    ∃ count, (auOutgoing mtu rtpTs data).map (·.marker) = List.replicate count false ++ [true] :=
  ⟨_, fragment_outgoing_markers true
    (@frame_pieces 4 mtu data (by decide) mtuRange some).1⟩

theorem read_header_word {size : Nat} (short : size ≤ maxAuSize) (delta : Fin 8) :
    readHeader (size * 8 + delta) = ⟨size, delta⟩ := by
  have bound : size < 2 ^ 13 := Nat.lt_of_le_of_lt short (by decide)
  have small := delta.isLt
  have high : (size * 8 + delta.val) >>> 3 &&& maxAuSize = size := by
    rw [maxAuSize, Nat.one_shiftLeft, Nat.and_two_pow_sub_one_eq_mod, Nat.shiftRight_eq_div_pow]
    omega
  have low : (size * 8 + delta.val) &&& maxAuIndexDelta = delta := by
    rw [maxAuIndexDelta, Nat.one_shiftLeft, Nat.and_two_pow_sub_one_eq_mod]
    omega
  rw [readHeader, high, low]

theorem header_section_length (headers : List (Nat × Fin 8)) :
    (headerSection headers).length = 2 + headers.length * 2 := by
  rw [headerSection, List.length_append, encode_be_length, encode_many_length, List.length_map,
    Nat.mul_comm]

theorem read_header_section {headers : List (Nat × Fin 8)}
    (short : ∀ header ∈ headers, header.1 ≤ maxAuSize)
    (few : headers.length * auHeaderBits < 65536) (suffix : Bytes) :
    readBE 2 (headerSection headers ++ suffix) 0 = headers.length * auHeaderBits ∧
      readHeaders (headerSection headers ++ suffix) headers.length =
        headers.map fun header => ⟨header.1, header.2⟩ := by
  constructor
  · rw [headerSection, List.append_assoc, read_be_encode]
    exact Nat.mod_eq_of_lt few
  · have words := read_be_many 2 (headers.map fun header => header.1 * 8 + header.2.val) suffix
    rw [List.length_map] at words
    have behind (index : Nat) :
        readBE 2 (headerSection headers ++ suffix) (auHeadersLengthPrefixBytes + index * 2) =
          readBE 2 ((headers.map fun header => header.1 * 8 + header.2.val).flatMap (encodeBE 2) ++
            suffix) (index * 2) := by
      rw [headerSection, List.append_assoc]
      exact read_be_skip 2 2 _ _ _
    calc readHeaders (headerSection headers ++ suffix) headers.length
        = ((List.range headers.length).map fun index =>
            readBE 2 ((headers.map fun header => header.1 * 8 + header.2.val).flatMap
              (encodeBE 2) ++ suffix) (index * 2)).map readHeader := by
          rw [readHeaders, List.map_map]
          simp only [auHeaderBytes, behind, Function.comp_def]
      _ = headers.map fun header => ⟨header.1, header.2⟩ := by
          rw [words, List.map_map, List.map_map]
          apply List.map_congr_left
          intro header member
          have size := short header member
          have bound : header.1 * 8 + header.2.val < 256 ^ 2 := by
            have small := header.2.isLt
            rw [maxAuSize] at size
            omega
          change readHeader ((header.1 * 8 + header.2.val) % 256 ^ 2) = _
          rw [Nat.mod_eq_of_lt bound, read_header_word size]

namespace AacDepacketizer

theorem new_ready {opts : AacDepacketizerOptions} {depacketizer : AacDepacketizer}
    (fresh : new opts = .ok depacketizer) :
    depacketizer.callbacks.output = true ∧ depacketizer.fragments = none := by
  rw [new, initDepacketizer] at fresh
  split_ifs at fresh
  · cases fresh
    exact ⟨rfl, rfl⟩
  · cases fresh

theorem depacketize_headers (self : AacDepacketizer) (listening : self.callbacks.output = true)
    {headers : List (Nat × Fin 8)} (short : ∀ header ∈ headers, header.1 ≤ maxAuSize)
    (few : headers.length * auHeaderBits < 65536) (suffix : Bytes) {packet : ParsedPacket}
    (payload : packet.payload = headerSection headers ++ suffix) :
    self.depacketize packet = self.takeUnits packet (2 + headers.length * 2)
      (headers.map fun header => ⟨header.1, header.2⟩) := by
  obtain ⟨bits, read⟩ := read_header_section short few suffix
  have section_length := header_section_length headers
  have length : (headerSection headers ++ suffix).length =
      2 + headers.length * 2 + suffix.length := by
    rw [List.length_append, section_length]
  have checked : self.callbacks.checkDepacketizePayload packet auHeadersLengthPrefixBytes =
      true := by
    rw [Callbacks.checkDepacketizePayload, listening, Bool.true_and, decide_eq_true_iff, payload,
      length, auHeadersLengthPrefixBytes]
    omega
  have bytes : auHeadersLengthPrefixBytes + (headers.length * auHeaderBits + 7) >>> 3 =
      2 + headers.length * 2 := by
    rw [auHeadersLengthPrefixBytes, auHeaderBits, Nat.shiftRight_eq_div_pow]
    omega
  have whole : headers.length * auHeaderBits % auHeaderBits = 0 := Nat.mul_mod_left _ _
  have count : headers.length * auHeaderBits / auHeaderBits = headers.length :=
    Nat.mul_div_cancel _ (by decide)
  have inside : ¬ 2 + headers.length * 2 > 2 + headers.length * 2 + suffix.length := by omega
  rw [depacketize, checked, Bool.not_true, if_neg Bool.false_ne_true]
  simp only [payload, bits, bytes, length, whole, count, read, inside, if_false, ne_eq,
    not_true_eq_false]

/-- The size announced tells a fragment from a whole unit. -/
theorem depacketize_unit (self : AacDepacketizer) (listening : self.callbacks.output = true)
    {size : Nat} (short : size ≤ maxAuSize) {piece : Bytes} (fits : piece.length ≤ size)
    (timestamp : Nat) (marker : Bool) :
    self.depacketize (Outgoing.packet ⟨auDescriptor size ++ piece, timestamp, marker⟩) =
      if piece.length < size then self.handleFragment piece size timestamp marker
      else (self.resetFragmentState, [.output ⟨piece, timestamp, .key⟩]) := by
  have announced : ∀ header ∈ [(size, (0 : Fin 8))], header.1 ≤ maxAuSize := by
    intro header member
    rw [List.mem_singleton.mp member]
    exact short
  have length : (headerSection [(size, 0)] ++ piece).length - 4 = piece.length := by
    rw [List.length_append, header_section_length]
    exact @Nat.add_sub_cancel_left 4 piece.length
  have behind : (headerSection [(size, 0)] ++ piece).drop 4 = piece :=
    List.drop_left' (header_section_length _)
  have notMore : ¬ piece.length > size := Nat.not_lt_of_le fits
  rw [depacketize_headers self listening announced (show 1 * auHeaderBits < 65536 by decide) piece
    rfl]
  change self.takeUnits _ 4 [⟨size, 0⟩] = _
  rw [takeUnits]
  simp only [Outgoing.packet, auDescriptor, length, behind, notMore, if_false,
    List.take_of_length_le fits]

def holding (self : AacDepacketizer) (size timestamp : Nat) (held : List Bytes) :
    AacDepacketizer :=
  { self with
    fragments := some held
    expectedSize := size
    fragmentTimestamp := timestamp
    receivedSize := held.flatten.length }

theorem handle_first_fragment {self : AacDepacketizer} (idle : self.fragments = none)
    (piece : Bytes) (size timestamp : Nat) :
    self.handleFragment piece size timestamp false =
      (self.holding size timestamp [piece], []) := by
  simp [handleFragment, beginFragments, appendFragment, holding, idle]

theorem handle_next_fragment (self : AacDepacketizer) (size timestamp : Nat) (held : List Bytes)
    (piece : Bytes) (packetTs : Nat) (markerBit : Bool) :
    (self.holding size timestamp held).handleFragment piece size packetTs markerBit =
      if markerBit then (self.holding size timestamp (held ++ [piece])).finishFragments
      else (self.holding size timestamp (held ++ [piece]), []) := by
  have begun : (self.holding size timestamp held).beginFragments size packetTs =
      (self.holding size timestamp held, []) := by
    simp [beginFragments, holding]
  have appended : (self.holding size timestamp held).appendFragment piece =
      self.holding size timestamp (held ++ [piece]) := by
    simp [appendFragment, holding]
  rw [handleFragment, begun]
  simp only [appended, List.nil_append]

theorem finish_whole (self : AacDepacketizer) {size : Nat} (timestamp : Nat) {held : List Bytes}
    (whole : held.flatten.length = size) :
    (self.holding size timestamp held).finishFragments =
      (self.resetFragmentState, [.output ⟨held.flatten, timestamp, .key⟩]) := by
  rw [finishFragments]
  simp only [holding, whole, ne_eq, not_true_eq_false, if_false]
  rfl

/-- However a unit was sent, it comes out as a whole. -/
theorem run_unit {self : AacDepacketizer} (listening : self.callbacks.output = true)
    (idle : self.fragments = none) {mtu : Nat} (mtuRange : 100 ≤ mtu) (rtpTs : Nat) {data : Bytes}
    (some : data ≠ []) (short : data.length ≤ maxAuSize) :
    run (fun state out => depacketize state out.packet) self (auOutgoing mtu rtpTs data) =
      (self.resetFragmentState, [.output ⟨data, rtpTs, .key⟩]) := by
  obtain ⟨_, pieces, whole⟩ := @frame_pieces 4 mtu data (by decide) mtuRange some
  by_cases fits : data.length ≤ mtu - 4
  · have lone : framePieces 4 mtu data = [data] := by
      rw [framePieces]
      exact if_pos fits
    have received := self.depacketize_unit listening short (Nat.le_refl data.length) rtpTs true
    rw [if_neg (Nat.lt_irrefl _)] at received
    rw [auOutgoing, lone, fragmentOutgoing, fragmentOutgoing, run, run]
    simp only [List.isEmpty_nil, Bool.true_and, received, List.append_nil]
  · have several : 1 < (framePieces 4 mtu data).length := by
      rw [framePieces, if_neg fits, cut_length]
      exact one_lt_needed (by omega) (Nat.lt_of_not_le fits)
    have start (piece : Bytes) (shorter : piece.length < data.length) :
        self.depacketize (Outgoing.packet ⟨auDescriptor data.length ++ piece, rtpTs, false⟩) =
          (self.holding data.length rtpTs [piece], []) := by
      rw [self.depacketize_unit listening short shorter.le, if_pos shorter,
        handle_first_fragment idle]
    have later (held : List Bytes) (piece : Bytes) (last : Bool)
        (shorter : piece.length < data.length) :
        (self.holding data.length rtpTs held).depacketize
            (Outgoing.packet ⟨auDescriptor data.length ++ piece, rtpTs, last⟩) =
          if last then (self.holding data.length rtpTs (held ++ [piece])).finishFragments
          else (self.holding data.length rtpTs (held ++ [piece]), []) := by
      rw [(self.holding data.length rtpTs held).depacketize_unit listening short shorter.le,
        if_pos shorter, handle_next_fragment]
    have shorter (piece : Bytes) (member : piece ∈ framePieces 4 mtu data) :
        piece.length < data.length := by
      have size := (pieces piece member).2
      omega
    have received := @run_fragments AacDepacketizer
      (fun state out => depacketize state out.packet) (fun _ _ => auDescriptor data.length) rtpTs
      true (fun piece => piece.length < data.length) (self.holding data.length rtpTs)
      (fun held => (self.holding data.length rtpTs held).finishFragments) self start
      (fun held piece => later held piece false) (fun held piece => later held piece true)
      _ several shorter
    rw [auOutgoing, received, finish_whole self rtpTs (congrArg List.length whole), whole]

/-- A packet of several units; each index or delta may be anything. -/
def batchPayload (units : List (Bytes × Fin 8)) : Bytes :=
  headerSection (units.map fun unit => (unit.1.length, unit.2)) ++ (units.map Prod.fst).flatten

theorem output_units (self : AacDepacketizer) (front : Bytes) (units : List (Bytes × Fin 8))
    (j : Nat) (start : Int) :
    self.outputUnits (front ++ (units.map Prod.fst).flatten)
        (units.map fun unit => ⟨unit.1.length, unit.2⟩) j front.length (wrapUnsigned 32 start) =
      units.mapIdx fun index unit =>
        .output ⟨unit.1, wrapUnsigned 32 (start + index * self.constantDuration), .key⟩ := by
  induction units generalizing front j start with
  | nil => rfl
  | cons unit rest ih =>
      have inside : ¬ front.length + unit.1.length >
          (front ++ ((unit :: rest).map Prod.fst).flatten).length := by
        simp only [List.map_cons, List.flatten_cons, List.length_append]
        omega
      have here : ((front ++ ((unit :: rest).map Prod.fst).flatten).drop front.length).take
          unit.1.length = unit.1 := by
        rw [List.drop_left, List.map_cons, List.flatten_cons, List.take_left]
      have shape : front ++ ((unit :: rest).map Prod.fst).flatten =
          (front ++ unit.1) ++ (rest.map Prod.fst).flatten := by
        rw [List.map_cons, List.flatten_cons, List.append_assoc]
      have next : wrapUnsigned 32 (wrapUnsigned 32 start + self.constantDuration) =
          wrapUnsigned 32 (start + self.constantDuration) :=
        wrap_unsigned_congr ((wrap_unsigned_mod_eq 32 start).add_right _)
      have later := ih (front ++ unit.1) (j + 1) (start + self.constantDuration)
      rw [List.length_append, ← shape] at later
      have headers : (unit :: rest).map (fun unit => (⟨unit.1.length, unit.2⟩ : AuHeader)) =
          ⟨unit.1.length, unit.2⟩ :: rest.map fun unit => ⟨unit.1.length, unit.2⟩ := rfl
      have times (index : Nat) : start + self.constantDuration + index * self.constantDuration =
          start + (index + 1 : Nat) * self.constantDuration := by
        push_cast
        ring
      rw [headers, outputUnits]
      dsimp only
      rw [if_neg inside, here, next, later, List.mapIdx_cons]
      simp only [times, Nat.cast_zero, zero_mul, add_zero]

theorem depacketize_batch (self : AacDepacketizer) (listening : self.callbacks.output = true)
    {units : List (Bytes × Fin 8)} (several : 2 ≤ units.length)
    (few : 16 * units.length < 65536) (short : ∀ unit ∈ units, unit.1.length ≤ maxAuSize)
    {packet : ParsedPacket} (payload : packet.payload = batchPayload units) :
    self.depacketize packet =
      (self.resetFragmentState, units.mapIdx fun index unit => .output
        ⟨unit.1, wrapUnsigned 32 (packet.timestamp + index * self.constantDuration), .key⟩) := by
  have sizes : ∀ header ∈ units.map fun unit => (unit.1.length, unit.2),
      header.1 ≤ maxAuSize := by
    intro header member
    obtain ⟨unit, unitMember, rfl⟩ := List.mem_map.mp member
    exact short unit unitMember
  have count : (units.map fun unit => (unit.1.length, unit.2)).length * auHeaderBits < 65536 := by
    rw [List.length_map, auHeaderBits]
    omega
  have handed := self.output_units (headerSection (units.map fun unit => (unit.1.length, unit.2)))
    units 0 packet.timestamp
  rw [header_section_length, ← batchPayload, ← payload] at handed
  rw [← handed, depacketize_headers self listening sizes count _ payload, List.map_map]
  match units, several with
  | _ :: _ :: _, _ => rfl

end AacDepacketizer

namespace AacPacketizer

def parameters (self : AacPacketizer) : { mtu : Nat // 100 ≤ mtu } × Nat :=
  (⟨self.base.mtu, self.base.mtu_range.1⟩, self.clockRate)

def describe (data : Chunk → Bytes) (parameters : { mtu : Nat // 100 ≤ mtu } × Nat)
    (chunk : Chunk) : List Outgoing :=
  auOutgoing parameters.1 (usToRtp chunk.timestamp parameters.2) (data chunk)

structure Sendable (data : Chunk → Bytes) (chunk : Chunk) : Prop where
  carries : chunk.data = some (data chunk)
  size : 1 ≤ (data chunk).length ∧ (data chunk).length ≤ 8191

theorem Sendable.nonempty {data : Chunk → Bytes} {chunk : Chunk} (sendable : Sendable data chunk) :
    data chunk ≠ [] := List.length_pos_iff.mp sendable.size.1

theorem describe_timestamps (data : Chunk → Bytes)
    (parameters : { mtu : Nat // 100 ≤ mtu } × Nat) (chunk : Chunk) :
    ∀ out ∈ describe data parameters chunk, out.timestamp < 2 ^ 32 := by
  intro out member
  rw [(fragment_outgoing_member member).1]
  exact wrap_unsigned_lt 32 _

theorem packetize_sends {data : Chunk → Bytes} {chunk : Chunk} (sendable : Sendable data chunk)
    (self : AacPacketizer) :
    ∃ packets after, Sends packetize (·.base) parameters (describe data) (fun kept _ => kept)
      self chunk packets after := by
  obtain ⟨valid, frame⟩ := Chunk.accepted sendable.carries "AacPacketizer"
  have sent := unit_packets_sends sendable.nonempty sendable.size.2
    (usToRtp chunk.timestamp self.clockRate) false self.base
  refine ⟨(Packetizer.sendAll false (describe data self.parameters chunk) self.base).1,
    { self with
      base := (Packetizer.sendAll false (describe data self.parameters chunk) self.base).2 },
    ?_, rfl, ?_⟩
  · rw [packetize, packetizeWith, valid, frame]
    change Except.ok _ = _
    rw [sent]
    rfl
  · refine Prod.ext (Subtype.ext ?_) rfl
    exact Packetizer.send_all_mtu false _ self.base

theorem described_packets (self : AacPacketizer) {chunks : List Chunk} {data : Chunk → Bytes}
    (sendable : ∀ chunk ∈ chunks, Sendable data chunk) {received : List (List ParsedPacket)}
    (described : received.map (·.map (·.outgoing)) = chunks.map (describe data self.parameters)) :
    (∀ packet ∈ received.flatten, packet.payload.length ≤ self.base.mtu) ∧
      ∀ packets ∈ received, ∃ count,
        packets.map (·.marker) = List.replicate count false ++ [true] := by
  constructor
  · intro packet member
    obtain ⟨packets, packetsMember, inside⟩ := List.mem_flatten.mp member
    obtain ⟨chunk, chunkMember, same⟩ :=
      List.mem_map.mp (received_member described packetsMember)
    have out : packet.outgoing ∈ describe data self.parameters chunk := by
      rw [same]
      exact List.mem_map_of_mem inside
    obtain ⟨_, _, _, _, fits⟩ := au_outgoing_member self.base.mtu_range.1
      (sendable chunk chunkMember).nonempty out
    exact fits
  · intro packets member
    obtain ⟨chunk, chunkMember, same⟩ := List.mem_map.mp (received_member described member)
    obtain ⟨count, markers⟩ := @au_outgoing_markers self.base.mtu
      (usToRtp chunk.timestamp self.clockRate) _ self.base.mtu_range.1
      (sendable chunk chunkMember).nonempty
    refine ⟨count, ?_⟩
    rw [← markers]
    change _ = (describe data self.parameters chunk).map _
    rw [same, List.map_map]
    rfl

end AacPacketizer

/-- Units arrive byte for byte and once, in packets that fit, with their timestamps and the
marker on the last packet of each; and of a packet of several units each comes out, a
constant duration after the one before. -/
theorem aac_units_arrive (self : AacPacketizer) {chunks : List Chunk} {data : Chunk → Bytes}
    (sendable : ∀ chunk ∈ chunks, AacPacketizer.Sendable data chunk)
    {opts : AacDepacketizerOptions} {depacketizer : AacDepacketizer}
    (fresh : AacDepacketizer.new opts = .ok depacketizer) :
    (∃ (sent : List (List Packet)) (last : AacPacketizer) (received : List (List ParsedPacket)),
      packetizeAll AacPacketizer.packetize self chunks = .ok (sent, last) ∧
      sent.map (·.map fun packet => parse packet.bytes) = received.map (·.map some) ∧
      (∀ packet ∈ received.flatten, packet.payload.length ≤ self.base.mtu) ∧
      (∀ packets ∈ received, ∃ count,
        packets.map (·.marker) = List.replicate count false ++ [true]) ∧
      (run AacDepacketizer.depacketize depacketizer received.flatten).2 =
        chunks.map fun chunk =>
          .output ⟨data chunk, usToRtp chunk.timestamp self.clockRate, .key⟩) ∧
    ∀ (state : AacDepacketizer) (units : List (Bytes × Fin 8)) (packet : ParsedPacket),
      state.callbacks.output = true → 2 ≤ units.length → 16 * units.length < 65536 →
      (∀ unit ∈ units, 1 ≤ unit.1.length ∧ unit.1.length ≤ 8191) →
      packet.payload = AacDepacketizer.batchPayload units →
      (state.depacketize packet).2 = units.mapIdx fun index unit => .output
        ⟨unit.1, wrapUnsigned 32 (packet.timestamp + index * state.constantDuration), .key⟩ := by
  have ready := AacDepacketizer.new_ready fresh
  constructor
  · let describe (_ : Unit) (chunk : Chunk) : List Outgoing :=
      AacPacketizer.describe data self.parameters chunk
    have handsOut (current : Unit) (chunk : Chunk) (member : chunk ∈ chunks)
        (state : AacDepacketizer)
        (idle : state.callbacks.output = true ∧ state.fragments = none) :
        ∃ after : AacDepacketizer, (after.callbacks.output = true ∧ after.fragments = none) ∧
          run (fun state out => AacDepacketizer.depacketize state out.packet) state
            (describe current chunk) =
          (after, [.output ⟨data chunk, usToRtp chunk.timestamp self.clockRate, .key⟩]) :=
      ⟨state.resetFragmentState, ⟨idle.1, rfl⟩,
        AacDepacketizer.run_unit idle.1 idle.2 self.base.mtu_range.1 _
          (sendable chunk member).nonempty (sendable chunk member).size.2⟩
    obtain ⟨sent, last, received, packetized, parsed, described, _⟩ :=
      packetize_all_arrives (AacPacketizer.describe_timestamps data)
        (fun chunk member => AacPacketizer.packetize_sends (sendable chunk member)) self
    rw [describe_all_const] at described
    obtain ⟨fits, markers⟩ := self.described_packets sendable described
    refine ⟨sent, last, received, packetized, parsed, fits, markers, ?_⟩
    · have flat : received.flatten.map (·.outgoing) =
          (describeAll describe (fun kept _ => kept) () chunks).flatten := by
        rw [List.map_flatten, described, describe_all_const]
      rw [run_received (fun _ _ => rfl), flat]
      exact run_describe_all handsOut () ready
  · intro state units packet listening several few sizes payload
    rw [state.depacketize_batch listening several few (fun unit member =>
      (sizes unit member).2) payload]

/-- A unit that just fits a packet, and one that is a byte longer. -/
def boundaryChunks : List Chunk :=
  [⟨some (List.replicate 96 1), none, 0⟩, ⟨some (List.replicate 97 2), none, 1000⟩]

def newDepacketizer : AacDepacketizer := ⟨⟨true, false⟩, 1024, none, 0, 0, 0⟩

theorem aac_units_arrive_boundary :
    (∃ (sent : List (List Packet)) (last : AacPacketizer) (received : List (List ParsedPacket)),
      packetizeAll AacPacketizer.packetize ⟨smallPackets, 48000⟩ boundaryChunks =
        .ok (sent, last) ∧
      sent.map (·.map fun packet => parse packet.bytes) = received.map (·.map some) ∧
      (run AacDepacketizer.depacketize newDepacketizer received.flatten).2 =
        [.output ⟨List.replicate 96 1, 0, .key⟩, .output ⟨List.replicate 97 2, 48, .key⟩]) ∧
    (newDepacketizer.depacketize (Outgoing.packet
        ⟨AacDepacketizer.batchPayload [([7], 0), ([8, 9], 0)], 4294967295, true⟩)).2 =
      [.output ⟨[7], 4294967295, .key⟩, .output ⟨[8, 9], 1023, .key⟩] := by
  have sendable : ∀ chunk ∈ boundaryChunks,
      AacPacketizer.Sendable (fun chunk => chunk.data.getD []) chunk := by
    intro chunk member
    have either : chunk = ⟨some (List.replicate 96 1), none, 0⟩ ∨
        chunk = ⟨some (List.replicate 97 2), none, 1000⟩ := by
      simpa [boundaryChunks] using member
    cases either with
    | inl first =>
        rw [first]
        exact ⟨rfl, by decide, by decide⟩
    | inr second =>
        rw [second]
        exact ⟨rfl, by decide, by decide⟩
  obtain ⟨⟨sent, last, received, packetized, parsed, _, _, handed⟩, batch⟩ :=
    @aac_units_arrive ⟨smallPackets, 48000⟩ boundaryChunks _ sendable ⟨⟨true, false⟩, none⟩
      newDepacketizer rfl
  refine ⟨⟨sent, last, received, packetized, parsed, ?_⟩, ?_⟩
  · rw [handed]
    decide +kernel
  · rw [batch newDepacketizer [([7], 0), ([8, 9], 0)] _ rfl (by decide) (by decide) (by decide)
      rfl]
    decide +kernel

end RtpPacket.Codec.Aac
