import RtpPacket.Codec.Fragments
import RtpPacket.Codec.NaluDepacketizer

/-!
# Access units on the wire

What the packets of an access unit are, for a codec given by the length of its NAL
header and the descriptor of its fragments, and what a depacketizer makes of them.
-/

namespace RtpPacket.Codec

open ByteCodec Rtp Run Cutting

set_option autoImplicit false

/-- The bytes in front of a fragment: what replaces the NAL header, then the FU header. -/
def fuDescriptor (header : List Nat) (naluType : Nat) (start last : Bool) : Bytes :=
  let fuHeader := (if start then 0x80 else 0) ||| (if last then 0x40 else 0) ||| naluType
  (header ++ [fuHeader]).map (byteAt · 0)

def naluPieces (headerLen mtu : Nat) (nalu : Bytes) : List Bytes :=
  let maxPayload := mtu - (headerLen + 1)
  cut maxPayload (needed maxPayload (nalu.length - headerLen)) (nalu.drop headerLen)

def naluOutgoing (descriptor : Bytes → Bool → Bool → Bytes) (headerLen mtu rtpTs : Nat)
    (last : Bool) (nalu : Bytes) : List Outgoing :=
  if nalu.length ≤ mtu then [{ payload := nalu, timestamp := rtpTs, marker := last }]
  else fragmentOutgoing (descriptor nalu) rtpTs last true (naluPieces headerLen mtu nalu)

def unitOutgoing (descriptor : Bytes → Bool → Bool → Bytes) (headerLen mtu rtpTs : Nat) :
    List Bytes → List Outgoing
  | [] => []
  | nalu :: rest =>
      naluOutgoing descriptor headerLen mtu rtpTs rest.isEmpty nalu ++
        unitOutgoing descriptor headerLen mtu rtpTs rest

theorem inline_prefix {inline : List Nat} (short : inline.length ≤ 3) :
    [byteAt (inline.getD 0 0) 0, byteAt (inline.getD 1 0) 0, byteAt (inline.getD 2 0) 0,
      byteAt 0 0].take inline.length = inline.map (byteAt · 0) := by
  match inline, short with
  | [], _ => rfl
  | [_], _ => rfl
  | [_, _], _ => rfl
  | [_, _, _], _ => rfl

theorem fragment_loop_sends {header : List Nat} (short : header.length ≤ 2)
    (naluType dataStart maxPayload : Nat) {fragCount : Nat} (nalu : Bytes) (rtpTs : Nat)
    (isLastNalu withMeta : Bool) {remaining : Nat} (within : remaining ≤ fragCount) (offset : Nat)
    (self : Packetizer) :
    fragmentLoop header naluType dataStart maxPayload fragCount nalu rtpTs isLastNalu withMeta
        remaining offset self =
      Packetizer.sendAll withMeta
        (fragmentOutgoing (fuDescriptor header naluType) rtpTs isLastNalu
          (remaining == fragCount) (cut maxPayload remaining (nalu.drop (dataStart + offset))))
        self := by
  induction remaining generalizing offset self with
  | zero => rfl
  | succ remaining ih =>
      have start : (fragCount - (remaining + 1) == 0) = (remaining + 1 == fragCount) := by
        rw [Bool.eq_iff_iff, beq_iff_eq, beq_iff_eq]
        omega
      have last : (fragCount - (remaining + 1) == fragCount - 1) =
          (cut maxPayload remaining
            ((nalu.drop (dataStart + offset)).drop maxPayload)).isEmpty := by
        rw [Bool.eq_iff_iff, beq_iff_eq, List.isEmpty_iff_length_eq_zero, cut_length]
        omega
      have notFirst : (remaining == fragCount) = false := by
        rw [beq_eq_false_iff_ne]
        omega
      have left : nalu.length - dataStart - offset = (nalu.drop (dataStart + offset)).length := by
        rw [List.length_drop, Nat.sub_sub]
      have next := drop_bounded (dataStart + offset) maxPayload nalu
      rw [Nat.add_assoc] at next
      have descriptor := inline_prefix (show (header ++ [(if remaining + 1 == fragCount then 0x80
        else 0) ||| (if (cut maxPayload remaining
            ((nalu.drop (dataStart + offset)).drop maxPayload)).isEmpty then 0x40 else 0) |||
          naluType]).length ≤ 3 by simp; omega)
      rw [fragmentLoop, cut, fragmentOutgoing, Packetizer.sendAll]
      simp only [start, last, Packetizer.make_packet_with_prefix_eq, descriptor, left, take_bounded,
        ih (Nat.le_of_succ_le within), next, notFirst]
      rfl

theorem fragments_sends {header : List Nat} (short : header.length ≤ 2)
    (naluType dataStart maxPayload : Nat) (nalu : Bytes) (rtpTs : Nat)
    (isLastNalu withMeta : Bool) (self : Packetizer) :
    fragments header naluType dataStart maxPayload nalu rtpTs isLastNalu withMeta self =
      Packetizer.sendAll withMeta
        (fragmentOutgoing (fuDescriptor header naluType) rtpTs isLastNalu true
          (cut maxPayload (needed maxPayload (nalu.length - dataStart)) (nalu.drop dataStart)))
        self := by
  have loop := fragment_loop_sends short naluType dataStart maxPayload nalu rtpTs isLastNalu
    withMeta (Nat.le_refl (needed maxPayload (nalu.length - dataStart))) 0 self
  rw [beq_self_eq_true] at loop
  exact loop

section Packets

variable {descriptor : Bytes → Bool → Bool → Bytes} {headerLen mtu rtpTs : Nat}

theorem packetize_nalus_sends
    {fragment : Packetizer → Bytes → Nat → Bool → Bool → List Packet × Packetizer}
    {withMeta : Bool} {nalus : List Bytes}
    (fragmented : ∀ nalu ∈ nalus, mtu < nalu.length → ∀ sender : Packetizer, sender.mtu = mtu →
      ∀ last, fragment sender nalu rtpTs last withMeta =
        Packetizer.sendAll withMeta
          (fragmentOutgoing (descriptor nalu) rtpTs last true (naluPieces headerLen mtu nalu))
          sender)
    {self : Packetizer} (size : self.mtu = mtu) :
    packetizeNalus fragment rtpTs withMeta nalus self =
      Packetizer.sendAll withMeta (unitOutgoing descriptor headerLen mtu rtpTs nalus) self := by
  induction nalus generalizing self with
  | nil => rfl
  | cons nalu rest ih =>
      have first : (if nalu.length ≤ self.mtu then
          ([(self.makePacket nalu rtpTs rest.isEmpty withMeta).1],
            (self.makePacket nalu rtpTs rest.isEmpty withMeta).2)
          else fragment self nalu rtpTs rest.isEmpty withMeta) =
          Packetizer.sendAll withMeta
            (naluOutgoing descriptor headerLen mtu rtpTs rest.isEmpty nalu) self := by
        rw [naluOutgoing, size]
        split_ifs with fits
        · rfl
        · exact fragmented nalu List.mem_cons_self (by omega) self size rest.isEmpty
      have later := ih (fun other member => fragmented other (List.mem_cons_of_mem _ member))
        ((Packetizer.send_all_mtu withMeta
          (naluOutgoing descriptor headerLen mtu rtpTs rest.isEmpty nalu) self).trans size)
      rw [packetizeNalus, unitOutgoing, Packetizer.send_all_append, ← later, ← first]

/-- A unit too long for a packet makes several pieces, none of them empty. -/
theorem nalu_pieces {nalu : Bytes} (header : headerLen ≤ 2) (mtuRange : 100 ≤ mtu)
    (long : mtu < nalu.length) :
    1 < (naluPieces headerLen mtu nalu).length ∧
      (∀ piece ∈ naluPieces headerLen mtu nalu,
        piece ≠ [] ∧ piece.length ≤ mtu - (headerLen + 1)) ∧
      (naluPieces headerLen mtu nalu).flatten = nalu.drop headerLen := by
  have positive : 0 < mtu - (headerLen + 1) := by omega
  have covers := needed_covers positive (nalu.length - headerLen)
  have tight : needed (mtu - (headerLen + 1)) (nalu.length - headerLen) * (mtu - (headerLen + 1)) <
      nalu.length - headerLen + (mtu - (headerLen + 1)) := needed_tight positive
  refine ⟨?_, ?_, ?_⟩
  · rw [naluPieces, cut_length]
    exact one_lt_needed positive (by omega)
  · intro piece member
    have nonempty := cut_piece_nonempty positive (by rw [List.length_drop]; exact tight) piece
      member
    exact ⟨nonempty, cut_piece_length piece member⟩
  · exact cut_flatten (by rw [List.length_drop]; exact covers)

/-- Every packet holds a whole unit, or one piece that is not both first and last. -/
theorem unit_outgoing_member (header : headerLen ≤ 2) (mtuRange : 100 ≤ mtu) {nalus : List Bytes}
    {out : Outgoing} (member : out ∈ unitOutgoing descriptor headerLen mtu rtpTs nalus) :
    out.timestamp = rtpTs ∧ ∃ nalu ∈ nalus,
      (nalu.length ≤ mtu ∧ out.payload = nalu) ∨
      ∃ start last piece, out.payload = descriptor nalu start last ++ piece ∧
        piece.length ≤ mtu - (headerLen + 1) ∧ (start && last) = false := by
  induction nalus with
  | nil => simp [unitOutgoing] at member
  | cons nalu rest ih =>
      cases List.mem_append.mp member with
      | inl here =>
          rw [naluOutgoing] at here
          split_ifs at here with fits
          · rw [List.mem_singleton.mp here]
            exact ⟨rfl, nalu, List.mem_cons_self, .inl ⟨fits, rfl⟩⟩
          · obtain ⟨several, pieces, _⟩ := nalu_pieces header mtuRange (Nat.lt_of_not_le fits)
            obtain ⟨time, start, last, piece, pieceMember, payload, lone⟩ :=
              fragment_outgoing_member here
            refine ⟨time, nalu, List.mem_cons_self,
              .inr ⟨start, last, piece, payload, (pieces piece pieceMember).2, ?_⟩⟩
            rw [Bool.and_eq_false_imp]
            intro started
            by_contra ended
            have one := (lone started).2 (by simpa using ended)
            omega
      | inr later =>
          obtain ⟨time, other, otherMember, shape⟩ := ih later
          exact ⟨time, other, List.mem_cons_of_mem _ otherMember, shape⟩

theorem nalu_outgoing_markers (header : headerLen ≤ 2) (mtuRange : 100 ≤ mtu) (last : Bool)
    (nalu : Bytes) :
    ∃ count, (naluOutgoing descriptor headerLen mtu rtpTs last nalu).map (·.marker) =
      List.replicate count false ++ [last] := by
  rw [naluOutgoing]
  split_ifs with fits
  · exact ⟨0, rfl⟩
  · obtain ⟨several, _⟩ := nalu_pieces header mtuRange (Nat.lt_of_not_le fits)
    have some : naluPieces headerLen mtu nalu ≠ [] := by
      intro none
      rw [none] at several
      simp at several
    exact ⟨_, fragment_outgoing_markers true some⟩

theorem unit_outgoing_markers (header : headerLen ≤ 2) (mtuRange : 100 ≤ mtu)
    {nalus : List Bytes} (some : nalus ≠ []) :
    ∃ count, (unitOutgoing descriptor headerLen mtu rtpTs nalus).map (·.marker) =
      List.replicate count false ++ [true] := by
  induction nalus with
  | nil => exact absurd rfl some
  | cons nalu rest ih =>
      obtain ⟨count, markers⟩ : ∃ count, (naluOutgoing descriptor headerLen mtu rtpTs
          rest.isEmpty nalu).map (·.marker) = List.replicate count false ++ [rest.isEmpty] :=
        nalu_outgoing_markers header mtuRange rest.isEmpty nalu
      rw [unitOutgoing, List.map_append, markers]
      by_cases none : rest = []
      · rw [none]
        exact ⟨count, by simp [unitOutgoing]⟩
      · obtain ⟨more, later⟩ := ih none
        refine ⟨count + 1 + more, ?_⟩
        have notLast : rest.isEmpty = false := by simpa using none
        rw [later, notLast, List.replicate_add, List.replicate_add]
        simp

end Packets

section Receiving

/-- A codec that reads a unit, and each fragment of it, as what it is. -/
structure Receives
    (receive : NaluDepacketizer → Outgoing → NaluDepacketizer × List DepacketizerEvent)
    (isIDR : Bytes → Bool) (lostStart : String) (descriptor : Bytes → Bool → Bool → Bytes)
    (headerLen : Nat) (nalu : Bytes) : Prop where
  single : ∀ (state : NaluDepacketizer) timestamp marker, state.callbacks.output = true →
    receive state ⟨nalu, timestamp, marker⟩ =
      (state.collect isIDR nalu).finish timestamp marker
  fragment : ∀ (state : NaluDepacketizer) start last piece timestamp marker,
    state.callbacks.output = true → piece ≠ [] →
    receive state ⟨descriptor nalu start last ++ piece, timestamp, marker⟩ =
      state.takeFragment isIDR lostStart start last (nalu.take headerLen) piece timestamp marker

variable {receive : NaluDepacketizer → Outgoing → NaluDepacketizer × List DepacketizerEvent}
  {isIDR : Bytes → Bool} {lostStart : String} {descriptor : Bytes → Bool → Bool → Bytes}
  {headerLen mtu : Nat}

def holding (state : NaluDepacketizer) (header : Bytes) (held : List Bytes) : NaluDepacketizer :=
  { state with fuFragments := header :: held }

theorem run_nalu {nalu : Bytes}
    (receives : Receives receive isIDR lostStart descriptor headerLen nalu)
    (header : headerLen ≤ 2) (mtuRange : 100 ≤ mtu) (rtpTs : Nat) (last : Bool)
    {state : NaluDepacketizer} (listening : state.callbacks.output = true)
    (between : state.fuFragments = []) :
    run receive state (naluOutgoing descriptor headerLen mtu rtpTs last nalu) =
      (state.collect isIDR nalu).finish rtpTs last := by
  rw [naluOutgoing]
  split_ifs with fits
  · rw [run, receives.single state rtpTs last listening]
    simp [run]
  · obtain ⟨several, pieces, together⟩ := nalu_pieces header mtuRange (Nat.lt_of_not_le fits)
    have start (piece : Bytes) (nonempty : piece ≠ []) :
        receive state ⟨descriptor nalu true false ++ piece, rtpTs, false⟩ =
          (holding state (nalu.take headerLen) [piece], []) :=
      receives.fragment state true false piece rtpTs false listening nonempty
    have middle (held : List Bytes) (piece : Bytes) (nonempty : piece ≠ []) :
        receive (holding state (nalu.take headerLen) held)
            ⟨descriptor nalu false false ++ piece, rtpTs, false⟩ =
          (holding state (nalu.take headerLen) (held ++ [piece]), []) :=
      receives.fragment (holding state (nalu.take headerLen) held) false false piece rtpTs false
        listening nonempty
    have ended (held : List Bytes) (piece : Bytes) (nonempty : piece ≠ []) :
        receive (holding state (nalu.take headerLen) held)
            ⟨descriptor nalu false true ++ piece, rtpTs, last⟩ =
          (NaluDepacketizer.collect isIDR { state with fuFragments := [] }
            (nalu.take headerLen :: (held ++ [piece])).flatten).finish rtpTs last :=
      receives.fragment (holding state (nalu.take headerLen) held) false true piece rtpTs last
        listening nonempty
    have whole : (nalu.take headerLen :: naluPieces headerLen mtu nalu).flatten = nalu := by
      rw [List.flatten_cons, together, List.take_append_drop]
    have same : { state with fuFragments := [] } = state := by
      rw [← between]
    have fragmented := run_fragments (holding state (nalu.take headerLen))
      (fun held => (NaluDepacketizer.collect isIDR { state with fuFragments := [] }
        (nalu.take headerLen :: held).flatten).finish rtpTs last)
      start middle ended several (fun piece member => (pieces piece member).1)
    rw [fragmented, whole, same]

/-- The packets of an access unit are handed out as that unit, behind what was collected
before, and leave nothing behind. -/
theorem run_unit {nalus : List Bytes}
    (receives : ∀ nalu ∈ nalus, Receives receive isIDR lostStart descriptor headerLen nalu)
    (some : nalus ≠ []) (header : headerLen ≤ 2) (mtuRange : 100 ≤ mtu) (rtpTs : Nat)
    {state : NaluDepacketizer} (listening : state.callbacks.output = true)
    (between : state.fuFragments = []) :
    run receive state (unitOutgoing descriptor headerLen mtu rtpTs nalus) =
      ({ state with nalus := [], sawIDR := false },
        [.output
          { data := joinAnnexB (state.nalus ++ nalus)
            timestamp := rtpTs
            type := if state.sawIDR || nalus.any isIDR then .key else .delta }]) := by
  induction nalus generalizing state with
  | nil => exact absurd rfl some
  | cons nalu rest ih =>
      have first := run_nalu (receives nalu List.mem_cons_self) header mtuRange rtpTs rest.isEmpty
        listening between
      rw [unitOutgoing, run_append, first]
      by_cases none : rest = []
      · rw [none]
        simp [unitOutgoing, run, NaluDepacketizer.finish, NaluDepacketizer.collect]
      · have notLast : rest.isEmpty = false := by simpa using none
        have kept : (state.collect isIDR nalu).finish rtpTs false =
            (state.collect isIDR nalu, []) := rfl
        have collected : (state.collect isIDR nalu).callbacks.output = true := listening
        have later := ih (fun other member => receives other (List.mem_cons_of_mem _ member)) none
          collected between
        rw [notLast, kept, later]
        simp [NaluDepacketizer.collect, Bool.or_assoc]

structure Idle (state : NaluDepacketizer) : Prop where
  listening : state.callbacks.output = true
  empty : state.nalus = []
  between : state.fuFragments = []
  no_key : state.sawIDR = false

/-- What an access unit is handed out as. -/
def unitEvent (isIDR : Bytes → Bool) (rtpTs : Nat) (nalus : List Bytes) : DepacketizerEvent :=
  .output
    { data := joinAnnexB nalus
      timestamp := rtpTs
      type := if nalus.any isIDR then .key else .delta }

theorem run_unit_idle {nalus : List Bytes}
    (receives : ∀ nalu ∈ nalus, Receives receive isIDR lostStart descriptor headerLen nalu)
    (some : nalus ≠ []) (header : headerLen ≤ 2) (mtuRange : 100 ≤ mtu) (rtpTs : Nat)
    {state : NaluDepacketizer} (idle : Idle state) :
    ∃ after, Idle after ∧
      run receive state (unitOutgoing descriptor headerLen mtu rtpTs nalus) =
        (after, [unitEvent isIDR rtpTs nalus]) := by
  have handed := run_unit receives some header mtuRange rtpTs idle.listening idle.between
  rw [idle.empty, idle.no_key, List.nil_append, Bool.false_or] at handed
  exact ⟨{ state with nalus := [], sawIDR := false },
    ⟨idle.listening, rfl, idle.between, rfl⟩, handed⟩

end Receiving

/-- A chunk that holds these units, listed or as Annex-B data. -/
def Carries (chunk : Chunk) (nalus : List Bytes) : Prop :=
  chunk.nalus = some nalus ∨
    chunk.nalus = none ∧
      ∃ entries : List (Bool × Bytes), entries.map Prod.snd = nalus ∧
        chunk.data = some (annexB entries)

theorem validate_of_carries (name : String) {chunk : Chunk} {nalus : List Bytes}
    (carries : Carries chunk nalus) : validateChunk name chunk = .ok () := by
  rw [validateChunk, if_neg]
  cases carries with
  | inl listed => simp [listed]
  | inr framed =>
      obtain ⟨_, entries, _, data⟩ := framed
      simp [data]

theorem units_of_carries {split : Bytes → List Bytes}
    (reads : ∀ {entries : List (Bool × Bytes)}, (∀ entry ∈ entries, Separable entry.2) →
      entries ≠ [] → split (annexB entries) = entries.map Prod.snd)
    {chunk : Chunk} {nalus : List Bytes} (carries : Carries chunk nalus)
    (separable : ∀ nalu ∈ nalus, Separable nalu) (some : nalus ≠ []) :
    chunk.nalus.getD (split (chunk.data.getD [])) = nalus := by
  cases carries with
  | inl listed => rw [listed]; rfl
  | inr framed =>
      obtain ⟨none, entries, rfl, data⟩ := framed
      have each : ∀ entry ∈ entries, Separable entry.2 :=
        fun entry member => separable entry.2 (List.mem_map_of_mem member)
      have filled : entries ≠ [] := by
        rintro rfl
        exact some rfl
      rw [none, data]
      exact reads each filled

section Stream

variable {packetize : Packetizer → Chunk → Except String (List Packet × Packetizer)}
  {depacketize : NaluDepacketizer → ParsedPacket → NaluDepacketizer × List DepacketizerEvent}
  {isIDR : Bytes → Bool} {lostStart : String} {descriptor : Bytes → Bool → Bool → Bytes}
  {headerLen : Nat} {clockRate : Nat}

def packetSize (sender : Packetizer) : { mtu : Nat // 100 ≤ mtu } :=
  ⟨sender.mtu, sender.mtu_range.1⟩

def describeUnits (descriptor : Bytes → Bool → Bool → Bytes) (headerLen clockRate : Nat)
    (units : Chunk → List Bytes) (mtu : { mtu : Nat // 100 ≤ mtu }) (chunk : Chunk) :
    List Outgoing :=
  unitOutgoing descriptor headerLen mtu.1 (usToRtp chunk.timestamp clockRate) (units chunk)

theorem describe_units_timestamps (units : Chunk → List Bytes) (header : headerLen ≤ 2)
    (mtu : { mtu : Nat // 100 ≤ mtu }) (chunk : Chunk) :
    ∀ out ∈ describeUnits descriptor headerLen clockRate units mtu chunk,
      out.timestamp < 2 ^ 32 := by
  intro out member
  rw [(unit_outgoing_member header mtu.2 member).1]
  exact Word.wrap_unsigned_lt 32 _

theorem units_sent {units : Chunk → List Bytes} {chunk : Chunk}
    (packetizes : ∀ sender : Packetizer,
      packetize sender chunk = .ok (Packetizer.sendAll false
        (unitOutgoing descriptor headerLen sender.mtu (usToRtp chunk.timestamp clockRate)
          (units chunk)) sender)) (sender : Packetizer) :
    ∃ packets after, Sends packetize id packetSize
      (describeUnits descriptor headerLen clockRate units) (fun kept _ => kept)
      sender chunk packets after :=
  ⟨_, _, packetizes sender, rfl, Subtype.ext (Packetizer.send_all_mtu _ _ _)⟩

/-- A codec that sends units as described and receives what is described reproduces the
stream. -/
theorem unit_stream (self : Packetizer) {chunks : List Chunk} (units : Chunk → List Bytes)
    (some : ∀ chunk ∈ chunks, units chunk ≠ [])
    (packetizes : ∀ chunk ∈ chunks, ∀ sender : Packetizer,
      packetize sender chunk = .ok (Packetizer.sendAll false
        (unitOutgoing descriptor headerLen sender.mtu (usToRtp chunk.timestamp clockRate)
          (units chunk)) sender))
    (reads : ∀ state packet, depacketize state packet = depacketize state packet.outgoing.packet)
    (receives : ∀ chunk ∈ chunks, ∀ nalu ∈ units chunk,
      Receives (fun state out => depacketize state out.packet) isIDR lostStart descriptor
        headerLen nalu)
    (header : headerLen ≤ 2) {depacketizer : NaluDepacketizer} (idle : Idle depacketizer) :
    ∃ (sent : List (List Packet)) (last : Packetizer) (received : List (List ParsedPacket)),
      packetizeAll packetize self chunks = .ok (sent, last) ∧
      sent.map (·.map fun packet => parse packet.bytes) = received.map (·.map .some) ∧
      received.flatten.map (·.sequenceNumber) =
        (List.range received.flatten.length).map (fun index => (self.seq + index) % 65536) ∧
      (∀ packets ∈ received, ∃ count,
        packets.map (·.marker) = List.replicate count false ++ [true]) ∧
      (∀ packet ∈ received.flatten, ∃ chunk ∈ chunks, ∃ nalu ∈ units chunk,
        (nalu.length ≤ self.mtu ∧ packet.payload = nalu) ∨
        ∃ start last piece, packet.payload = descriptor nalu start last ++ piece ∧
          piece.length ≤ self.mtu - (headerLen + 1) ∧ (start && last) = false) ∧
      (run depacketize depacketizer received.flatten).2 =
        chunks.map fun chunk =>
          unitEvent isIDR (usToRtp chunk.timestamp clockRate) (units chunk) := by
  have marked (mtu : { mtu : Nat // 100 ≤ mtu }) (chunk : Chunk) (member : chunk ∈ chunks) :
      ∃ count, (describeUnits descriptor headerLen clockRate units mtu chunk).map (·.marker) =
        List.replicate count false ++ [true] :=
    unit_outgoing_markers header mtu.2 (some chunk member)
  have handsOut (mtu : { mtu : Nat // 100 ≤ mtu }) (chunk : Chunk) (member : chunk ∈ chunks)
      (state : NaluDepacketizer) (ready : Idle state) :
      ∃ after, Idle after ∧
        run (fun state out => depacketize state out.packet) state
            (describeUnits descriptor headerLen clockRate units mtu chunk) =
          (after, [unitEvent isIDR (usToRtp chunk.timestamp clockRate) (units chunk)]) :=
    run_unit_idle (receives chunk member) (some chunk member) header mtu.2 _ ready
  obtain ⟨sent, last, received, packetized, parsed, described, numbered, markers, handed⟩ :=
    stream_arrives (describe_units_timestamps units header)
      (fun chunk member sender => units_sent (packetizes chunk member) sender) marked reads
      handsOut self idle
  refine ⟨sent, last, received, packetized, parsed, numbered, markers, ?_, handed⟩
  intro packet member
  obtain ⟨packets, packetsMember, inside⟩ := List.mem_flatten.mp member
  rw [describe_all_const] at described
  obtain ⟨chunk, chunkMember, same⟩ := List.mem_map.mp (received_member described packetsMember)
  have out : packet.outgoing ∈ describeUnits descriptor headerLen clockRate units
      (packetSize self) chunk := by
    rw [same]
    exact List.mem_map_of_mem inside
  obtain ⟨_, nalu, naluMember, shape⟩ := unit_outgoing_member header self.mtu_range.1 out
  exact ⟨chunk, chunkMember, nalu, naluMember, shape⟩

end Stream

end RtpPacket.Codec
