import RtpPacket.Codec.Fragments
import RtpPacket.Receive.Reception
import RtpPacket.Rtp.Clock

/-!
# G.711 and G.722

Bytes are samples, or pairs of them, one for each tick of an 8 kHz clock. A block that does
not fit a packet is cut anywhere, and every piece has the time of its first byte. So each
packet stands for itself: what is lost is silent, and all else is heard at its own tick.
-/

namespace RtpPacket.Codec

open ByteCodec Rtp Run Receive Word

set_option autoImplicit false

/-- An audio block; `marker` says that a talkspurt begins. -/
structure AudioChunk extends Chunk where
  marker : Bool

structure AudioOutput where
  data : Bytes
  timestamp : Nat
  type : FrameType
  marker : Bool
  deriving DecidableEq, Repr

namespace Audio

/-- Of G.711 and of G.722, whose samples are twice as many. -/
def clockRate : Nat := 8000

def blockLoop (data : Bytes) (rtpTs : Nat) (marker withMeta : Bool) (offset fragIndex : Nat)
    (self : Packetizer) : List Packet × Packetizer :=
  if offset < data.length then
    let size := min self.mtu (data.length - offset)
    let slice := (data.drop offset).take size
    let fragTs := wrapUnsigned 32 (rtpTs + offset)
    let made := self.makePacket slice fragTs (fragIndex == 0 && marker) withMeta
    let later := blockLoop data rtpTs marker withMeta (offset + size) (fragIndex + 1) made.2
    (made.1 :: later.1, later.2)
  else ([], self)
termination_by data.length - offset
decreasing_by
  have mtuRange := self.mtu_range
  omega

/-- A block that does not fit also warns the process. -/
def packetizeBlock (self : Packetizer) (data : Bytes) (timestamp : Rat) (marker withMeta : Bool) :
    List Packet × Packetizer :=
  let rtpTs := usToRtp timestamp clockRate
  if data.length ≤ self.mtu then
    let made := self.makePacket data rtpTs marker withMeta
    ([made.1], made.2)
  else blockLoop data rtpTs marker withMeta 0 0 self

/-- Every packet is handed out on its own, by all audio depacketizers alike. -/
def depacketize (self : Callbacks) (packet : ParsedPacket) :
    Callbacks × List (DepacketizerEvent AudioOutput) :=
  if self.checkDepacketizePayload packet 1 then
    (self,
      [.output
        { data := packet.payload
          timestamp := packet.timestamp
          type := .key
          marker := packet.marker }])
  else (self, [])

end Audio

namespace G711

def packetizeWith (withMeta : Bool) (self : Packetizer) (chunk : AudioChunk) :
    Except String (List Packet × Packetizer) := do
  validateChunk "G711Packetizer" chunk.toChunk
  return Audio.packetizeBlock self (← chunk.frame) chunk.timestamp chunk.marker withMeta

def packetize := packetizeWith false

def packetizeWithMeta := packetizeWith true

def depacketize := Audio.depacketize

end G711

namespace G722

def packetizeWith (withMeta : Bool) (self : Packetizer) (chunk : AudioChunk) :
    Except String (List Packet × Packetizer) := do
  validateChunk "G722Packetizer" chunk.toChunk
  return Audio.packetizeBlock self (← chunk.frame) chunk.timestamp chunk.marker withMeta

def packetize := packetizeWith false

def packetizeWithMeta := packetizeWith true

def depacketize := Audio.depacketize

end G722

/-- Bytes with their ticks, the first one at `start`. -/
def samples (start : Nat) (data : Bytes) : List (Nat × UInt8) :=
  data.mapIdx fun index byte => ((start + index) % 2 ^ 32, byte)

theorem samples_append (start : Nat) (first second : Bytes) :
    samples start (first ++ second) =
      samples start first ++ samples (start + first.length) second := by
  rw [samples, List.mapIdx_append, samples, samples]
  simp only [Nat.add_comm first.length, Nat.add_assoc]

theorem samples_wrap (start : Nat) (data : Bytes) :
    samples (wrapUnsigned 32 start) data = samples start data := by
  have wrapped : wrapUnsigned 32 start = start % 2 ^ 32 := by
    zify
    exact wrap_unsigned_cast 32 start
  rw [samples, samples, wrapped]
  simp only [Nat.mod_add_mod]

namespace Audio

def loopOutgoing (mtu : { mtu : Nat // 100 ≤ mtu }) (data : Bytes) (rtpTs : Nat) (marker : Bool)
    (offset fragIndex : Nat) : List Outgoing :=
  if offset < data.length then
    { payload := (data.drop offset).take mtu
      timestamp := wrapUnsigned 32 (rtpTs + offset)
      marker := fragIndex == 0 && marker } ::
      loopOutgoing mtu data rtpTs marker (offset + min mtu.1 (data.length - offset)) (fragIndex + 1)
  else []
termination_by data.length - offset
decreasing_by
  exact Nat.sub_lt_sub_left (by assumption)
    (Nat.lt_add_of_pos_right (Nat.lt_min.mpr
      ⟨Nat.lt_of_lt_of_le (by decide) mtu.2, Nat.sub_pos_of_lt (by assumption)⟩))

theorem loop_outgoing_eq (mtu : { mtu : Nat // 100 ≤ mtu }) {data : Bytes} (rtpTs : Nat)
    (marker : Bool) {offset : Nat} (fragIndex : Nat) (inside : offset < data.length) :
    loopOutgoing mtu data rtpTs marker offset fragIndex =
      { payload := (data.drop offset).take mtu
        timestamp := wrapUnsigned 32 (rtpTs + offset)
        marker := fragIndex == 0 && marker } ::
        loopOutgoing mtu data rtpTs marker (offset + min mtu.1 (data.length - offset))
          (fragIndex + 1) := by
  rw [loopOutgoing, if_pos inside]

theorem block_loop_sends (data : Bytes) (rtpTs : Nat) (marker withMeta : Bool)
    (offset fragIndex : Nat) (self : Packetizer) :
    blockLoop data rtpTs marker withMeta offset fragIndex self =
      Packetizer.sendAll withMeta
        (loopOutgoing ⟨self.mtu, self.mtu_range.1⟩ data rtpTs marker offset fragIndex) self := by
  fun_induction blockLoop data rtpTs marker withMeta offset fragIndex self with
  | case1 offset fragIndex self inside size slice fragTs made later ih =>
      have cut : slice = (data.drop offset).take self.mtu := by
        have bounded := Cutting.take_bounded self.mtu (data.drop offset)
        rwa [List.length_drop] at bounded
      rw [loop_outgoing_eq _ _ _ _ inside, Packetizer.sendAll, ← cut]
      exact congrArg (fun later : List Packet × Packetizer => (made.1 :: later.1, later.2)) ih
  | case2 offset fragIndex self past =>
      rw [loopOutgoing, if_neg past, Packetizer.sendAll]

def blockOutgoing (mtu : { mtu : Nat // 100 ≤ mtu }) (data : Bytes) (rtpTs : Nat)
    (marker : Bool) : List Outgoing :=
  if data.length ≤ mtu then [⟨data, rtpTs, marker⟩] else loopOutgoing mtu data rtpTs marker 0 0

theorem packetize_block_sends (self : Packetizer) (data : Bytes) (timestamp : Rat)
    (marker withMeta : Bool) :
    packetizeBlock self data timestamp marker withMeta =
      Packetizer.sendAll withMeta
        (blockOutgoing ⟨self.mtu, self.mtu_range.1⟩ data (usToRtp timestamp clockRate) marker)
        self := by
  rw [packetizeBlock, blockOutgoing]
  dsimp only
  split_ifs
  · rfl
  · exact block_loop_sends data _ marker withMeta 0 0 self

def carried (outs : List Outgoing) : List (Nat × UInt8) :=
  outs.flatMap fun out => samples out.timestamp out.payload

theorem loop_outgoing_carried (mtu : { mtu : Nat // 100 ≤ mtu }) (data : Bytes) (rtpTs : Nat)
    (marker : Bool) (offset fragIndex : Nat) :
    carried (loopOutgoing mtu data rtpTs marker offset fragIndex) =
      samples (rtpTs + offset) (data.drop offset) := by
  fun_induction loopOutgoing mtu data rtpTs marker offset fragIndex with
  | case1 offset fragIndex inside ih =>
      have length : ((data.drop offset).take mtu.1).length = min mtu.1 (data.length - offset) := by
        rw [List.length_take, List.length_drop]
      rw [carried, List.flatMap_cons, ← carried, ih, ← Nat.cast_add, samples_wrap, ← length,
        ← Nat.add_assoc, ← List.drop_drop, ← samples_append]
      exact congrArg _ (List.prefix_iff_eq_append.mp (List.take_prefix mtu.1 (data.drop offset)))
  | case2 offset fragIndex past =>
      rw [List.drop_of_length_le (Nat.le_of_not_lt past)]
      rfl

theorem block_outgoing_carried (mtu : { mtu : Nat // 100 ≤ mtu }) (data : Bytes) (rtpTs : Nat)
    (marker : Bool) : carried (blockOutgoing mtu data rtpTs marker) = samples rtpTs data := by
  rw [blockOutgoing]
  split_ifs
  · rw [carried, List.flatMap_singleton]
  · exact loop_outgoing_carried mtu data rtpTs marker 0 0

/-- A packet carries a piece of its block, with the time of its first byte. -/
def Carries (mtu : Nat) (data : Bytes) (rtpTs : Nat) (marker : Bool) (out : Outgoing) : Prop :=
  ∃ offset, out.payload = (data.drop offset).take mtu ∧
    out.timestamp = wrapUnsigned 32 (rtpTs + offset) ∧ out.marker = (offset == 0 && marker) ∧
    (out.payload ≠ [] → offset < data.length)

theorem loop_outgoing_member (mtu : { mtu : Nat // 100 ≤ mtu }) (data : Bytes) (rtpTs : Nat)
    (marker : Bool) {offset fragIndex : Nat} (first : fragIndex = 0 ↔ offset = 0)
    {out : Outgoing} (member : out ∈ loopOutgoing mtu data rtpTs marker offset fragIndex) :
    Carries mtu data rtpTs marker out := by
  fun_induction loopOutgoing mtu data rtpTs marker offset fragIndex with
  | case1 offset fragIndex inside ih =>
      cases List.mem_cons.mp member with
      | inl here =>
          rw [here]
          refine ⟨offset, rfl, rfl, ?_, fun _ => inside⟩
          have same : (fragIndex == 0) = (offset == 0) := by
            rw [Bool.eq_iff_iff, beq_iff_eq, beq_iff_eq]
            exact first
          exact congrArg (· && marker) same
      | inr later =>
          have mtuRange := mtu.2
          exact ih (by omega) later
  | case2 offset fragIndex past => cases member

theorem block_outgoing_member {mtu : { mtu : Nat // 100 ≤ mtu }} {data : Bytes} {rtpTs : Nat}
    (small : rtpTs < 2 ^ 32) {marker : Bool} {out : Outgoing}
    (member : out ∈ blockOutgoing mtu data rtpTs marker) : Carries mtu data rtpTs marker out := by
  rw [blockOutgoing] at member
  split_ifs at member with fits
  · rw [List.mem_singleton.mp member]
    refine ⟨0, ?_, ?_, rfl, List.length_pos_iff.mpr⟩
    · exact (List.take_of_length_le fits).symm
    · exact (wrap_unsigned_of_lt small).symm
  · exact loop_outgoing_member mtu data rtpTs marker Iff.rfl member

def describe (data : AudioChunk → Bytes) (mtu : { mtu : Nat // 100 ≤ mtu }) (chunk : AudioChunk) :
    List Outgoing :=
  blockOutgoing mtu (data chunk) (usToRtp chunk.timestamp clockRate) chunk.marker

theorem describe_timestamps (data : AudioChunk → Bytes) (mtu : { mtu : Nat // 100 ≤ mtu })
    (chunk : AudioChunk) : ∀ out ∈ describe data mtu chunk, out.timestamp < 2 ^ 32 := by
  intro out member
  obtain ⟨offset, -, time, -⟩ := block_outgoing_member (wrap_unsigned_lt 32 _) member
  rw [time]
  exact wrap_unsigned_lt 32 _

/-- A codec of sample blocks: its packetizer but for the name. -/
def Blocks (packetize : Packetizer → AudioChunk → Except String (List Packet × Packetizer)) :
    Prop :=
  ∀ (self : Packetizer) (chunk : AudioChunk) (data : Bytes), chunk.data = some data →
    packetize self chunk = .ok (packetizeBlock self data chunk.timestamp chunk.marker false)

theorem blocks_sends
    {packetize : Packetizer → AudioChunk → Except String (List Packet × Packetizer)}
    (blocks : Blocks packetize) {data : AudioChunk → Bytes} {chunk : AudioChunk}
    (carries : chunk.data = some (data chunk)) (self : Packetizer) :
    ∃ packets after, Sends packetize id (fun sender => ⟨sender.mtu, sender.mtu_range.1⟩)
      (describe data) (fun kept _ => kept) self chunk packets after := by
  have packetized := blocks self chunk (data chunk) carries
  rw [packetize_block_sends] at packetized
  exact ⟨_, _, packetized, rfl, Subtype.ext (Packetizer.send_all_mtu _ _ _)⟩

end Audio

theorem G711.blocks : Audio.Blocks G711.packetize := by
  intro self chunk data carries
  obtain ⟨valid, frame⟩ := Chunk.accepted carries "G711Packetizer"
  rw [G711.packetize, G711.packetizeWith, valid, frame]
  rfl

theorem G722.blocks : Audio.Blocks G722.packetize := by
  intro self chunk data carries
  obtain ⟨valid, frame⟩ := Chunk.accepted carries "G722Packetizer"
  rw [G722.packetize, G722.packetizeWith, valid, frame]
  rfl

def handedOutAudio
    (depacketize : Callbacks → ParsedPacket → Callbacks × List (DepacketizerEvent AudioOutput))
    (state : Callbacks) {seq : Nat} {sent : List ParsedPacket} (reception : Reception seq sent) :
    List (DepacketizerEvent AudioOutput) :=
  (run depacketize state (reception.played.map Prod.fst)).2

def heard (events : List (DepacketizerEvent AudioOutput)) : List (Nat × UInt8) :=
  events.flatMap fun
    | .output out => samples out.timestamp out.data
    | .error _ => []

def spoken (data : AudioChunk → Bytes) (chunks : List AudioChunk) : List (Nat × UInt8) :=
  chunks.flatMap fun chunk => samples (usToRtp chunk.timestamp 8000) (data chunk)

/-- Whatever packets come, what is heard are some of the samples, each at its own tick, in
order and once; without a loss the first ones, and all of them in the end. What is handed
out are pieces of one block each, of which only the first one may begin a talkspurt. -/
structure PlaysSamples
    (packetize : Packetizer → AudioChunk → Except String (List Packet × Packetizer))
    (depacketize : Callbacks → ParsedPacket → Callbacks × List (DepacketizerEvent AudioOutput))
    (data : AudioChunk → Bytes) (chunks : List AudioChunk) (sender : Packetizer)
    (state : Callbacks) {seq : Nat}
    (reception : Reception seq (sentPackets packetize sender chunks)) : Prop where
  fits : ∀ packet ∈ sentPackets packetize sender chunks, packet.payload.length ≤ sender.mtu
  survivors : Survivors packetize sender chunks reception.played
  own_ticks : (heard (handedOutAudio depacketize state reception)).Sublist (spoken data chunks)
  pieces : ∀ output, .output output ∈ handedOutAudio depacketize state reception →
    ∃ chunk ∈ chunks, ∃ offset < (data chunk).length, output =
      { data := ((data chunk).drop offset).take sender.mtu
        timestamp := wrapUnsigned 32 (usToRtp chunk.timestamp 8000 + offset)
        type := .key
        marker := offset == 0 && chunk.marker }
  first_samples : reception.Unbroken →
    heard (handedOutAudio depacketize state reception) <+: spoken data chunks
  all_samples : reception.Unbroken → reception.Complete →
    heard (handedOutAudio depacketize state reception) = spoken data chunks

namespace Audio

theorem depacketize_eq {self : Callbacks} (listening : self.output = true)
    (packet : ParsedPacket) :
    depacketize self packet = (self,
      if packet.payload = [] then []
      else [.output ⟨packet.payload, packet.timestamp, .key, packet.marker⟩]) := by
  rw [depacketize, Callbacks.checkDepacketizePayload, listening, Bool.true_and]
  by_cases empty : packet.payload = []
  · rw [if_pos empty, empty]
    rfl
  · have some : 1 ≤ packet.payload.length := List.length_pos_iff.mpr empty
    rw [if_neg empty, if_pos (decide_eq_true some)]

theorem run_depacketize {self : Callbacks} (listening : self.output = true)
    (packets : List ParsedPacket) :
    (run depacketize self packets).2 = packets.flatMap fun packet =>
      if packet.payload = [] then []
      else [.output ⟨packet.payload, packet.timestamp, .key, packet.marker⟩] := by
  induction packets with
  | nil => rfl
  | cons packet rest ih =>
      rw [run, depacketize_eq listening, List.flatMap_cons]
      exact congrArg _ ih

theorem run_heard {self : Callbacks} (listening : self.output = true)
    (packets : List ParsedPacket) :
    heard (run depacketize self packets).2 = carried (packets.map (·.outgoing)) := by
  rw [run_depacketize listening, heard, List.flatMap_assoc, carried, List.flatMap_map]
  congr 1
  funext packet
  by_cases empty : packet.payload = []
  · rw [if_pos empty]
    simp [ParsedPacket.outgoing, empty, samples]
  · rw [if_neg empty, List.flatMap_singleton]
    rfl

theorem described_carried (data : AudioChunk → Bytes) (mtu : { mtu : Nat // 100 ≤ mtu })
    (chunks : List AudioChunk) :
    carried (describeAll (describe data) (fun kept _ => kept) mtu chunks).flatten =
      spoken data chunks := by
  rw [describe_all_const]
  induction chunks with
  | nil => rfl
  | cons chunk rest ih =>
      rw [List.map_cons, List.flatten_cons, carried, List.flatMap_append, ← carried, ← carried,
        ih, describe, block_outgoing_carried, spoken, spoken, List.flatMap_cons, clockRate]

theorem plays {packetize : Packetizer → AudioChunk → Except String (List Packet × Packetizer)}
    (blocks : Blocks packetize) {chunks : List AudioChunk} {data : AudioChunk → Bytes}
    (carries : ∀ chunk ∈ chunks, chunk.data = some (data chunk)) (self : Packetizer)
    {state : Callbacks} (listening : state.output = true)
    (reception : Reception self.seq (sentPackets packetize self chunks)) :
    PlaysSamples packetize depacketize data chunks self state reception := by
  have sends (chunk : AudioChunk) (member : chunk ∈ chunks) :=
    blocks_sends blocks (carries chunk member)
  obtain ⟨described, survivors⟩ := survivors_iff (describe_timestamps data) sends self
  have consecutive : Consecutive self.seq (sentPackets packetize self chunks) :=
    sent_packets_numbered (describe_timestamps data) sends self
  have sublist := reception.packets_sublist consecutive
  have whole : carried ((sentPackets packetize self chunks).map (·.outgoing)) =
      spoken data chunks := by
    rw [described]
    exact described_carried data _ chunks
  have pieces (packet : ParsedPacket) (member : packet ∈ sentPackets packetize self chunks) :
      ∃ chunk ∈ chunks, Carries self.mtu (data chunk) (usToRtp chunk.timestamp clockRate)
        chunk.marker packet.outgoing := by
    have out := List.mem_map_of_mem (f := ParsedPacket.outgoing) member
    rw [described] at out
    obtain ⟨group, groupMember, inside⟩ := List.mem_flatten.mp out
    rw [describe_all_const] at groupMember
    obtain ⟨chunk, chunkMember, rfl⟩ := List.mem_map.mp groupMember
    exact ⟨chunk, chunkMember, block_outgoing_member (wrap_unsigned_lt 32 _) inside⟩
  constructor
  · intro packet member
    obtain ⟨chunk, -, offset, payload, -⟩ := pieces packet member
    rw [show packet.payload = _ from payload]
    exact List.length_take_le _ _
  · exact (survivors _).mpr (reception.played_sublist consecutive)
  · rw [handedOutAudio, run_heard listening, ← whole, carried, carried]
    exact (sublist.map _).flatMap _
  · intro output handed
    rw [handedOutAudio, run_depacketize listening] at handed
    obtain ⟨packet, member, here⟩ := List.mem_flatMap.mp handed
    split_ifs at here with empty
    · cases here
    · cases List.mem_singleton.mp here
      obtain ⟨chunk, chunkMember, offset, payload, time, marker, inside⟩ :=
        pieces packet (sublist.subset member)
      refine ⟨chunk, chunkMember, offset, inside empty, ?_⟩
      rw [show packet.payload = _ from payload, show packet.timestamp = _ from time,
        show packet.marker = _ from marker, clockRate]
  · intro unbroken
    rw [handedOutAudio, run_heard listening, Reception.packets_first consecutive unbroken,
      ← whole, carried, carried]
    exact ((List.take_prefix _ _).map _).flatMap _
  · intro unbroken complete
    rw [handedOutAudio, run_heard listening, Reception.packets_all consecutive unbroken complete,
      whole]

end Audio

/-- Streams of G.711 and G.722 behind the jitter buffer. -/
theorem sample_blocks_play {chunks : List AudioChunk} (data : AudioChunk → Bytes)
    (carries : ∀ chunk ∈ chunks, chunk.data = some (data chunk)) (error : Bool) :
    (∀ (self : Packetizer) (depacketizer : Callbacks),
      initDepacketizer "G711Depacketizer" ⟨true, error⟩ = .ok depacketizer →
      ∀ reception : Reception self.seq (sentPackets G711.packetize self chunks),
        PlaysSamples G711.packetize G711.depacketize data chunks self depacketizer reception) ∧
    (∀ (self : Packetizer) (depacketizer : Callbacks),
      initDepacketizer "G722Depacketizer" ⟨true, error⟩ = .ok depacketizer →
      ∀ reception : Reception self.seq (sentPackets G722.packetize self chunks),
        PlaysSamples G722.packetize G722.depacketize data chunks self depacketizer reception) := by
  constructor
  · intro self depacketizer fresh reception
    cases fresh
    exact Audio.plays G711.blocks carries self rfl reception
  · intro self depacketizer fresh reception
    cases fresh
    exact Audio.plays G722.blocks carries self rfl reception

def twoBlocks : List AudioChunk :=
  [⟨⟨some (List.replicate 150 1), none, 536870899500⟩, true⟩,
    ⟨⟨some [7, 8], none, 536870918250⟩, false⟩]

theorem two_blocks_packets : (sentPackets G711.packetize smallPackets twoBlocks).length = 3 := by
  decide +kernel

theorem sample_blocks_play_reordered :
    ∃ reception : Reception smallPackets.seq (sentPackets G711.packetize smallPackets twoBlocks),
      reception.actions = reordered _ two_blocks_packets ++ [.flush 100] ∧
        heard (handedOutAudio G711.depacketize ⟨true, false⟩ reception) =
          samples 4294967196 (List.replicate 150 1 ++ [7, 8]) := by
  have carries : ∀ chunk ∈ twoBlocks, chunk.data = some (chunk.data.getD []) := by
    simp [twoBlocks]
  obtain ⟨reception, same, unbroken, complete⟩ :=
    @reordered_reception smallPackets.seq _ two_blocks_packets (by decide +kernel)
      (by decide +kernel) (by decide +kernel)
  have plays := (sample_blocks_play (fun chunk => chunk.data.getD []) carries false).1
    smallPackets ⟨true, false⟩ rfl reception
  have all : spoken (fun chunk => chunk.data.getD []) twoBlocks =
      samples 4294967196 (List.replicate 150 1 ++ [7, 8]) := by
    decide +kernel
  exact ⟨reception, same, (plays.all_samples unbroken complete).trans all⟩

end RtpPacket.Codec
