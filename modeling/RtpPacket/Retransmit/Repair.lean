import RtpPacket.Retransmit.Answering
import RtpPacket.Retransmit.Superseding
import RtpPacket.Rtcp.Nack

/-!
# Loss and repair between two parties

A sender stores and sends the packets of a stream, a receiver lists what is missing in
NACKs, and the sender answers with retransmissions. What is on the wire may be lost,
repeated and reordered in every direction. Whatever the network does, what the receiver
gets are packets of the stream under their own numbers, and it asks for nothing that was
never sent; when the network lets one NACK and its answers through, all that was listed
and is still kept is repaired.
-/

namespace RtpPacket.Repair

open ByteCodec Cooldown FlatRanges Nack Retransmit Rtcp Rtp Run Srtp Word

set_option autoImplicit false

structure Stream where
  ssrc : Nat
  pt : Nat
  receiverSsrc : Nat
  /-- The number of the first packet. -/
  first : Nat

/-- The packet that a stream has in this place. -/
structure Stream.Carries (stream : Stream) (index : Nat) (packet : Bytes) : Prop where
  long : 12 ≤ packet.length
  whole : WholeHeader packet
  padding : ValidPadding packet
  ssrc : ssrcOf packet = stream.ssrc
  pt : readBE 1 packet 1 % 128 = stream.pt
  seq : seqOf packet = (stream.first + index) % 65536

/-- Both parties and what they put on the wire. A message stays there: it may arrive late,
more than once or never. -/
structure Exchange where
  sender : Resender
  receiver : NackGenerator
  sent : List Bytes
  nacks : List Bytes
  resent : List Resent
  /-- What the receiver got, with its extended number. -/
  arrived : List (Int × Bytes)
  /-- The time that the sender read last. -/
  time : ℚ

def nackPackets (stream : Stream) (seqs : List Nat) : List Bytes :=
  if seqs = [] then []
  else
    match buildNACK stream.receiverSsrc stream.ssrc seqs with
    | .ok (some packet) => [packet]
    | _ => []

def Exchange.send (state : Exchange) (packet : Bytes) : Exchange :=
  { state with
    sender := { state.sender with buffer := state.sender.buffer.store packet }
    sent := state.sent ++ [packet] }

def Exchange.report (stream : Stream) (state : Exchange) (now : ℚ) : Exchange :=
  { state with
    receiver := (state.receiver.buildFeedback now).1
    nacks := state.nacks ++ nackPackets stream (state.receiver.buildFeedback now).2 }

/-- A packet comes in under a number; it may have been recovered. -/
def Exchange.take (library : Library) (state : Exchange) (clock : ℚ) (extSeq : Int)
    (isKeyframe isRecovered : Bool) (packet : Bytes) : Exchange :=
  { state with
    receiver := state.receiver.observePacket library clock extSeq isKeyframe isRecovered
    arrived := state.arrived ++ [(extSeq, packet)] }

def Exchange.answer (state : Exchange) (media seq : Nat) (now draw : ℚ) : Exchange :=
  { state with
    sender := (state.sender.answer media seq now draw).1
    resent := state.resent ++ (state.sender.answer media seq now draw).2
    time := now }

inductive Step (library : Library) (stream : Stream) : Exchange → Exchange → Prop where
  | send {state : Exchange} {packet : Bytes} (carried : stream.Carries state.sent.length packet) :
      Step library stream state (state.send packet)
  | clearBuffer {state : Exchange} (ssrc : Option Nat) :
      Step library stream state
        { state with
          sender := { state.sender with buffer := state.sender.buffer.clear ssrc } }
  | deliver {state : Exchange} {index : Nat} {packet : Bytes}
      (onWire : state.sent[index]? = some packet) (clock : ℚ) (isKeyframe : Bool) :
      Step library stream state
        (state.take library clock (stream.first + index : Nat) isKeyframe false packet)
  | updateRtt {state : Exchange} (rttMs : Option ℚ) :
      Step library stream state { state with receiver := state.receiver.updateRtt rttMs }
  | acknowledgeKeyframeRequested {state : Exchange} :
      Step library stream state
        { state with receiver := state.receiver.acknowledgeKeyframeRequested }
  | feedback {state : Exchange} {now : ℚ} (real : now ≠ 0) :
      Step library stream state (state.report stream now)
  /-- One number of a NACK that came through. -/
  | request {state : Exchange} {nack : Bytes} {parsed : RtcpPacket} {source media seq : Nat}
      {lost : List Nat} (onWire : nack ∈ state.nacks) (parses : parseRTCP nack = some parsed)
      (body : parsed.body = .nack source media lost) (listed : seq ∈ lost) {now : ℚ}
      (ordered : state.time ≤ now) (draw : ℚ) :
      Step library stream state (state.answer media seq now draw)
  /-- A retransmission that came through; its number is extended to one that was sent. -/
  | recover {state : Exchange} {resent : Resent} {rtx packet : Bytes} {index : Nat}
      (onWire : resent ∈ state.resent) (made : resent.packet = some rtx)
      (parses : parseRtxPacket rtx (some ⟨some (stream.ssrc : Int), some (stream.pt : Int)⟩) =
        some packet)
      (known : index < state.sent.length) (extended : (stream.first + index) % 65536 = seqOf packet)
      (clock : ℚ) :
      Step library stream state
        (state.take library clock (stream.first + index : Nat) false true packet)

structure Initial (start : Exchange) : Prop where
  sender : Resender.Fresh start.sender
  receiver : Nack.Fresh start.receiver
  sent : start.sent = []
  nacks : start.nacks = []
  resent : start.resent = []
  arrived : start.arrived = []
  time : 0 < start.time

def Exchange.Sent (stream : Stream) (state : Exchange) (seq : Int) : Prop :=
  ∃ index < state.sent.length, seq = (stream.first + index : Nat)

/-- A packet of the stream with this number, as it was sent or without its padding. -/
def Exchange.Genuine (state : Exchange) (seq : Int) (packet : Bytes) : Prop :=
  ∃ orig ∈ state.sent, seq % 65536 = (seqOf orig : Nat) ∧
    (packet = orig ∨ packet = withoutPadding orig)

structure Holds (stream : Stream) (start state : Exchange) : Prop where
  carried : ∀ index packet, state.sent[index]? = some packet → stream.Carries index packet
  sender : ∃ past, Resender.Kept start.sender start.time past (state.sender, state.resent) ∧
    Resender.stored past = state.sent ∧ (Resender.clock past).getLastD start.time = state.time
  time : 0 < state.time
  receiver : ∃ past, Seen start.receiver past state.receiver ∧
    observed past = state.arrived.map Prod.fst
  orderly : Orderly start.receiver.maxNackEntries state.receiver
  highest : state.receiver.started = true → state.Sent stream state.receiver.highestExtSeq
  arrived : ∀ entry ∈ state.arrived, state.Sent stream entry.1 ∧ state.Genuine entry.1 entry.2
  nacks : ∀ nack ∈ state.nacks, ∃ asked : List Int, (∀ seq ∈ asked, state.Sent stream seq) ∧
    nack ∈ nackPackets stream (asked.map (wrapUnsigned 16))
  resent : ∀ index resent, state.resent[index]? = some resent → ∃ orig ∈ state.sent, ∃ rtx,
    resent.packet = some rtx ∧ seqOf orig = resent.seq ∧
      Wraps orig rtx start.sender.rtx.rtxSsrc start.sender.rtx.rtxPt
        (start.sender.rtx.seq + index + 1 : Nat)

theorem Initial.holds {start : Exchange} (initial : Initial start) (stream : Stream) :
    Holds stream start start := by
  constructor
  case carried =>
    rw [initial.sent]
    intro index packet found
    cases found
  case sender =>
    refine ⟨[], ?_, initial.sent.symm, rfl⟩
    rw [initial.resent]
    exact initial.sender.kept start.time
  case time => exact initial.time
  case receiver =>
    refine ⟨[], initial.receiver.seen, ?_⟩
    rw [initial.arrived]
    rfl
  case orderly => exact initial.receiver.orderly
  case highest =>
    intro running
    rw [initial.receiver.started] at running
    cases running
  case arrived =>
    rw [initial.arrived]
    intro entry member
    cases member
  case nacks =>
    rw [initial.nacks]
    intro nack member
    cases member
  case resent =>
    rw [initial.resent]
    intro index resent found
    cases found

section Steps

variable {library : Library} {stream : Stream} {start state : Exchange}

theorem Exchange.Sent.more {seq : Int} (sent : state.Sent stream seq) {later : Exchange}
    {packets : List Bytes} (more : later.sent = state.sent ++ packets) : later.Sent stream seq := by
  obtain ⟨index, known, same⟩ := sent
  refine ⟨index, ?_, same⟩
  rw [more, List.length_append]
  omega

theorem Exchange.Genuine.more {seq : Int} {packet : Bytes} (genuine : state.Genuine seq packet)
    {later : Exchange} {packets : List Bytes} (more : later.sent = state.sent ++ packets) :
    later.Genuine seq packet := by
  obtain ⟨orig, member, same⟩ := genuine
  refine ⟨orig, ?_, same⟩
  rw [more]
  exact List.mem_append_left _ member

theorem Holds.send (holds : Holds stream start state) {packet : Bytes}
    (carried : stream.Carries state.sent.length packet) :
    Holds stream start (state.send packet) := by
  obtain ⟨past, kept, stores, ticked⟩ := holds.sender
  constructor
  case carried =>
    intro index other found
    rw [Exchange.send] at found
    by_cases old : index < state.sent.length
    · rw [List.getElem?_append_left old] at found
      exact holds.carried index other found
    · rw [List.getElem?_append_right (Nat.not_lt.mp old), List.getElem?_singleton] at found
      split_ifs at found with last
      rw [← Option.some.inj found, show index = state.sent.length by omega]
      exact carried
  case sender =>
    have stored := kept.quiet (.store packet) rfl (kept.buffer.store packet)
    rw [List.append_nil] at stored
    refine ⟨past ++ [.store packet], stored, ?_, ?_⟩
    · rw [Resender.stored_append, stores]
      rfl
    · rw [Resender.clock_silent rfl, ticked]
      rfl
  case time => exact holds.time
  case receiver => exact holds.receiver
  case orderly => exact holds.orderly
  case highest => exact fun running => (holds.highest running).more rfl
  case arrived =>
    intro entry member
    obtain ⟨sent, genuine⟩ := holds.arrived entry member
    exact ⟨sent.more rfl, genuine.more rfl⟩
  case nacks =>
    intro nack member
    obtain ⟨asked, sent, made⟩ := holds.nacks nack member
    exact ⟨asked, fun seq asks => (sent seq asks).more rfl, made⟩
  case resent =>
    intro index resent found
    obtain ⟨orig, member, rest⟩ := holds.resent index resent found
    exact ⟨orig, List.mem_append_left _ member, rest⟩

theorem Holds.clear_buffer (holds : Holds stream start state) (ssrc : Option Nat) :
    Holds stream start
      { state with sender := { state.sender with buffer := state.sender.buffer.clear ssrc } } := by
  obtain ⟨past, kept, stores, ticked⟩ := holds.sender
  have cleared := kept.quiet (.clearBuffer ssrc) rfl
    ((List.append_nil (Resender.stored past)).symm ▸ kept.buffer.clear ssrc)
  rw [List.append_nil] at cleared
  have same : Resender.stored (past ++ [.clearBuffer ssrc]) = Resender.stored past := by
    rw [Resender.stored_append]
    exact List.append_nil _
  exact { holds with
    sender := ⟨past ++ [.clearBuffer ssrc], cleared, same.trans stores,
      (congrArg (List.getLastD · start.time) (Resender.clock_silent rfl)).trans ticked⟩ }

theorem Holds.take (correct : library.Correct) (holds : Holds stream start state) {extSeq : Int}
    {packet : Bytes} (sent : state.Sent stream extSeq) (genuine : state.Genuine extSeq packet)
    (clock : ℚ) (isKeyframe isRecovered : Bool) :
    Holds stream start (state.take library clock extSeq isKeyframe isRecovered packet) := by
  obtain ⟨past, seen, arrivals⟩ := holds.receiver
  have arrival : state.receiver.Arrival library clock extSeq isKeyframe isRecovered _ :=
    NackGenerator.observe_packet_arrival correct seen.valid clock isKeyframe isRecovered
  exact { holds with
    receiver := by
      refine ⟨past ++ [.observePacket clock extSeq isKeyframe isRecovered],
        seen.arrival arrival, ?_⟩
      rw [observed_snoc, arrivals, Exchange.take, List.map_append]
      rfl
    orderly := holds.orderly.observe_packet correct clock extSeq isKeyframe isRecovered
    highest := by
      intro _
      change state.Sent stream
        (state.receiver.observePacket library clock extSeq isKeyframe isRecovered).highestExtSeq
      rw [arrival.highest, NackGenerator.reach]
      split_ifs with idle recovered
      · exact sent
      · exact holds.highest (Bool.not_eq_false _ ▸ idle)
      · rcases max_choice state.receiver.highestExtSeq extSeq with old | new
        · rw [old]
          exact holds.highest (Bool.not_eq_false _ ▸ idle)
        · rw [new]
          exact sent
    arrived := by
      intro entry member
      cases List.mem_append.mp member with
      | inl old => exact holds.arrived entry old
      | inr new =>
          rw [List.mem_singleton.mp new]
          exact ⟨sent, genuine⟩ }

/-- What counts as missing was sent, and did not arrive. -/
theorem Holds.missing (holds : Holds stream start state) {seq : Int}
    (missing : seq ∈ state.receiver.missing.keys) :
    state.Sent stream seq ∧ seq ∉ state.arrived.map Prod.fst := by
  obtain ⟨past, seen, arrivals⟩ := holds.receiver
  obtain ⟨running, ⟨first, isFirst, above⟩, below, unseen⟩ := seen.missing seq missing
  rw [arrivals] at isFirst unseen
  obtain ⟨entry, member, same⟩ := List.mem_map.mp (List.mem_of_mem_head? isFirst)
  obtain ⟨⟨low, _, lowest⟩, _⟩ := holds.arrived entry member
  obtain ⟨high, inside, highest⟩ := holds.highest running
  refine ⟨⟨(seq - stream.first).toNat, ?_, ?_⟩, unseen⟩
  · omega
  · omega

theorem listed_missing {receiver : NackGenerator} {now : ℚ} {seq : Int}
    (listed : seq ∈ receiver.listed now) : seq ∈ receiver.evictOld.missing.keys := by
  obtain ⟨info, known, -⟩ := NackGenerator.mem_taking.mp listed
  exact InsertionMap.mem_keys_iff.mpr ⟨info, known⟩

/-- What feedback lists is missing, and not too old. -/
theorem Holds.listed (holds : Holds stream start state) {now : ℚ} {seq : Int}
    (listed : seq ∈ state.receiver.listed now) :
    seq ∈ state.receiver.missing.keys ∧
      ¬ TooOld state.receiver state.receiver.highestExtSeq seq :=
  (NackGenerator.mem_evict_old_keys holds.orderly.backlog.ascending).mp (listed_missing listed)

theorem Holds.feedback (holds : Holds stream start state) (now : ℚ) :
    Holds stream start (state.report stream now) := by
  obtain ⟨past, seen, arrivals⟩ := holds.receiver
  have drained := NackGenerator.build_feedback_drained _ seen.valid now
  exact { holds with
    receiver := ⟨past ++ [.buildFeedback now], seen.drained drained,
      (observed_silent rfl past).trans arrivals⟩
    orderly := holds.orderly.build_feedback now
    highest := by
      intro running
      change state.Sent stream (state.receiver.buildFeedback now).1.highestExtSeq
      rw [drained.highest]
      exact holds.highest (drained.started ▸ running)
    nacks := by
      intro nack member
      cases List.mem_append.mp member with
      | inl old => exact holds.nacks nack old
      | inr new =>
          exact ⟨_, fun seq listed => (holds.missing (holds.listed listed).1).1, new⟩ }

theorem Holds.settings (holds : Holds stream start state) (event : NackEvent)
    (silent : observed [event] = []) (rttMs : ℚ) (needKeyframe : Bool) :
    Holds stream start
      { state with
        receiver := { state.receiver with
          rttMs := rttMs
          needKeyframe := needKeyframe } } := by
  obtain ⟨past, seen, arrivals⟩ := holds.receiver
  exact { holds with
    receiver := ⟨past ++ [event], seen.quiet silent rttMs needKeyframe,
      (observed_silent silent past).trans arrivals⟩
    orderly := ⟨holds.orderly.valid, holds.orderly.idle, holds.orderly.entries,
      holds.orderly.backlog⟩ }

theorem Holds.sound (holds : Holds stream start state) : Resender.Sound state.sent := by
  intro packet member _
  obtain ⟨index, found⟩ := List.mem_iff_getElem?.mp member
  have carried := holds.carried index packet found
  exact ⟨carried.whole, carried.padding⟩

theorem Holds.request (holds : Holds stream start state) (media seq : Nat) {now : ℚ}
    (ordered : state.time ≤ now) (draw : ℚ) :
    Holds stream start (state.answer media seq now draw) := by
  obtain ⟨past, kept, stores, ticked⟩ := holds.sender
  have positive := holds.time.trans_le ordered
  have same : Resender.stored (past ++ [.lost media seq now draw]) = Resender.stored past := by
    rw [Resender.stored_append]
    exact List.append_nil _
  exact { holds with
    sender := by
      refine ⟨past ++ [.lost media seq now draw],
        (kept.lost (ticked ▸ ordered) positive.ne').1, same.trans stores, ?_⟩
      rw [Resender.clock_lost, List.getLastD_concat]
      rfl
    time := positive
    resent := by
      intro index resent found
      rw [Exchange.answer] at found
      by_cases old : index < state.resent.length
      · rw [List.getElem?_append_left old] at found
        exact holds.resent index resent found
      · rw [List.getElem?_append_right (Nat.not_lt.mp old)] at found
        have few := (state.sender.answer_small media seq now draw).1
        obtain ⟨inside, _⟩ := List.getElem?_eq_some_iff.mp found
        have last : index = state.resent.length := by omega
        have sound := holds.sound
        rw [← stores] at sound
        obtain ⟨orig, rtx, latest, made, wraps, _⟩ :=
          kept.retransmits sound (List.mem_of_getElem? found)
        obtain ⟨member, _, _, number⟩ := SenderBuffer.latest_eq_some latest
        rw [last]
        exact ⟨orig, stores ▸ member, rtx, made, number, wraps⟩ }

/-- A retransmission unwraps to the packet that it was made from. -/
theorem Holds.unwrap (holds : Holds stream start state) {resent : Resent} {rtx packet : Bytes}
    (onWire : resent ∈ state.resent) (made : resent.packet = some rtx)
    (parses : parseRtxPacket rtx (some ⟨some (stream.ssrc : Int), some (stream.pt : Int)⟩) =
      some packet) :
    ∃ orig ∈ state.sent, seqOf orig = resent.seq ∧ seqOf packet = seqOf orig ∧
      packet = withoutPadding orig := by
  obtain ⟨index, found⟩ := List.mem_iff_getElem?.mp onWire
  obtain ⟨orig, member, other, otherMade, number, wraps⟩ := holds.resent index resent found
  obtain ⟨place, sent⟩ := List.mem_iff_getElem?.mp member
  have carried := holds.carried place orig sent
  have unwrapped := wraps.unwrap carried.whole carried.padding
  have source : (readBE 4 orig 8 : Nat) = stream.ssrc := carried.ssrc
  rw [source, carried.pt, ← Option.some.inj (made.symm.trans otherMade), parses] at unwrapped
  have same := Option.some.inj unwrapped
  refine ⟨orig, member, number, ?_, same⟩
  rw [same]
  exact seq_without_padding carried.padding

theorem Holds.step (correct : library.Correct) (holds : Holds stream start state)
    {next : Exchange} (step : Step library stream state next) : Holds stream start next := by
  cases step with
  | send carried => exact holds.send carried
  | clearBuffer ssrc => exact holds.clear_buffer ssrc
  | @deliver index packet onWire clock isKeyframe =>
      obtain ⟨inside, _⟩ := List.getElem?_eq_some_iff.mp onWire
      have number := (holds.carried index packet onWire).seq
      apply holds.take correct ⟨index, inside, rfl⟩ ?_ clock isKeyframe false
      refine ⟨packet, List.mem_of_getElem? onWire, ?_, .inl rfl⟩
      omega
  | updateRtt rttMs =>
      obtain ⟨rtt, updated⟩ := update_rtt_eq state.receiver rttMs
      rw [updated]
      exact holds.settings (.updateRtt rttMs) rfl rtt state.receiver.needKeyframe
  | acknowledgeKeyframeRequested =>
      exact holds.settings .acknowledgeKeyframeRequested rfl state.receiver.rttMs false
  | @feedback now _ => exact holds.feedback now
  | @request _ _ _ media seq _ _ _ _ _ now ordered draw =>
      exact holds.request media seq ordered draw
  | @recover resent rtx packet index onWire made parses known extended clock =>
      obtain ⟨orig, member, _, number, unwrapped⟩ := holds.unwrap onWire made parses
      apply holds.take correct ⟨index, known, rfl⟩ ?_ clock false true
      refine ⟨orig, member, ?_, .inr unwrapped⟩
      omega

end Steps

theorem reached_holds {library : Library} (correct : library.Correct) {stream : Stream}
    {start state : Exchange} (initial : Initial start)
    (reached : Relation.ReflTransGen (Step library stream) start state) :
    Holds stream start state := by
  induction reached with
  | refl => exact initial.holds stream
  | tail _ step holds => exact holds.step correct step

/-- A packet under the number of one that was sent is that one, as long as the numbers do not
repeat. -/
theorem Holds.place {stream : Stream} {start state : Exchange} (holds : Holds stream start state)
    (few : state.sent.length ≤ 65536) {seq : Int} (sent : state.Sent stream seq) {orig : Bytes}
    (member : orig ∈ state.sent) (number : seq % 65536 = (seqOf orig : Nat)) :
    ∃ index, state.sent[index]? = some orig ∧ seq = (stream.first + index : Nat) := by
  obtain ⟨index, inside, named⟩ := sent
  obtain ⟨place, found⟩ := List.mem_iff_getElem?.mp member
  obtain ⟨placed, _⟩ := List.getElem?_eq_some_iff.mp found
  have carried := (holds.carried place orig found).seq
  -- Two places of one cycle with one number are one place.
  have one : place = index := by omega
  exact ⟨index, one ▸ found, named⟩

/-- Whatever is lost, repeated or reordered on the way, the receiver gets packets of the
stream under their own numbers, counts as missing only what was sent and did not arrive, and
asks for nothing else; retransmissions are numbered in turn, and none is repeated within a
window. -/
theorem exchange_safe {library : Library} (correct : library.Correct) {stream : Stream}
    {start state : Exchange} (initial : Initial start)
    (reached : Relation.ReflTransGen (Step library stream) start state) :
    (∀ entry ∈ state.arrived, state.Sent stream entry.1 ∧ state.Genuine entry.1 entry.2) ∧
    (state.sent.length ≤ 65536 → ∀ entry ∈ state.arrived, ∃ index orig,
      state.sent[index]? = some orig ∧ entry.1 = (stream.first + index : Nat) ∧
        (entry.2 = orig ∨ entry.2 = withoutPadding orig)) ∧
    (∀ seq ∈ state.receiver.missing.keys,
      state.Sent stream seq ∧ seq ∉ state.arrived.map Prod.fst) ∧
    (∀ now, ∀ number ∈ (state.receiver.buildFeedback now).2,
      ∃ seq ∈ state.receiver.missing.keys, number = wrapUnsigned 16 seq) ∧
    (∀ nack ∈ state.nacks, ∃ asked : List Int, (∀ seq ∈ asked, state.Sent stream seq) ∧
      nack ∈ nackPackets stream (asked.map (wrapUnsigned 16))) ∧
    (∀ index resent, state.resent[index]? = some resent → ∃ orig ∈ state.sent, ∃ rtx,
      resent.packet = some rtx ∧ seqOf orig = resent.seq ∧
        Wraps orig rtx start.sender.rtx.rtxSsrc start.sender.rtx.rtxPt
          (start.sender.rtx.seq + index + 1 : Nat)) ∧
    Spaced start.sender.throttle.windowMs (Resender.sendings state.resent) := by
  have holds := reached_holds correct initial reached
  refine ⟨holds.arrived, ?_, fun seq missing => holds.missing missing, ?_, holds.nacks,
    holds.resent, ?_⟩
  · intro few entry member
    obtain ⟨sent, orig, inside, number, same⟩ := holds.arrived entry member
    obtain ⟨index, found, named⟩ := holds.place few sent inside number
    exact ⟨index, orig, found, named, same⟩
  · intro now number member
    obtain ⟨seq, listed, rfl⟩ := List.mem_map.mp member
    exact ⟨seq, (holds.listed listed).1, rfl⟩
  · obtain ⟨past, kept, _⟩ := holds.sender
    exact kept.spaced

section Round

variable {library : Library} {stream : Stream} {start state : Exchange}

theorem Holds.sends (holds : Holds stream start state) {media seq : Nat} {orig : Bytes}
    (stocked : state.sender.buffer.get media seq = some orig) {now : ℚ}
    (ordered : state.time ≤ now)
    (ready : Ready start.sender.throttle.windowMs (Resender.sendings state.resent) (media, seq)
      now) :
    ∃ resent rtx, (state.sender.answer media seq now 1).2 = [resent] ∧ resent.packet = some rtx ∧
      resent.ssrc = media ∧ resent.seq = seq ∧ resent.now = now ∧
      (∃ number, Wraps orig rtx start.sender.rtx.rtxSsrc start.sender.rtx.rtxPt number) ∧
      orig ∈ state.sent ∧ ssrcOf orig = media ∧ seqOf orig = seq := by
  obtain ⟨past, kept, stores, ticked⟩ := holds.sender
  have answers := (@Resender.Kept.lost _ _ _ _ kept media seq now 1 (ticked ▸ ordered)
    (holds.time.trans_le ordered).ne').2
  have filled : (state.sender.answer media seq now 1).2 ≠ [] := by
    intro none
    cases answers.mp none with
    | inl missing =>
        rw [stocked] at missing
        cases missing
    | inr unready => exact unready ready
  obtain ⟨resent, only⟩ : ∃ resent, (state.sender.answer media seq now 1).2 = [resent] := by
    have few := (state.sender.answer_small media seq now 1).1
    exact List.length_eq_one_iff.mp (Nat.le_antisymm few (List.length_pos_iff.mpr filled))
  have member : resent ∈ (state.sender.answer media seq now 1).2 := only ▸ List.mem_singleton_self _
  have sound := holds.sound
  rw [← stores] at sound
  obtain ⟨source, number, time⟩ := Resender.answer_names member
  obtain ⟨other, rtx, latest, made, wraps, _⟩ := kept.retransmits sound member
  rw [source, number, kept.buffer.get stocked] at latest
  obtain ⟨sent, _, own, numbered⟩ := SenderBuffer.latest_eq_some (kept.buffer.get stocked)
  rw [← Option.some.inj latest] at wraps
  exact ⟨resent, rtx, only, made, source, number, time, ⟨_, wraps⟩, stores ▸ sent, own, numbered⟩

structure Repaired (before after : Exchange) (seq : Int) (name : Nat × Nat) (orig : Bytes)
    (now : ℚ) : Prop where
  buffer : after.sender.buffer = before.sender.buffer
  nacks : after.nacks = before.nacks
  sent : after.sent = before.sent
  time : after.time = now
  sendings : Resender.sendings after.resent = Resender.sendings before.resent ++ [(name, now)]
  missing : after.receiver.missing = before.receiver.missing.erase seq
  arrived : after.arrived = before.arrived ++ [(seq, withoutPadding orig)]

/-- What the receiver sends for a list, the sender reads as that list. -/
theorem nack_packets_parse (stream : Stream) (ssrcRange : stream.ssrc < 2 ^ 32) {seqs : List Nat}
    (nonempty : seqs ≠ []) (bounded : ∀ seq ∈ seqs, seq < 65536) :
    ∃ nack ∈ nackPackets stream seqs, ∃ parsed source lost, parseRTCP nack = some parsed ∧
      parsed.body = .nack source stream.ssrc lost ∧ ∀ seq ∈ seqs, seq ∈ lost := by
  have members := (built_numbers seqs).2
  have made : 4 ≤ (nackFci (buildNackEntries seqs)).length := by
    rw [nack_fci_length]
    have filled : buildNackEntries seqs ≠ [] := by
      intro none
      obtain ⟨seq, asked⟩ := List.exists_mem_of_ne_nil _ nonempty
      have listed := (members seq).mpr asked
      rw [none] at listed
      cases listed
    have positive := List.length_pos_iff.mpr filled
    omega
  obtain ⟨parsed, parses, body⟩ := parse_nack_packet stream.receiverSsrc stream.ssrc made none
  rw [Nat.mod_eq_of_lt ssrcRange] at body
  refine ⟨_, ?_, parsed, _, _, parses, body, ?_⟩
  · rw [nackPackets, if_neg nonempty,
      build_nack_packet stream.receiverSsrc stream.ssrc nonempty bounded]
    exact List.mem_singleton_self _
  · intro seq asked
    rw [parse_nack_fci (built_entries_in_range bounded)]
    exact List.mem_append_left _ ((members seq).mpr asked)

/-- A NACK for what feedback lists reaches the sender with all of it. -/
theorem Holds.nack (holds : Holds stream start state) {now : ℚ}
    (waiting : state.receiver.listed now ≠ []) :
    ∃ nack ∈ (state.report stream now).nacks, ∃ parsed source lost,
      parseRTCP nack = some parsed ∧ parsed.body = .nack source stream.ssrc lost ∧
        ∀ seq ∈ state.receiver.listed now, wrapUnsigned 16 seq ∈ lost := by
  obtain ⟨seq, listed⟩ := List.exists_mem_of_ne_nil _ waiting
  obtain ⟨index, inside, _⟩ := (holds.missing (holds.listed listed).1).1
  have ssrcRange : stream.ssrc < 2 ^ 32 := by
    rw [← (holds.carried index _ (List.getElem?_eq_getElem inside)).ssrc]
    exact read_be_lt 4 _ 8
  obtain ⟨nack, made, parsed, source, lost, parses, body, reads⟩ :=
    nack_packets_parse stream ssrcRange (mt List.map_eq_nil_iff.mp waiting) (by
      intro number member
      obtain ⟨other, _, rfl⟩ := List.mem_map.mp member
      exact wrap_unsigned_lt 16 other)
  exact ⟨nack, List.mem_append_right _ made, parsed, source, lost, parses, body,
    fun seq member => reads _ (List.mem_map_of_mem member)⟩

/-- What the ring has for a number of the stream, and may send. -/
structure Available (stream : Stream) (start state : Exchange) (now : ℚ) (seq : Int) : Prop where
  sent : state.Sent stream seq
  stocked : ∃ orig, state.sender.buffer.get stream.ssrc (wrapUnsigned 16 seq) = some orig
  ready : Ready start.sender.throttle.windowMs (Resender.sendings state.resent)
    (stream.ssrc, wrapUnsigned 16 seq) now

theorem Repaired.available {after : Exchange} {seq other : Int} {orig : Bytes} {now : ℚ}
    (repaired : Repaired state after seq (stream.ssrc, wrapUnsigned 16 seq) orig now)
    (apart : wrapUnsigned 16 seq ≠ wrapUnsigned 16 other)
    (available : Available stream start state now other) :
    Available stream start after now other := by
  constructor
  case sent => exact available.sent.more (repaired.sent.trans (List.append_nil _).symm)
  case stocked =>
    rw [repaired.buffer]
    exact available.stocked
  case ready =>
    have keys : ((stream.ssrc, wrapUnsigned 16 seq) : Nat × Nat) ≠
        (stream.ssrc, wrapUnsigned 16 other) := fun same => apart (congrArg Prod.snd same)
    rw [repaired.sendings, Ready, lastGrant, times_append_other _ keys]
    exact available.ready

end Round

def mediaStream : Stream where
  ssrc := 7
  pt := 96
  receiverSsrc := 1
  first := 65535

def opening : Exchange where
  sender := Resender.resender
  receiver := defaultGenerator
  sent := []
  nacks := []
  resent := []
  arrived := []
  time := 1

theorem opening_initial : Initial opening :=
  ⟨⟨⟨some 8, rfl⟩, ⟨none, rfl⟩, by decide⟩, ⟨rfl, rfl, rfl, rfl⟩, rfl, rfl, rfl, rfl, by decide⟩

def gap : Exchange :=
  ((((opening.send (SenderBuffer.emptyPacket 7 65535)).send (SenderBuffer.emptyPacket 7 0)).send
    (SenderBuffer.emptyPacket 7 1)).take reference 0 65535 false false
      (SenderBuffer.emptyPacket 7 65535)).take reference 0 65537 false false
        (SenderBuffer.emptyPacket 7 1)

theorem empty_packet_carried (index : Nat) (packet : Bytes) (short : packet.length = 12)
    (first : readBE 1 packet 0 = 0x80) (second : readBE 1 packet 1 = 96)
    (source : ssrcOf packet = 7) (number : seqOf packet = (65535 + index) % 65536) :
    mediaStream.Carries index packet := by
  have plain : ¬ Extended packet := by
    rw [Extended, first]
    decide
  have ends : rtpHeaderLength packet = 12 := by
    rw [header_length_plain plain, fixedHeaderEnd, first]
  have unpadded : ¬ Padded packet := by
    rw [Padded, first]
    decide
  exact ⟨short.ge, ⟨short.ge, by omega, fun extended => absurd extended plain⟩,
    fun padded => absurd padded unpadded, source, by rw [second]; rfl, number⟩

theorem gap_reached : Relation.ReflTransGen (Step reference mediaStream) opening gap := by
  have sent : Relation.ReflTransGen (Step reference mediaStream) opening
      (((opening.send (SenderBuffer.emptyPacket 7 65535)).send
        (SenderBuffer.emptyPacket 7 0)).send (SenderBuffer.emptyPacket 7 1)) :=
    ((Relation.ReflTransGen.single
      (.send (empty_packet_carried 0 _ rfl rfl rfl (by decide) (by decide)))).tail
        (.send (empty_packet_carried 1 _ rfl rfl rfl (by decide) (by decide)))).tail
          (.send (empty_packet_carried 2 _ rfl rfl rfl (by decide) (by decide)))
  exact (sent.tail (@Step.deliver _ _ _ 0 _ rfl 0 false)).tail (@Step.deliver _ _ _ 2 _ rfl 0 false)

theorem exchange_safe_gap :
    (∀ entry ∈ gap.arrived, gap.Sent mediaStream entry.1 ∧ gap.Genuine entry.1 entry.2) ∧
      gap.receiver.missing.keys = [65536] ∧ (gap.receiver.buildFeedback 10).2 = [0] ∧
        gap.Sent mediaStream 65536 := by
  obtain ⟨arrived, _, missing, _⟩ := exchange_safe reference_correct opening_initial gap_reached
  have waiting : gap.receiver.missing.keys = [65536] := by decide +kernel
  have sent := (missing 65536 (by rw [waiting]; exact List.mem_singleton_self _)).1
  exact ⟨arrived, waiting, by decide +kernel, sent⟩

end RtpPacket.Repair
