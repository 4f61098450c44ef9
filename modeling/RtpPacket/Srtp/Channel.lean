import RtpPacket.Srtp.Rollover
import RtpPacket.Srtp.RoundTrip

/-!
# A sender, a receiver and the network between them

The network keeps every protected packet for ever and hands any of them over at
any time: a packet it never hands over is lost, one it hands over twice is
duplicated, and the order is its own. What the receiver does is compared with
the window rule of `SlidingWindow` over the true extended sequence numbers.
-/

namespace RtpPacket.Srtp

open ByteCodec Run SlidingWindow

set_option autoImplicit false

/-- Two sessions made for the two ends of one call, the receiving one with replay
protection. -/
inductive Ends (crypto : Crypto) : Session → Session → Prop where
  | symmetric {masterKey masterSalt : Bytes} {senderOpts receiverOpts : SessionOptions}
      {sender receiver : Session}
      (sameProfile : normalizeProfile senderOpts.profile = normalizeProfile receiverOpts.profile)
      (protection : receiverOpts.replayProtection ≠ some false)
      (madeSender : srtpSession crypto (.symmetric masterKey masterSalt) senderOpts = .ok sender)
      (madeReceiver :
        srtpSession crypto (.symmetric masterKey masterSalt) receiverOpts = .ok receiver) :
      Ends crypto sender receiver
  | dtls {senderProfile receiverProfile : ProfileArg} {keyingMaterial : Bytes} {isServer : Bool}
      {senderReplay receiverReplay : Option Bool} {sender receiver : Session}
      (sameProfile : normalizeProfile senderProfile = normalizeProfile receiverProfile)
      (protection : receiverReplay ≠ some false)
      (madeSender : fromDtlsKeyingMaterial crypto senderProfile keyingMaterial isServer
        senderReplay = .ok sender)
      (madeReceiver : fromDtlsKeyingMaterial crypto receiverProfile keyingMaterial (!isServer)
        receiverReplay = .ok receiver) :
      Ends crypto sender receiver

structure Flight where
  extSeq : Nat
  packet : Bytes
  wire : Bytes

structure Channel where
  sender : Session
  receiver : Session
  flights : List Flight
  lastSent : Nat → Option Nat
  accepted : Nat → List Nat

inductive ChannelEvent where
  | send (extSeq : Nat) (packet : Bytes)
  | deliver (position : Nat)

namespace Channel

def start (sender receiver : Session) : Channel where
  sender := sender
  receiver := receiver
  flights := []
  lastSent := fun _ => none
  accepted := fun _ => []

def send (crypto : Crypto) (channel : Channel) (extSeq : Nat) (packet : Bytes) : Channel :=
  let result := encryptRtp crypto channel.sender packet
  { channel with
    sender := result.1
    flights := channel.flights ++ (result.2.map fun wire => ⟨extSeq, packet, wire⟩).toList
    lastSent := Function.update channel.lastSent (ssrcOf packet) (some extSeq) }

def deliver (crypto : Crypto) (channel : Channel) (flight : Flight) : Channel :=
  let result := decryptRtp crypto channel.receiver flight.wire
  let ssrc := ssrcOf flight.packet
  { channel with
    receiver := result.1
    accepted :=
      if result.2.isSome then
        Function.update channel.accepted ssrc (flight.extSeq :: channel.accepted ssrc)
      else channel.accepted }

def step (crypto : Crypto) (channel : Channel) : ChannelEvent → Channel × List (Option Bytes)
  | .send extSeq packet => (channel.send crypto extSeq packet, [])
  | .deliver position =>
      match channel.flights[position]? with
      | none => (channel, [])
      | some flight =>
          (channel.deliver crypto flight, [(decryptRtp crypto channel.receiver flight.wire).2])

end Channel

/-- In cycle zero when it is the first of its source, otherwise above the last one
by less than `0x4000`. -/
def NextInOrder : Option Nat → Nat → Prop
  | none, extSeq => extSeq < 0x10000
  | some last, extSeq => last < extSeq ∧ extSeq < last + 0x4000

instance : (last : Option Nat) → (extSeq : Nat) → Decidable (NextInOrder last extSeq)
  | none, _ => inferInstanceAs (Decidable (_ < _))
  | some _, _ => inferInstanceAs (Decidable (_ ∧ _))

def Permitted (channel : Channel) : ChannelEvent → Prop
  | .send extSeq packet =>
      12 ≤ packet.length ∧ WellFormedHeader packet ∧ seqOf packet = extSeq % 0x10000 ∧
        NextInOrder (channel.lastSent (ssrcOf packet)) extSeq
  | .deliver position =>
      ∃ flight ∈ channel.flights[position]?,
        NearHighest (channel.accepted (ssrcOf flight.packet)).max? flight.extSeq

instance (channel : Channel) : (event : ChannelEvent) → Decidable (Permitted channel event)
  | .send _ _ => inferInstanceAs (Decidable (_ ∧ _ ∧ _ ∧ _))
  | .deliver _ => inferInstanceAs (Decidable (∃ flight ∈ _, _))

/-- The sent number has a 48-bit index. -/
def ChannelEvent.InIndexSpace : ChannelEvent → Prop
  | .send extSeq _ => extSeq < 2 ^ 48
  | .deliver _ => True

instance : (event : ChannelEvent) → Decidable event.InIndexSpace
  | .send _ _ => inferInstanceAs (Decidable (_ < _))
  | .deliver _ => inferInstanceAs (Decidable True)

/-- A packet whose header fits is protected and put on the wire. A delivered packet comes out
unchanged when the window admits its number, and is refused otherwise. -/
def DeliversOnce (crypto : Crypto) (channel : Channel) : ChannelEvent → Prop
  | .send extSeq packet =>
      rtpHeaderLength packet ≤ packet.length →
        (channel.send crypto extSeq packet).flights = channel.flights ++
          [⟨extSeq, packet, protectRtp crypto channel.sender packet
            (rocUsed channel.sender packet)
            (rocUsed channel.sender packet * 0x10000 + seqOf packet)⟩]
  | .deliver position =>
      ∀ flight, channel.flights[position]? = some flight →
        (Admits replayWindow {index | index ∈ channel.accepted (ssrcOf flight.packet)}
            flight.extSeq →
          (decryptRtp crypto channel.receiver flight.wire).2 = some flight.packet) ∧
        (¬ Admits replayWindow {index | index ∈ channel.accepted (ssrcOf flight.packet)}
            flight.extSeq →
          (decryptRtp crypto channel.receiver flight.wire).2 = none)

theorem ends_matched {crypto : Crypto} {sender receiver : Session}
    (ends : Ends crypto sender receiver) :
    Matched sender receiver ∧ sender.sendState = (fun _ => none) ∧
      receiver.recvState = (fun _ => none) := by
  cases ends with
  | symmetric sameProfile protection madeSender madeReceiver =>
      obtain ⟨profile, senderProfile, rfl⟩ := srtp_session_ok madeSender
      obtain ⟨other, receiverProfile, rfl⟩ := srtp_session_ok madeReceiver
      rw [senderProfile, receiverProfile] at sameProfile
      cases sameProfile
      exact ⟨⟨rfl, rfl, rfl, rfl, rfl, rfl, rfl, decide_eq_true protection⟩, rfl, rfl⟩
  | @dtls _ _ _ isServer _ _ _ _ sameProfile protection madeSender madeReceiver =>
      obtain ⟨profile, senderProfile, rfl⟩ := from_dtls_ok madeSender
      obtain ⟨other, receiverProfile, rfl⟩ := from_dtls_ok madeReceiver
      rw [senderProfile, receiverProfile] at sameProfile
      cases sameProfile
      -- What one role encrypts with is what the other role decrypts with.
      cases isServer <;>
        exact ⟨⟨rfl, rfl, rfl, rfl, rfl, rfl, rfl, decide_eq_true protection⟩, rfl, rfl⟩

/-- A flight that the sender made under the right counter. -/
structure Genuine (crypto : Crypto) (sender : Session) (flight : Flight) : Prop where
  long : 12 ≤ flight.packet.length
  wellFormed : WellFormedHeader flight.packet
  fits : rtpHeaderLength flight.packet ≤ flight.packet.length
  seq : seqOf flight.packet = flight.extSeq % 0x10000
  bounded : flight.extSeq < 2 ^ 48
  wire : flight.wire =
    protectRtp crypto sender flight.packet (flight.extSeq / 0x10000) flight.extSeq

/-- A source's receive entry against the numbers accepted from it. -/
def Receives (st : Option RecvState) (accepted : List Nat) : Prop :=
  match st with
  | none => accepted = []
  | some st => accepted ≠ [] ∧ Represents st {index | index ∈ accepted}

structure Agrees (crypto : Crypto) (channel : Channel) : Prop where
  matched : Matched channel.sender channel.receiver
  sends : ∀ ssrc, channel.sender.sendState ssrc = (channel.lastSent ssrc).map SendState.mk
  flights : ∀ flight ∈ channel.flights, Genuine crypto channel.sender flight
  receives : ∀ ssrc, Receives (channel.receiver.recvState ssrc) (channel.accepted ssrc)

theorem agrees_start {crypto : Crypto} {sender receiver : Session}
    (ends : Ends crypto sender receiver) : Agrees crypto (.start sender receiver) := by
  obtain ⟨matched, unsent, unreceived⟩ := ends_matched ends
  exact
    { matched := matched
      sends := fun ssrc => by simp [Channel.start, unsent]
      flights := fun flight member => by simp [Channel.start] at member
      receives := fun ssrc => by simp [Channel.start, unreceived, Receives] }

/-- Steps below `0x4000` are where the sender's wrap test is right. -/
theorem sender_index_in_order {last : Option Nat} {extSeq : Nat}
    (inOrder : NextInOrder last extSeq) (bounded : extSeq < 2 ^ 48) :
    senderIndex (last.map SendState.mk) (extSeq % 0x10000) =
      { roc := extSeq / 0x10000, index := extSeq, next := { maxIndex := extSeq } } := by
  cases last with
  | none =>
      have low : extSeq % 0x10000 = extSeq := Nat.mod_eq_of_lt inOrder
      have cycleZero : extSeq / 0x10000 = 0 := Nat.div_eq_of_lt inOrder
      simp only [Option.map_none, senderIndex, low, cycleZero]
  | some last =>
      obtain ⟨ahead, close⟩ := inOrder
      have right : (senderIndex (some { maxIndex := last }) (extSeq % 0x10000)).roc =
          extSeq / 0x10000 := by
        rw [sender_roc_right_iff ⟨by omega, by omega⟩]
        omega
      have index : (senderIndex (some { maxIndex := last }) (extSeq % 0x10000)).index =
          extSeq := by
        rw [sender_index_index, right, Nat.div_add_mod']
      have next := sender_index_next last extSeq right
      rw [Nat.max_eq_right (Nat.le_of_lt ahead)] at next
      rw [Option.map_some]
      generalize senderIndex (some { maxIndex := last }) (extSeq % 0x10000) = computed
        at right index next ⊢
      cases computed
      simp only at right index next
      rw [right, index, next]

theorem agrees_send {crypto : Crypto} {channel : Channel} (agrees : Agrees crypto channel)
    {extSeq : Nat} {packet : Bytes} (permitted : Permitted channel (.send extSeq packet))
    (bounded : extSeq < 2 ^ 48) : Agrees crypto (channel.send crypto extSeq packet) := by
  obtain ⟨long, wellFormed, seq, inOrder⟩ := permitted
  have computed := sender_index_in_order inOrder bounded
  rw [← agrees.sends, ← seq] at computed
  have moved := encrypt_rtp_session crypto channel.sender long
  rw [computed] at moved
  constructor
  · rw [Channel.send, moved]
    exact agrees.matched.sent _ _
  · intro ssrc
    simp only [Channel.send, moved]
    by_cases same : ssrc = ssrcOf packet
    · subst same
      simp only [Function.update_self, Option.map_some]
    · simp only [Function.update_of_ne same, agrees.sends]
  · intro flight member
    simp only [Channel.send, moved, List.mem_append] at member ⊢
    rcases member with earlier | sent
    · have genuine := agrees.flights flight earlier
      exact ⟨genuine.long, genuine.wellFormed, genuine.fits, genuine.seq, genuine.bounded,
        genuine.wire⟩
    · by_cases fits : rtpHeaderLength packet ≤ packet.length
      · rw [encrypt_rtp_output crypto channel.sender long fits, computed] at sent
        simp only [Option.map_some, Option.toList_some, List.mem_singleton] at sent
        subst sent
        exact ⟨long, wellFormed, fits, seq, bounded, rfl⟩
      · rw [encrypt_rtp_malformed crypto channel.sender (by omega)] at sent
        simp at sent
  · exact agrees.receives

theorem receives_max {st : Option RecvState} {accepted : List Nat} {highest : Nat}
    (receives : Receives st accepted) (largest : accepted.max? = some highest) :
    ∃ entry, st = some entry ∧ entry.maxIndex = highest ∧
      Represents entry {index | index ∈ accepted} := by
  obtain ⟨member, bound⟩ := List.max?_eq_some_iff.mp largest
  cases st with
  | none =>
      have nothing : accepted = [] := receives
      rw [nothing] at member
      simp at member
  | some entry =>
      obtain ⟨nonempty, represents⟩ := receives
      rcases represents with ⟨empty, _⟩ | ⟨other, maxIndex, tracks⟩
      · have impossible : highest ∈ {index | index ∈ accepted} := member
        rw [empty] at impossible
        exact absurd impossible (Set.notMem_empty highest)
      · have same : other = highest :=
          Nat.le_antisymm (bound other tracks.highest_mem) (tracks.le_highest highest member)
        subst same
        exact ⟨entry, rfl, maxIndex, Or.inr ⟨other, maxIndex, tracks⟩⟩

/-- The guess is right within half a cycle of the highest accepted index. -/
theorem guess_roc_right {st : Option RecvState} {accepted : List Nat}
    (receives : Receives st accepted) {extSeq : Nat}
    (near : NearHighest accepted.max? extSeq) (bounded : extSeq < 2 ^ 48) :
    guessRoc st (extSeq % 0x10000) = extSeq / 0x10000 := by
  cases largest : accepted.max? with
  | none =>
      rw [largest] at near
      have nothing : accepted = [] := List.max?_eq_none_iff.mp largest
      have cycleZero : extSeq < 0x10000 := near
      cases st with
      | none => rw [guessRoc, Nat.div_eq_of_lt cycleZero]
      | some entry => exact absurd nothing receives.1
  | some highest =>
      rw [largest] at near
      obtain ⟨above, below⟩ := near
      obtain ⟨entry, rfl, maxIndex, _⟩ := receives_max receives largest
      simp only [guessRoc, maxIndex]
      split_ifs <;> omega

theorem receives_represents {st : Option RecvState} {accepted : List Nat}
    (receives : Receives st accepted) :
    Represents (st.getD RecvState.new) {index | index ∈ accepted} := by
  cases st with
  | none =>
      have nothing : accepted = [] := receives
      subst nothing
      simpa using represents_new
  | some st => exact receives.2

theorem receives_accept {states : Nat → Option RecvState} {accepted : Nat → List Nat}
    (receives : ∀ ssrc, Receives (states ssrc) (accepted ssrc)) {source index : Nat}
    {entry : RecvState}
    (represents : Represents entry (insert index {other | other ∈ accepted source})) (ssrc : Nat) :
    Receives (Function.update states source (some entry) ssrc)
      (Function.update accepted source (index :: accepted source) ssrc) := by
  by_cases same : ssrc = source
  · subst same
    simp only [Function.update_self, Receives]
    refine ⟨List.cons_ne_nil _ _, ?_⟩
    simpa [Set.insert_def] using represents
  · simpa only [Function.update_of_ne same] using receives ssrc

/-- A refusal stores the entry it found, which the first index of a source never meets. -/
theorem receives_refuse {states : Nat → Option RecvState} {accepted : Nat → List Nat}
    (receives : ∀ ssrc, Receives (states ssrc) (accepted ssrc)) {source index : Nat}
    (refused : ¬ Admits replayWindow {other | other ∈ accepted source} index) (ssrc : Nat) :
    Receives (Function.update states source (some ((states source).getD RecvState.new)) ssrc)
      (accepted ssrc) := by
  by_cases same : ssrc = source
  · subst same
    simp only [Function.update_self, Receives]
    refine ⟨?_, receives_represents (receives ssrc)⟩
    intro empty
    rw [empty] at refused
    exact refused (by simp [Admits])
  · simpa only [Function.update_of_ne same] using receives ssrc

/-- Past authentication the replay check alone decides, and its entry is stored
either way. -/
theorem decrypt_rtp_opened {crypto : Crypto} {session : Session} {srtpPacket plaintext : Bytes}
    {roc : Nat} (long : 12 + session.profile.tagLen ≤ srtpPacket.length)
    (guessed : guessRoc (session.recvState (ssrcOf srtpPacket)) (seqOf srtpPacket) = roc)
    (opened : openRtp crypto session srtpPacket roc (roc * 0x10000 + seqOf srtpPacket) =
      some plaintext)
    (replay : session.replayEnabled = true) {entry : RecvState} {fresh : Bool}
    (checked : replayCheckAndUpdate
      ((session.recvState (ssrcOf srtpPacket)).getD RecvState.new)
      (roc * 0x10000 + seqOf srtpPacket) = (entry, fresh)) :
    decryptRtp crypto session srtpPacket =
      ({ session with
          recvState := Function.update session.recvState (ssrcOf srtpPacket) (some entry) },
        if fresh then some plaintext else none) := by
  rw [decryptRtp, if_neg (by omega)]
  simp only [guessed, opened, replay, if_true, checked]

section Deliver

variable {crypto : Crypto} {channel : Channel} (agrees : Agrees crypto channel)
  {flight : Flight} (genuine : Genuine crypto channel.sender flight)
  (near : NearHighest (channel.accepted (ssrcOf flight.packet)).max? flight.extSeq)

include agrees genuine near

/-- What the receiver does with a genuine flight is what the window check says of
its true number. -/
theorem decrypt_genuine {entry : RecvState} {fresh : Bool}
    (checked : replayCheckAndUpdate
      ((channel.receiver.recvState (ssrcOf flight.packet)).getD RecvState.new) flight.extSeq =
        (entry, fresh)) :
    decryptRtp crypto channel.receiver flight.wire =
      ({ channel.receiver with
          recvState := Function.update channel.receiver.recvState (ssrcOf flight.packet)
            (some entry) },
        if fresh then some flight.packet else none) := by
  have length := protect_rtp_length crypto channel.sender genuine.fits
    (flight.extSeq / 0x10000) flight.extSeq
  have seq := protect_rtp_seq crypto channel.sender genuine.fits
    (flight.extSeq / 0x10000) flight.extSeq
  have ssrc := protect_rtp_ssrc crypto channel.sender genuine.fits
    (flight.extSeq / 0x10000) flight.extSeq
  have opened := open_protect_rtp crypto agrees.matched genuine.wellFormed genuine.fits
    (flight.extSeq / 0x10000) flight.extSeq
  have guessed := guess_roc_right (agrees.receives _) near genuine.bounded
  have long := genuine.long
  have index : flight.extSeq / 0x10000 * 0x10000 + flight.extSeq % 0x10000 = flight.extSeq :=
    Nat.div_add_mod' _ _
  rw [← genuine.wire] at length seq ssrc opened
  rw [genuine.seq] at seq
  rw [← ssrc] at checked guessed ⊢
  rw [← seq] at guessed index
  apply decrypt_rtp_opened _ guessed _ agrees.matched.replay
  · rw [index]
    exact checked
  · rw [agrees.matched.profile, length]
    omega
  · rw [index]
    exact opened

theorem deliver_admitted
    (admitted : Admits replayWindow
      {index | index ∈ channel.accepted (ssrcOf flight.packet)} flight.extSeq) :
    (decryptRtp crypto channel.receiver flight.wire).2 = some flight.packet ∧
      Agrees crypto (channel.deliver crypto flight) := by
  obtain ⟨entry, checked, represents⟩ :=
    (replay_check_refines (receives_represents (agrees.receives _)) _).1 admitted
  have decrypted := decrypt_genuine agrees genuine near checked
  refine ⟨by rw [decrypted]; rfl, ?_⟩
  constructor
  · rw [Channel.deliver, decrypted]
    exact agrees.matched.received _ _
  · exact agrees.sends
  · exact agrees.flights
  · intro ssrc
    simp only [Channel.deliver, decrypted, if_true, Option.isSome_some]
    exact receives_accept agrees.receives represents ssrc

theorem deliver_refused
    (refused : ¬ Admits replayWindow
      {index | index ∈ channel.accepted (ssrcOf flight.packet)} flight.extSeq) :
    (decryptRtp crypto channel.receiver flight.wire).2 = none ∧
      Agrees crypto (channel.deliver crypto flight) := by
  have represents := receives_represents (agrees.receives (ssrcOf flight.packet))
  have checked := (replay_check_refines represents flight.extSeq).2 refused
  have decrypted := decrypt_genuine agrees genuine near checked
  refine ⟨by rw [decrypted]; rfl, ?_⟩
  constructor
  · rw [Channel.deliver, decrypted]
    exact agrees.matched.received _ _
  · exact agrees.sends
  · exact agrees.flights
  · intro ssrc
    simp only [Channel.deliver, decrypted, Option.isSome_none, Bool.false_eq_true, if_false]
    exact receives_refuse agrees.receives refused ssrc

end Deliver

theorem send_flights (crypto : Crypto) (channel : Channel) {packet : Bytes} (extSeq : Nat)
    (long : 12 ≤ packet.length) : DeliversOnce crypto channel (.send extSeq packet) := by
  intro fits
  rw [Channel.send, encrypt_rtp_under_roc crypto channel.sender long fits]
  rfl

/-- One step of the two ends and the network, allowed by both and in index space. -/
theorem agrees_step {crypto : Crypto} {channel : Channel} (agrees : Agrees crypto channel)
    {event : ChannelEvent} (permitted : Permitted channel event)
    (bounded : event.InIndexSpace) :
    Agrees crypto (channel.step crypto event).1 ∧ DeliversOnce crypto channel event := by
  cases event with
  | send extSeq packet =>
      exact ⟨agrees_send agrees permitted bounded, send_flights crypto channel extSeq permitted.1⟩
  | deliver position =>
      obtain ⟨flight, found, near⟩ := permitted
      have genuine := agrees.flights flight (List.mem_of_getElem? found)
      have stepped : (channel.step crypto (.deliver position)).1 =
          channel.deliver crypto flight := by
        rw [Channel.step, found]
      have only {other : Flight} (same : channel.flights[position]? = some other) :
          other = flight := Option.some.inj (same.symm.trans found)
      rw [stepped]
      by_cases admitted : Admits replayWindow
          {index | index ∈ channel.accepted (ssrcOf flight.packet)} flight.extSeq
      · obtain ⟨output, after⟩ := deliver_admitted agrees genuine near admitted
        refine ⟨after, fun other same => ?_⟩
        rw [only same]
        exact ⟨fun _ => output, fun refused => absurd admitted refused⟩
      · obtain ⟨output, after⟩ := deliver_refused agrees genuine near admitted
        refine ⟨after, fun other same => ?_⟩
        rw [only same]
        exact ⟨fun holds => absurd holds admitted, fun _ => output⟩

theorem channel_delivers_once {crypto : Crypto} {sender receiver : Session}
    (ends : Ends crypto sender receiver) {events : List ChannelEvent}
    (permitted : Always (Channel.step crypto)
      (fun channel event => Permitted channel event ∧ event.InIndexSpace)
      (.start sender receiver) events) :
    Always (Channel.step crypto) (DeliversOnce crypto) (.start sender receiver) events := by
  apply always_of_invariant (Agrees crypto) _ _ (agrees_start ends) permitted
  · intro channel event allowed agrees
    exact (agrees_step agrees allowed.1 allowed.2).1
  · intro channel event allowed agrees
    exact (agrees_step agrees allowed.1 allowed.2).2

theorem toy_ends : Ends toyCrypto toySession toySession :=
  @Ends.symmetric _ (List.replicate 16 0) (List.replicate 14 0) {} {} _ _ rfl (by decide) rfl rfl

theorem channel_delivers_once_over_wrap :
    Always (Channel.step toyCrypto) (DeliversOnce toyCrypto) (.start toySession toySession)
        [.send 65535 (bareSent 65535).packet, .send 65540 (bareSent 65540).packet, .deliver 0,
          .deliver 1, .deliver 0] ∧
      (run (Channel.step toyCrypto) (.start toySession toySession)
        [.send 65535 (bareSent 65535).packet, .send 65540 (bareSent 65540).packet, .deliver 0,
          .deliver 1, .deliver 0]).2 =
        [some (bareSent 65535).packet, some (bareSent 65540).packet, none] :=
  ⟨channel_delivers_once toy_ends (by decide +kernel), by decide +kernel⟩

def strides : Nat → List ChannelEvent
  | 0 => []
  | count + 1 => strides count ++
      [.send (0x3FFF * count) (bareSent (0x3FFF * count)).packet, .deliver count]

def lastStride : Nat → Option Nat
  | 0 => none
  | count + 1 => some (0x3FFF * count)

structure Strode (crypto : Crypto) (count : Nat) (channel : Channel) : Prop where
  agrees : Agrees crypto channel
  flights : channel.flights.length = count
  lastSent : channel.lastSent 7 = lastStride count
  accepted : (channel.accepted 7).max? = lastStride count

theorem bare_length (extSeq : Nat) : (bareSent extSeq).packet.length = 12 := by
  simp [bareSent]

theorem bare_seq (extSeq : Nat) : seqOf (bareSent extSeq).packet = extSeq % 0x10000 := by
  have shape : (bareSent extSeq).packet =
      [0x80, 96] ++ (encodeBE 2 extSeq ++ (encodeBE 4 0 ++ encodeBE 4 7)) := by
    simp [bareSent]
  rw [seqOf, shape]
  exact (read_be_append_right 2 [0x80, 96] _ 0).trans (read_be_encode 2 extSeq _)

theorem bare_ssrc (extSeq : Nat) : ssrcOf (bareSent extSeq).packet = 7 := by
  have shape : (bareSent extSeq).packet =
      ([0x80, 96] ++ encodeBE 2 extSeq ++ encodeBE 4 0) ++ (encodeBE 4 7 ++ []) := by
    simp [bareSent]
  rw [ssrcOf, shape]
  exact (read_be_append_right 4 ([0x80, 96] ++ encodeBE 2 extSeq ++ encodeBE 4 0) _ 0).trans
    (read_be_encode 4 7 _)

theorem bare_header (extSeq : Nat) : readBE 1 (bareSent extSeq).packet 0 = 0x80 := by
  simp [bareSent, readBE, decodeBE]

theorem bare_well_formed (extSeq : Nat) : WellFormedHeader (bareSent extSeq).packet := by
  simp [WellFormedHeader, bare_header]

theorem bare_header_length (extSeq : Nat) : rtpHeaderLength (bareSent extSeq).packet = 12 := by
  simp [rtpHeaderLength, bare_header]

theorem last_stride_in_order {count : Nat} :
    NextInOrder (lastStride count) (0x3FFF * count) := by
  cases count with
  | zero => exact Nat.zero_lt_succ _
  | succ count => exact ⟨by omega, by omega⟩

theorem last_stride_near {count : Nat} : NearHighest (lastStride count) (0x3FFF * count) := by
  cases count with
  | zero => exact Nat.zero_lt_succ _
  | succ count => exact ⟨by omega, by omega⟩

/-- The next packet of the run, under whatever counter the sender computes. -/
def strideFlight (crypto : Crypto) (channel : Channel) (count : Nat) : Flight :=
  let sender := senderIndex (channel.sender.sendState 7) (0x3FFF * count % 0x10000)
  { extSeq := 0x3FFF * count
    packet := (bareSent (0x3FFF * count)).packet
    wire := protectRtp crypto channel.sender (bareSent (0x3FFF * count)).packet sender.roc
      sender.index }

theorem stride_send_flights (crypto : Crypto) (channel : Channel) (count : Nat) :
    (channel.send crypto (0x3FFF * count) (bareSent (0x3FFF * count)).packet).flights =
      channel.flights ++ [strideFlight crypto channel count] := by
  have output := encrypt_rtp_output crypto channel.sender (bare_length (0x3FFF * count)).ge
    (by rw [bare_header_length, bare_length])
  rw [bare_ssrc, bare_seq] at output
  rw [Channel.send, output]
  rfl

section Strides

variable {crypto : Crypto} {count : Nat} {channel : Channel} (strode : Strode crypto count channel)

include strode

theorem stride_send_permitted :
    Permitted channel (.send (0x3FFF * count) (bareSent (0x3FFF * count)).packet) := by
  refine ⟨(bare_length _).ge, bare_well_formed _, bare_seq _, ?_⟩
  rw [bare_ssrc, strode.lastSent]
  exact last_stride_in_order

theorem stride_found :
    (channel.send crypto (0x3FFF * count) (bareSent (0x3FFF * count)).packet).flights[count]? =
      some (strideFlight crypto channel count) := by
  rw [stride_send_flights, List.getElem?_append_right strode.flights.le, strode.flights,
    Nat.sub_self]
  rfl

theorem stride_deliver_permitted :
    Permitted (channel.send crypto (0x3FFF * count) (bareSent (0x3FFF * count)).packet)
      (.deliver count) := by
  refine ⟨strideFlight crypto channel count, stride_found strode, ?_⟩
  rw [strideFlight, bare_ssrc]
  exact strode.accepted ▸ last_stride_near

theorem stride_above {index : Nat} (member : index ∈ channel.accepted 7) :
    index < 0x3FFF * count := by
  have accepted := strode.accepted
  cases count with
  | zero =>
      rw [List.max?_eq_none_iff.mp accepted] at member
      simp at member
  | succ count =>
      have bounded := (List.max?_eq_some_iff.mp accepted).2 index member
      omega

theorem stride_admitted :
    Admits replayWindow {index | index ∈ channel.accepted 7} (0x3FFF * count) := by
  constructor
  · intro member
    exact absurd (stride_above strode member) (Nat.lt_irrefl _)
  · intro index member
    have bounded := stride_above strode member
    omega

theorem stride_step (bounded : 0x3FFF * count < 2 ^ 48) :
    Strode crypto (count + 1)
      ((channel.send crypto (0x3FFF * count) (bareSent (0x3FFF * count)).packet).deliver crypto
        (strideFlight crypto channel count)) := by
  have sent := agrees_send strode.agrees (stride_send_permitted strode) bounded
  have genuine := sent.flights _ (List.mem_of_getElem? (stride_found strode))
  have source : ssrcOf (strideFlight crypto channel count).packet = 7 := bare_ssrc _
  have admitted := stride_admitted strode
  obtain ⟨output, after⟩ := deliver_admitted sent genuine
    (by rw [source]; exact strode.accepted ▸ last_stride_near) (by rw [source]; exact admitted)
  refine ⟨after, ?_, ?_, ?_⟩
  · rw [Channel.deliver, stride_send_flights, List.length_append, strode.flights]
    rfl
  · simp only [Channel.deliver, Channel.send, bare_ssrc, Function.update_self, lastStride]
  · simp only [Channel.deliver, output, Option.isSome_some, if_true, source,
      Function.update_self, lastStride]
    refine List.max?_eq_some_iff.mpr ⟨List.mem_cons_self, ?_⟩
    intro index member
    rcases List.mem_cons.mp member with rfl | earlier
    · exact Nat.le_refl _
    · exact Nat.le_of_lt (stride_above strode earlier)

end Strides

theorem strides_strode {crypto : Crypto} {sender receiver : Session}
    (ends : Ends crypto sender receiver) {count : Nat}
    (bounded : ∀ last, lastStride count = some last → last < 2 ^ 48) :
    Always (Channel.step crypto) Permitted (.start sender receiver) (strides count) ∧
      Strode crypto count
        (run (Channel.step crypto) (.start sender receiver) (strides count)).1 := by
  induction count with
  | zero => exact ⟨trivial, agrees_start ends, rfl, rfl, rfl⟩
  | succ count ih =>
      have reachable : 0x3FFF * count < 2 ^ 48 := bounded _ rfl
      have earlier (last : Nat) (same : lastStride count = some last) : last < 2 ^ 48 := by
        cases count with
        | zero => cases same
        | succ count =>
            cases same
            omega
      obtain ⟨permitted, strode⟩ := ih earlier
      have delivered := stride_step strode reachable
      rw [strides, always_append, run_append]
      refine ⟨⟨permitted, stride_send_permitted strode, stride_deliver_permitted strode, trivial⟩,
        ?_⟩
      simpa [run, Channel.step, stride_found strode] using delivered

/-- The step out of the index space: the counter wraps to zero on both sides, the
packet authenticates, and its small index is far below the window. -/
theorem stride_lost {crypto : Crypto} {count : Nat} {channel : Channel}
    (strode : Strode crypto (count + 1) channel) (last : 0x3FFF * count = 2 ^ 48 - 64) :
    (decryptRtp crypto channel.receiver (strideFlight crypto channel (count + 1)).wire).2 =
      none := by
  have low : 0x3FFF * (count + 1) % 0x10000 = 16319 := by omega
  have seq : seqOf (bareSent (0x3FFF * (count + 1))).packet = 16319 := by rw [bare_seq, low]
  have stored : channel.sender.sendState 7 = some { maxIndex := 2 ^ 48 - 64 } := by
    rw [strode.agrees.sends, strode.lastSent, lastStride, last]
    rfl
  have wire : (strideFlight crypto channel (count + 1)).wire =
      protectRtp crypto channel.sender (bareSent (0x3FFF * (count + 1))).packet 0 16319 := by
    simp only [strideFlight, low, stored]
    rfl
  have fits : rtpHeaderLength (bareSent (0x3FFF * (count + 1))).packet ≤
      (bareSent (0x3FFF * (count + 1))).packet.length := by
    rw [bare_header_length, bare_length]
  have wireSeq := protect_rtp_seq crypto channel.sender fits 0 16319
  have wireSsrc := protect_rtp_ssrc crypto channel.sender fits 0 16319
  have wireLength := protect_rtp_length crypto channel.sender fits 0 16319
  have opened := open_protect_rtp crypto strode.agrees.matched (bare_well_formed _) fits 0 16319
  rw [seq] at wireSeq
  rw [bare_ssrc] at wireSsrc
  rw [bare_length] at wireLength
  rw [← wire] at wireSeq wireSsrc wireLength opened
  obtain ⟨entry, present, maxIndex, represents⟩ :=
    receives_max (strode.agrees.receives 7) strode.accepted
  have guessed : guessRoc (channel.receiver.recvState
      (ssrcOf (strideFlight crypto channel (count + 1)).wire))
      (seqOf (strideFlight crypto channel (count + 1)).wire) = 0 := by
    rw [wireSsrc, wireSeq, present]
    simp only [guessRoc, maxIndex, last]
    rfl
  have refused : ¬ Admits replayWindow {index | index ∈ channel.accepted 7} 16319 := by
    rintro ⟨_, inside⟩
    have near := inside _ (List.max?_eq_some_iff.mp strode.accepted).1
    simp only [replayWindow] at near
    omega
  have checked := (replay_check_refines represents 16319).2 refused
  have checkedWire : replayCheckAndUpdate ((channel.receiver.recvState
      (ssrcOf (strideFlight crypto channel (count + 1)).wire)).getD RecvState.new)
      (0 * 0x10000 + seqOf (strideFlight crypto channel (count + 1)).wire) = (entry, false) := by
    rw [wireSsrc, wireSeq, present]
    exact checked
  rw [decrypt_rtp_opened (by rw [wireLength, strode.agrees.matched.profile]) guessed
    (by rw [wireSeq]; exact opened) strode.agrees.matched.replay checkedWire]
  rfl

theorem channel_loses_packet_past_index_space :
    Ends toyCrypto toySession toySession ∧
      Always (Channel.step toyCrypto) Permitted (.start toySession toySession)
        (strides ((2 ^ 48 - 64) / 0x3FFF + 2)) ∧
      ¬ Always (Channel.step toyCrypto) (DeliversOnce toyCrypto) (.start toySession toySession)
        (strides ((2 ^ 48 - 64) / 0x3FFF + 2)) := by
  obtain ⟨count, division⟩ : ∃ count, count = (2 ^ 48 - 64) / 0x3FFF := ⟨_, rfl⟩
  have last : 0x3FFF * count = 2 ^ 48 - 64 := by omega
  rw [← division]
  have inside : ∀ other, lastStride (count + 1) = some other → other < 2 ^ 48 := by
    intro other same
    cases same
    omega
  obtain ⟨permitted, strode⟩ := strides_strode toy_ends inside
  have lost := stride_lost strode last
  have admitted := stride_admitted strode
  rw [strides, always_append, always_append]
  refine ⟨toy_ends, ⟨permitted, stride_send_permitted strode, stride_deliver_permitted strode,
    trivial⟩, ?_⟩
  rintro ⟨_, _, delivers, _⟩
  have output := (delivers _ (stride_found strode)).1
    (by rw [strideFlight, bare_ssrc]; exact admitted)
  exact absurd (output.symm.trans lost) (by simp)

end RtpPacket.Srtp
