import RtpPacket.Srtp.Channel
import RtpPacket.Srtp.Rtcp

/-!
# RTCP between a sender, a receiver and the network

The network is that of `Channel`. The true index of a packet is the number of
packets sent before it, from whatever source; the receiver's windows know nothing
of each other.
-/

namespace RtpPacket.Srtp

open ByteCodec Run SlidingWindow

set_option autoImplicit false

structure RtcpFlight where
  index : Nat
  packet : Bytes
  wire : Bytes

structure RtcpChannel where
  sender : Session
  receiver : Session
  flights : List RtcpFlight
  sent : Nat
  accepted : Nat → List Nat

inductive RtcpChannelEvent where
  | send (packet : Bytes)
  | deliver (position : Nat)

theorem ends_unused_rtcp {crypto : Crypto} {sender receiver : Session}
    (ends : Ends crypto sender receiver) :
    sender.srtcpSendIndex = 0 ∧ receiver.srtcpRecvState = (fun _ => none) := by
  cases ends with
  | symmetric _ _ madeSender madeReceiver =>
      obtain ⟨_, _, rfl⟩ := srtp_session_ok madeSender
      obtain ⟨_, _, rfl⟩ := srtp_session_ok madeReceiver
      exact ⟨rfl, rfl⟩
  | dtls _ _ madeSender madeReceiver =>
      obtain ⟨_, _, rfl⟩ := from_dtls_ok madeSender
      obtain ⟨_, _, rfl⟩ := from_dtls_ok madeReceiver
      exact ⟨rfl, rfl⟩

namespace RtcpChannel

def start (sender receiver : Session) : RtcpChannel where
  sender := sender
  receiver := receiver
  flights := []
  sent := 0
  accepted := fun _ => []

def send (crypto : Crypto) (channel : RtcpChannel) (packet : Bytes) : RtcpChannel :=
  let result := encryptRtcp crypto channel.sender packet
  { channel with
    sender := result.1
    flights := channel.flights ++
      (result.2.map fun wire => ⟨channel.sent, packet, wire⟩).toList
    sent := channel.sent + 1 }

def deliver (crypto : Crypto) (channel : RtcpChannel) (flight : RtcpFlight) : RtcpChannel :=
  let result := decryptRtcp crypto channel.receiver flight.wire
  let ssrc := rtcpSsrcOf flight.packet
  { channel with
    receiver := result.1
    accepted :=
      if result.2.isSome then
        Function.update channel.accepted ssrc (flight.index :: channel.accepted ssrc)
      else channel.accepted }

def step (crypto : Crypto) (channel : RtcpChannel) :
    RtcpChannelEvent → RtcpChannel × List (Option Bytes)
  | .send packet => (channel.send crypto packet, [])
  | .deliver position =>
      match channel.flights[position]? with
      | none => (channel, [])
      | some flight =>
          (channel.deliver crypto flight, [(decryptRtcp crypto channel.receiver flight.wire).2])

/-- What the two ends and the network may do: whole RTCP headers, fewer than `2^31`
of them, and any packet in the network at any time. -/
def Permitted (channel : RtcpChannel) : RtcpChannelEvent → Prop
  | .send packet => 8 ≤ packet.length ∧ channel.sent + 1 < 2 ^ 31
  | .deliver _ => True

instance (channel : RtcpChannel) : (event : RtcpChannelEvent) → Decidable (Permitted channel event)
  | .send _ => inferInstanceAs (Decidable (_ ∧ _))
  | .deliver _ => inferInstanceAs (Decidable True)

/-- A packet is protected under its true index and put on the wire. A delivered packet comes
out unchanged when the window of its source admits its index, and is refused otherwise;
packets of other sources fare as before. -/
def DeliversOnce (crypto : Crypto) (channel : RtcpChannel) : RtcpChannelEvent → Prop
  | .send packet =>
      (channel.send crypto packet).flights = channel.flights ++
        [⟨channel.sent, packet, protectRtcp crypto channel.sender packet channel.sent⟩]
  | .deliver position =>
      ∀ flight, channel.flights[position]? = some flight →
        (Admits replayWindow {index | index ∈ channel.accepted (rtcpSsrcOf flight.packet)}
            flight.index →
          (decryptRtcp crypto channel.receiver flight.wire).2 = some flight.packet) ∧
        (¬ Admits replayWindow {index | index ∈ channel.accepted (rtcpSsrcOf flight.packet)}
            flight.index →
          (decryptRtcp crypto channel.receiver flight.wire).2 = none) ∧
        ∀ other, rtcpSsrcOf other ≠ rtcpSsrcOf flight.packet →
          (decryptRtcp crypto (channel.deliver crypto flight).receiver other).2 =
            (decryptRtcp crypto channel.receiver other).2

/-- A flight that the sender made under its true index. -/
structure Genuine (crypto : Crypto) (sender : Session) (flight : RtcpFlight) : Prop where
  long : 8 ≤ flight.packet.length
  small : flight.index < 2 ^ 31
  wire : flight.wire = protectRtcp crypto sender flight.packet flight.index

structure Agrees (crypto : Crypto) (channel : RtcpChannel) : Prop where
  matched : Matched channel.sender channel.receiver
  counts : channel.sender.srtcpSendIndex = channel.sent
  flights : ∀ flight ∈ channel.flights, Genuine crypto channel.sender flight
  receives : ∀ ssrc, Receives (channel.receiver.srtcpRecvState ssrc) (channel.accepted ssrc)

theorem agrees_start {crypto : Crypto} {sender receiver : Session}
    (ends : Ends crypto sender receiver) : Agrees crypto (.start sender receiver) := by
  obtain ⟨matched, _, _⟩ := ends_matched ends
  obtain ⟨uncounted, unreceived⟩ := ends_unused_rtcp ends
  exact
    { matched := matched
      counts := uncounted
      flights := fun flight member => by simp [start] at member
      receives := fun ssrc => by simp [start, unreceived, Receives] }

theorem agrees_encrypt {crypto : Crypto} {channel : RtcpChannel} (agrees : Agrees crypto channel)
    {packet : Bytes} (permitted : Permitted channel (.send packet)) :
    encryptRtcp crypto channel.sender packet =
      ({ channel.sender with srtcpSendIndex := channel.sent + 1 },
        some (protectRtcp crypto channel.sender packet channel.sent)) := by
  rw [encrypt_rtcp_long crypto channel.sender permitted.1, agrees.counts,
    Nat.mod_eq_of_lt permitted.2]

theorem agrees_send {crypto : Crypto} {channel : RtcpChannel} (agrees : Agrees crypto channel)
    {packet : Bytes} (permitted : Permitted channel (.send packet)) :
    Agrees crypto (channel.send crypto packet) ∧ DeliversOnce crypto channel (.send packet) := by
  have sent := agrees_encrypt agrees permitted
  have wired : DeliversOnce crypto channel (.send packet) := by
    rw [DeliversOnce, send, sent]
    rfl
  refine ⟨?_, wired⟩
  constructor
  · rw [send, sent]
    exact agrees.matched.sent _ _
  · rw [send, sent]
  · intro flight member
    rw [wired] at member
    rw [send, sent]
    cases List.mem_append.mp member with
    | inl earlier =>
        have genuine := agrees.flights flight earlier
        exact ⟨genuine.long, genuine.small, genuine.wire⟩
    | inr new =>
        rw [List.mem_singleton.mp new]
        exact ⟨permitted.1, Nat.lt_of_succ_lt permitted.2, rfl⟩
  · exact agrees.receives

section Deliver

variable {crypto : Crypto} {channel : RtcpChannel} (agrees : Agrees crypto channel)
  {flight : RtcpFlight} (genuine : Genuine crypto channel.sender flight)

include agrees genuine

theorem decrypt_genuine {entry : RecvState} {fresh : Bool}
    (checked : replayCheckAndUpdate
      ((channel.receiver.srtcpRecvState (rtcpSsrcOf flight.packet)).getD RecvState.new)
        flight.index = (entry, fresh)) :
    decryptRtcp crypto channel.receiver flight.wire =
      ({ channel.receiver with
          srtcpRecvState := Function.update channel.receiver.srtcpRecvState
            (rtcpSsrcOf flight.packet) (some entry) },
        if fresh then some flight.packet else none) := by
  have opened := open_protect_rtcp crypto agrees.matched genuine.long genuine.small
  obtain ⟨_, ssrc⟩ := protect_rtcp_header crypto channel.sender genuine.long flight.index
  rw [← genuine.wire] at opened ssrc
  rw [← ssrc] at checked ⊢
  exact decrypt_rtcp_opened opened agrees.matched.replay checked

theorem deliver_admitted
    (admitted : Admits replayWindow
      {index | index ∈ channel.accepted (rtcpSsrcOf flight.packet)} flight.index) :
    (decryptRtcp crypto channel.receiver flight.wire).2 = some flight.packet ∧
      Agrees crypto (channel.deliver crypto flight) := by
  obtain ⟨entry, checked, represents⟩ :=
    (replay_check_refines (receives_represents (agrees.receives _)) _).1 admitted
  have decrypted := decrypt_genuine agrees genuine checked
  have output : (decryptRtcp crypto channel.receiver flight.wire).2 = some flight.packet := by
    rw [decrypted]
    rfl
  constructor
  · exact output
  · constructor
    · rw [deliver, decrypted]
      exact agrees.matched.received _ _
    · exact agrees.counts
    · exact agrees.flights
    · intro ssrc
      simp only [deliver, decrypted, if_true, Option.isSome_some]
      exact receives_accept agrees.receives represents ssrc

theorem deliver_refused
    (refused : ¬ Admits replayWindow
      {index | index ∈ channel.accepted (rtcpSsrcOf flight.packet)} flight.index) :
    (decryptRtcp crypto channel.receiver flight.wire).2 = none ∧
      Agrees crypto (channel.deliver crypto flight) := by
  have represents := receives_represents (agrees.receives (rtcpSsrcOf flight.packet))
  have decrypted := decrypt_genuine agrees genuine ((replay_check_refines represents _).2 refused)
  constructor
  · rw [decrypted]
    rfl
  · constructor
    · rw [deliver, decrypted]
      exact agrees.matched.received _ _
    · exact agrees.counts
    · exact agrees.flights
    · intro ssrc
      simp only [deliver, decrypted, Option.isSome_none, Bool.false_eq_true, if_false]
      exact receives_refuse agrees.receives refused ssrc

omit agrees in
theorem deliver_isolated {other : Bytes}
    (apart : rtcpSsrcOf other ≠ rtcpSsrcOf flight.packet) :
    (decryptRtcp crypto (channel.deliver crypto flight).receiver other).2 =
      (decryptRtcp crypto channel.receiver other).2 := by
  obtain ⟨_, ssrc⟩ := protect_rtcp_header crypto channel.sender genuine.long flight.index
  rw [← genuine.wire] at ssrc
  rw [← ssrc] at apart
  exact decrypt_rtcp_isolated crypto channel.receiver apart

end Deliver

theorem agrees_step {crypto : Crypto} {channel : RtcpChannel} (agrees : Agrees crypto channel)
    {event : RtcpChannelEvent} (permitted : Permitted channel event) :
    Agrees crypto (channel.step crypto event).1 ∧ DeliversOnce crypto channel event := by
  cases event with
  | send packet => exact agrees_send agrees permitted
  | deliver position =>
      cases found : channel.flights[position]? with
      | none =>
          have idle : channel.step crypto (.deliver position) = (channel, []) := by
            rw [step, found]
          rw [idle]
          refine ⟨agrees, fun flight same => ?_⟩
          rw [found] at same
          cases same
      | some flight =>
          have genuine := agrees.flights flight (List.mem_of_getElem? found)
          have stepped : (channel.step crypto (.deliver position)).1 =
              channel.deliver crypto flight := by
            rw [step, found]
          have only {other : RtcpFlight} (same : channel.flights[position]? = some other) :
              other = flight := Option.some.inj (same.symm.trans found)
          rw [stepped]
          by_cases admitted : Admits replayWindow
              {index | index ∈ channel.accepted (rtcpSsrcOf flight.packet)} flight.index
          · obtain ⟨output, after⟩ := deliver_admitted agrees genuine admitted
            refine ⟨after, fun other same => ?_⟩
            rw [only same]
            exact ⟨fun _ => output, fun refused => absurd admitted refused,
              fun _ apart => deliver_isolated genuine apart⟩
          · obtain ⟨output, after⟩ := deliver_refused agrees genuine admitted
            refine ⟨after, fun other same => ?_⟩
            rw [only same]
            exact ⟨fun holds => absurd holds admitted, fun _ => output,
              fun _ apart => deliver_isolated genuine apart⟩

theorem rtcp_delivers_once {crypto : Crypto} {sender receiver : Session}
    (ends : Ends crypto sender receiver) {events : List RtcpChannelEvent}
    (permitted : Always (step crypto) Permitted (.start sender receiver) events) :
    Always (step crypto) (DeliversOnce crypto) (.start sender receiver) events := by
  apply always_of_invariant (Agrees crypto) _ _ (agrees_start ends) permitted
  · intro channel event allowed agrees
    exact (agrees_step agrees allowed).1
  · intro channel event allowed agrees
    exact (agrees_step agrees allowed).2

def emptyReport (ssrc : Nat) : Bytes := [0x80, 201, 0, 1] ++ encodeBE 4 ssrc

theorem rtcp_delivers_once_from_two_sources :
    Always (step toyCrypto) (DeliversOnce toyCrypto) (.start toySession toySession)
        [.send (emptyReport 7), .send (emptyReport 9), .send (emptyReport 7), .deliver 2,
          .deliver 1, .deliver 0, .deliver 1] ∧
      (run (step toyCrypto) (.start toySession toySession)
        [.send (emptyReport 7), .send (emptyReport 9), .send (emptyReport 7), .deliver 2,
          .deliver 1, .deliver 0, .deliver 1]).2 =
        [some (emptyReport 7), some (emptyReport 9), some (emptyReport 7), none] :=
  ⟨rtcp_delivers_once toy_ends (by decide +kernel), by decide +kernel⟩

end RtcpChannel

end RtpPacket.Srtp
