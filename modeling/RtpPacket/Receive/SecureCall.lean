import RtpPacket.Receive.Payloads
import RtpPacket.Receive.Reception
import RtpPacket.Rtp.Parsing
import RtpPacket.Srtp.Channel

/-!
# A protected stream and the jitter buffer behind it

A sender protects the packets of one stream, a network that keeps them all hands any of them
over at any time and also what it makes up, and the receiver opens what comes, parses it and
pushes it to its jitter buffer. What the buffer gets are packets of the stream under their own
numbers and each at most once, so that a call is a reception of the stream.
-/

namespace RtpPacket.Receive

open ByteCodec JitterBuffer Rtp Run SlidingWindow

set_option autoImplicit false

/-- A parsed packet with its number without the wrap, which no step reads. -/
abbrev Opened : Type := ParsedPacket × Nat

structure SecureCall where
  channel : Srtp.Channel
  unsent : List Bytes
  extSeq : Nat
  playback : Playback Opened

inductive CallEvent where
  | send
  | deliver (position : Nat) (now later : Rat)
  /-- A packet that the network makes up. -/
  | forge (wire : Bytes) (now later : Rat)
  | flush (now : Rat)

namespace SecureCall

def start (sender receiver : Srtp.Session) (opts : Options) (seq : Nat) (stream : List Bytes) :
    SecureCall where
  channel := .start sender receiver
  unsent := stream
  extSeq := seq
  playback := .new opts

/-- What was opened and can be parsed goes to the buffer. -/
def pushed (extSeq : Nat) (opened : Option Bytes) (now later : Rat) : Option (Action Opened) := do
  let packet ← opened.bind parse
  return .push ⟨packet.sequenceNumber, (packet, extSeq)⟩ now later

variable (crypto : Srtp.Crypto)

/-- What the buffer is asked. A packet that nobody sent has no number without the wrap. -/
def action? (call : SecureCall) : CallEvent → Option (Action Opened)
  | .send => none
  | .deliver position now later => do
      let flight ← call.channel.flights[position]?
      pushed flight.extSeq (Srtp.decryptRtp crypto call.channel.receiver flight.wire).2 now later
  | .forge wire now later =>
      pushed 0 (Srtp.decryptRtp crypto call.channel.receiver wire).2 now later
  | .flush now => some (.flush now)

def move (call : SecureCall) : CallEvent → SecureCall
  | .send =>
      match call.unsent with
      | [] => call
      | packet :: rest =>
          { call with
            channel := call.channel.send crypto call.extSeq packet
            unsent := rest
            extSeq := call.extSeq + 1 }
  | .deliver position _ _ =>
      { call with channel := (call.channel.step crypto (.deliver position)).1 }
  | .forge wire _ _ =>
      { call with channel :=
          { call.channel with
            receiver := (Srtp.decryptRtp crypto call.channel.receiver wire).1 } }
  | .flush _ => call

def step (call : SecureCall) (event : CallEvent) : SecureCall × List (Event Opened) :=
  let moved := call.move crypto event
  match call.action? crypto event with
  | none => (moved, [])
  | some action =>
      let stepped := call.playback.step action
      ({ moved with playback := stepped.1 }, stepped.2)

def asked : SecureCall → List CallEvent → List (Action Opened)
  | _, [] => []
  | call, event :: rest =>
      (call.action? crypto event).toList ++ asked (call.step crypto event).1 rest

/-- What the network may do: hand over a packet near those accepted, and close to those in the
buffer if it opens, or one that does not authenticate under the counter that is guessed for it. -/
def Permitted (call : SecureCall) : CallEvent → Prop
  | .send => True
  | .deliver position now later =>
      Srtp.Permitted call.channel (.deliver position) ∧
        ∀ action ∈ call.action? crypto (.deliver position now later),
          call.playback.Timely Prod.snd action
  | .forge wire _ _ =>
      let roc := Srtp.guessRoc (call.channel.receiver.recvState (Srtp.ssrcOf wire))
        (Srtp.seqOf wire)
      Srtp.openRtp crypto call.channel.receiver wire roc (roc * 0x10000 + Srtp.seqOf wire) = none
  | .flush _ => True

instance (call : SecureCall) : (event : CallEvent) → Decidable (call.Permitted crypto event)
  | .send => inferInstanceAs (Decidable True)
  | .deliver _ _ _ => inferInstanceAs (Decidable (_ ∧ ∀ _ ∈ _, _))
  | .forge _ _ _ => inferInstanceAs (Decidable (_ = _))
  | .flush _ => inferInstanceAs (Decidable True)

variable {crypto}

theorem move_playback (call : SecureCall) (event : CallEvent) :
    (call.move crypto event).playback = call.playback := by
  cases event with
  | send =>
      rw [move]
      split <;> rfl
  | deliver position now later => rfl
  | forge wire now later => rfl
  | flush now => rfl

theorem step_channel (call : SecureCall) (event : CallEvent) :
    (call.step crypto event).1 =
      { call.move crypto event with playback := (call.step crypto event).1.playback } := by
  rw [step]
  split <;> rfl

theorem step_playback (call : SecureCall) (event : CallEvent) :
    run Playback.step call.playback (call.action? crypto event).toList =
      ((call.step crypto event).1.playback, (call.step crypto event).2) := by
  rw [step]
  cases call.action? crypto event with
  | none => exact congrArg (·, []) (call.move_playback event).symm
  | some action => simp [run]

theorem run_playback (call : SecureCall) (events : List CallEvent) :
    run Playback.step call.playback (call.asked crypto events) =
      ((run (step crypto) call events).1.playback, (run (step crypto) call events).2) := by
  induction events generalizing call with
  | nil => rfl
  | cons event rest ih => rw [asked, run_append, step_playback, ih]; rfl

end SecureCall

/-- Packets of one source under consecutive numbers, as they are parsed. -/
structure PacketStream (seq ssrc : Nat) (stream : List Bytes) (sent : List ParsedPacket) : Prop where
  parsed : stream.map parse = sent.map some
  consecutive : Consecutive seq sent
  source : ∀ packet ∈ sent, packet.ssrc = ssrc
  wellFormed : ∀ bytes ∈ stream, Srtp.WellFormedHeader bytes
  first_cycle : seq < 0x10000
  bounded : seq + sent.length ≤ 2 ^ 48

def opened (seq : Nat) {sent : List ParsedPacket} (packet : SentPacket sent) : Opened :=
  (packet.val.1, seq + packet.val.2)

namespace PacketStream

variable {seq ssrc : Nat} {stream : List Bytes} {sent : List ParsedPacket}

theorem length (made : PacketStream seq ssrc stream sent) : stream.length = sent.length := by
  have same := congrArg List.length made.parsed
  rwa [List.length_map, List.length_map] at same

structure PacketAt (seq ssrc : Nat) (sent : List ParsedPacket) (bytes : Bytes) (index : Nat)
    (packet : ParsedPacket) : Prop where
  found : sent[index]? = some packet
  parsed : parse bytes = some packet
  long : 12 ≤ bytes.length
  wellFormed : Srtp.WellFormedHeader bytes
  number : Srtp.seqOf bytes = (seq + index) % 0x10000
  source : Srtp.ssrcOf bytes = ssrc
  bounded : seq + index < 2 ^ 48

theorem packet_at (made : PacketStream seq ssrc stream sent) {index : Nat} {bytes : Bytes}
    (found : stream[index]? = some bytes) :
    ∃ packet, PacketAt seq ssrc sent bytes index packet := by
  have both := congrArg (fun packets => packets[index]?) made.parsed
  simp only [List.getElem?_map, found, Option.map_some] at both
  obtain ⟨packet, there, same⟩ := Option.map_eq_some_iff.mp both.symm
  have inside := (List.getElem?_eq_some_iff.mp there).1
  have parsed := same.symm
  obtain ⟨parseable, fields⟩ := parse_eq_some_iff.mp parsed
  have numbers := congrArg (fun numbers => numbers[index]?) made.consecutive
  simp only [List.getElem?_map, there, Option.map_some, List.getElem?_range inside,
    Option.some.injEq] at numbers
  refine ⟨packet, there, parsed, parseable.long,
    made.wellFormed bytes (List.mem_of_getElem? found), ?_, ?_, ?_⟩
  · rw [fields] at numbers
    exact numbers
  · have source := made.source packet (List.mem_of_getElem? there)
    rw [fields] at source
    exact source
  · have bounded := made.bounded
    omega

end PacketStream

namespace SecureCall

open PacketStream

variable {crypto : Srtp.Crypto} {seq ssrc : Nat} {stream : List Bytes} {sent : List ParsedPacket}

/-- Between the events of a call: the packets in the network are packets of the stream, and the
next one goes on where they end. -/
structure Carries (crypto : Srtp.Crypto) (seq ssrc : Nat) (stream : List Bytes)
    (call : SecureCall) : Prop where
  agrees : Srtp.Agrees crypto call.channel
  unsent : ∃ count, call.extSeq = seq + count ∧ call.unsent = stream.drop count
  inOrder : Srtp.NextInOrder (call.channel.lastSent ssrc) call.extSeq
  flights : ∀ flight ∈ call.channel.flights, ∃ index,
    flight.extSeq = seq + index ∧ stream[index]? = some flight.packet

theorem start_carries {sender receiver : Srtp.Session} (ends : Srtp.Ends crypto sender receiver)
    (made : PacketStream seq ssrc stream sent) (opts : Options) :
    Carries crypto seq ssrc stream (.start sender receiver opts seq stream) where
  agrees := Srtp.agrees_start ends
  unsent := ⟨0, rfl, rfl⟩
  inOrder := made.first_cycle
  flights _ member := absurd member List.not_mem_nil

def fresh (crypto : Srtp.Crypto) (call : SecureCall) (event : CallEvent) : List Nat :=
  (arrived (call.action? crypto event).toList).map Prod.snd

/-- What an event does to the sessions, and what it asks of the buffer: a packet of the stream
whose number was not accepted before, or no packet. -/
structure Opens (crypto : Srtp.Crypto) (seq ssrc : Nat) (stream : List Bytes)
    (sent : List ParsedPacket) (call : SecureCall) (event : CallEvent) : Prop where
  carries : Carries crypto seq ssrc stream (call.move crypto event)
  accepted : (call.move crypto event).channel.accepted ssrc =
    call.fresh crypto event ++ call.channel.accepted ssrc
  once : (call.fresh crypto event).Nodup ∧
    (call.fresh crypto event).Disjoint (call.channel.accepted ssrc)
  delivers : ∀ action ∈ call.action? crypto event, ∃ original : Action (SentPacket sent),
    Delivers original ∧ original.map (opened seq) = action

theorem Opens.idle {call : SecureCall} {event : CallEvent}
    (carries : Carries crypto seq ssrc stream (call.move crypto event))
    (accepted : (call.move crypto event).channel.accepted ssrc = call.channel.accepted ssrc)
    (nothing : call.action? crypto event = none) :
    Opens crypto seq ssrc stream sent call event := by
  have silent : call.fresh crypto event = [] := by
    rw [fresh, nothing]
    rfl
  constructor
  · exact carries
  · rw [silent]
    exact accepted
  · rw [silent]
    exact ⟨List.nodup_nil, fun _ member => absurd member List.not_mem_nil⟩
  · intro action asked
    rw [nothing] at asked
    cases asked

theorem send_opens (made : PacketStream seq ssrc stream sent) {call : SecureCall}
    (carries : Carries crypto seq ssrc stream call) :
    Opens crypto seq ssrc stream sent call .send := by
  obtain ⟨count, extSeq, unsent⟩ := carries.unsent
  cases left : call.unsent with
  | nil =>
      have same : call.move crypto .send = call := by rw [move, left]
      exact .idle (by rwa [same]) (by rw [same]) rfl
  | cons packet rest =>
      have found : stream[count]? = some packet := by
        rw [← List.head?_drop, ← unsent, left]
        rfl
      obtain ⟨parsed, here⟩ := made.packet_at found
      have sends : call.move crypto .send =
          { call with
            channel := call.channel.send crypto call.extSeq packet
            unsent := rest
            extSeq := call.extSeq + 1 } := by
        rw [move, left]
      have permitted : Srtp.Permitted call.channel (.send call.extSeq packet) :=
        ⟨here.long, here.wellFormed, by rw [extSeq]; exact here.number,
          by rw [here.source]; exact carries.inOrder⟩
      apply Opens.idle _ _ rfl
      · rw [sends]
        constructor
        · exact Srtp.agrees_send carries.agrees permitted (extSeq ▸ here.bounded)
        · refine ⟨count + 1, congrArg (· + 1) extSeq, ?_⟩
          rw [← List.drop_drop, ← unsent, left]
          rfl
        · change Srtp.NextInOrder (Function.update call.channel.lastSent (Srtp.ssrcOf packet)
            (some call.extSeq) ssrc) (call.extSeq + 1)
          rw [here.source, Function.update_self]
          exact ⟨Nat.lt_succ_self _, by omega⟩
        · intro flight member
          rcases List.mem_append.mp member with earlier | last
          · exact carries.flights flight earlier
          · obtain ⟨wire, -, rfl⟩ := Option.map_eq_some_iff.mp (Option.mem_toList.mp last)
            exact ⟨count, extSeq, found⟩
      · rw [sends]
        rfl

theorem forged_refused {call : SecureCall} {wire : Bytes} {now later : Rat}
    (permitted : call.Permitted crypto (.forge wire now later)) :
    call.move crypto (.forge wire now later) = call ∧
      call.action? crypto (.forge wire now later) = none := by
  have refused : Srtp.decryptRtp crypto call.channel.receiver wire =
      (call.channel.receiver, none) := by
    rw [Srtp.decryptRtp]
    split
    · rfl
    · simp only [show Srtp.openRtp crypto call.channel.receiver wire _ _ = none from permitted]
  constructor
  · rw [move, refused]
  · rw [action?, refused]
    rfl

theorem forge_opens {call : SecureCall} (carries : Carries crypto seq ssrc stream call)
    {wire : Bytes} {now later : Rat} (permitted : call.Permitted crypto (.forge wire now later)) :
    Opens crypto seq ssrc stream sent call (.forge wire now later) := by
  obtain ⟨same, nothing⟩ := forged_refused permitted
  exact .idle (by rwa [same]) (by rw [same]) nothing

theorem deliver_opens (made : PacketStream seq ssrc stream sent) {call : SecureCall}
    (carries : Carries crypto seq ssrc stream call) {position : Nat} {now later : Rat}
    (permitted : Srtp.Permitted call.channel (.deliver position)) :
    Opens crypto seq ssrc stream sent call (.deliver position now later) := by
  obtain ⟨flight, found, near⟩ := permitted
  have member := List.mem_of_getElem? found
  have genuine := carries.agrees.flights flight member
  obtain ⟨index, extSeq, there⟩ := carries.flights flight member
  obtain ⟨packet, here⟩ := made.packet_at there
  have moved : call.move crypto (.deliver position now later) =
      { call with channel := call.channel.deliver crypto flight } := by
    rw [move, Srtp.Channel.step, found]
  have kept (agrees : Srtp.Agrees crypto (call.channel.deliver crypto flight)) :
      Carries crypto seq ssrc stream (call.move crypto (.deliver position now later)) := by
    rw [moved]
    exact ⟨agrees, carries.unsent, carries.inOrder, carries.flights⟩
  by_cases admitted : Admits Srtp.replayWindow
      {index | index ∈ call.channel.accepted (Srtp.ssrcOf flight.packet)} flight.extSeq
  · obtain ⟨output, agrees⟩ := Srtp.deliver_admitted carries.agrees genuine near admitted
    have asked : call.action? crypto (.deliver position now later) =
        some (.push ⟨packet.sequenceNumber, (packet, flight.extSeq)⟩ now later) := by
      rw [action?, found]
      change pushed _ (Srtp.decryptRtp crypto call.channel.receiver flight.wire).2 _ _ = _
      rw [output, pushed]
      change (parse flight.packet >>= _) = _
      rw [here.parsed]
      rfl
    have fresh : call.fresh crypto (.deliver position now later) = [flight.extSeq] := by
      rw [fresh, asked]
      rfl
    rw [here.source] at admitted
    constructor
    · exact kept agrees
    · rw [moved, fresh]
      simp [Srtp.Channel.deliver, output, here.source]
    · rw [fresh]
      exact ⟨List.nodup_singleton _, List.singleton_disjoint.mpr admitted.1⟩
    · intro action same
      rw [asked] at same
      cases same
      exact ⟨.push ⟨packet.sequenceNumber,
        ⟨(packet, index), List.mem_zipIdx_iff_getElem?.mpr here.found⟩⟩ now later, rfl,
        by rw [extSeq]; rfl⟩
  · obtain ⟨output, agrees⟩ := Srtp.deliver_refused carries.agrees genuine near admitted
    apply Opens.idle (kept agrees)
    · rw [moved]
      simp [Srtp.Channel.deliver, output]
    · rw [action?, found]
      change pushed _ (Srtp.decryptRtp crypto call.channel.receiver flight.wire).2 _ _ = _
      rw [output]
      rfl

theorem opens (made : PacketStream seq ssrc stream sent) {call : SecureCall}
    (carries : Carries crypto seq ssrc stream call) {event : CallEvent}
    (permitted : call.Permitted crypto event) :
    Opens crypto seq ssrc stream sent call event := by
  cases event with
  | send => exact send_opens made carries
  | deliver position now later => exact deliver_opens made carries permitted.1
  | forge wire now later => exact forge_opens carries permitted
  | flush now =>
      exact ⟨carries, rfl, ⟨List.nodup_nil, fun _ member => absurd member List.not_mem_nil⟩,
        fun action same => ⟨.flush now, trivial, Option.some.inj same⟩⟩

theorem step_carries (made : PacketStream seq ssrc stream sent) {call : SecureCall}
    (carries : Carries crypto seq ssrc stream call) {event : CallEvent}
    (permitted : call.Permitted crypto event) :
    Carries crypto seq ssrc stream (call.step crypto event).1 := by
  obtain ⟨agrees, unsent, inOrder, flights⟩ := (opens made carries permitted).carries
  rw [step_channel]
  exact ⟨agrees, unsent, inOrder, flights⟩

theorem step_accepted (call : SecureCall) (event : CallEvent) :
    (call.step crypto event).1.channel = (call.move crypto event).channel := by
  rw [step_channel]

theorem asked_append (call : SecureCall) (first second : List CallEvent) :
    call.asked crypto (first ++ second) =
      call.asked crypto first ++ (run (step crypto) call first).1.asked crypto second := by
  induction first generalizing call with
  | nil => rfl
  | cons event rest ih =>
      rw [List.cons_append, asked, ih, asked, List.append_assoc]
      rfl

theorem asked_timely (made : PacketStream seq ssrc stream sent) {call : SecureCall}
    (carries : Carries crypto seq ssrc stream call) {events : List CallEvent}
    (permitted : Always (step crypto) (Permitted crypto) call events) :
    Always Playback.step (Playback.Timely Prod.snd) call.playback (call.asked crypto events) := by
  induction events generalizing call with
  | nil => trivial
  | cons event rest ih =>
      obtain ⟨now, further⟩ := permitted
      rw [asked, always_append, step_playback]
      refine ⟨?_, ih (step_carries made carries now) further⟩
      cases same : call.action? crypto event with
      | none => trivial
      | some action =>
          refine ⟨?_, trivial⟩
          cases event with
          | send => cases same
          | deliver position arrival later => exact now.2 action same
          | flush time =>
              cases same
              trivial
          | forge wire arrival later =>
              rw [(forged_refused now).2] at same
              cases same

theorem asked_delivers (made : PacketStream seq ssrc stream sent) {call : SecureCall}
    (carries : Carries crypto seq ssrc stream call) {events : List CallEvent}
    (permitted : Always (step crypto) (Permitted crypto) call events) :
    ∃ originals : List (Action (SentPacket sent)), (∀ action ∈ originals, Delivers action) ∧
      originals.map (Action.map (opened seq)) = call.asked crypto events := by
  induction events generalizing call with
  | nil => exact ⟨[], fun _ member => absurd member List.not_mem_nil, rfl⟩
  | cons event rest ih =>
      obtain ⟨now, further⟩ := permitted
      obtain ⟨others, delivered, same⟩ := ih (step_carries made carries now) further
      rw [asked, ← same]
      cases asks : call.action? crypto event with
      | none => exact ⟨others, delivered, rfl⟩
      | some action =>
          obtain ⟨original, own, rfl⟩ := (opens made carries now).delivers action asks
          exact ⟨original :: others, List.forall_mem_cons.mpr ⟨own, delivered⟩, rfl⟩

theorem asked_once (made : PacketStream seq ssrc stream sent) {call : SecureCall}
    (carries : Carries crypto seq ssrc stream call) {events : List CallEvent}
    (permitted : Always (step crypto) (Permitted crypto) call events) :
    ((arrived (call.asked crypto events)).map Prod.snd).Nodup ∧
      ((arrived (call.asked crypto events)).map Prod.snd).Disjoint
        (call.channel.accepted ssrc) := by
  induction events generalizing call with
  | nil => exact ⟨List.nodup_nil, List.disjoint_nil_left _⟩
  | cons event rest ih =>
      obtain ⟨now, further⟩ := permitted
      obtain ⟨distinct, apart⟩ := ih (step_carries made carries now) further
      obtain ⟨-, accepted, ⟨own, unseen⟩, -⟩ := opens made carries now
      rw [step_accepted, accepted, List.disjoint_append_right] at apart
      have split : (arrived (call.asked crypto (event :: rest))).map Prod.snd =
          call.fresh crypto event ++
            (arrived ((call.step crypto event).1.asked crypto rest)).map Prod.snd := by
        rw [asked, arrived, List.flatMap_append, List.map_append]
        rfl
      rw [split, List.nodup_append', List.disjoint_append_left]
      exact ⟨⟨own, distinct, apart.1.symm⟩, unseen, apart.2⟩

/-- What a reception has in common with a call: what the buffer is asked, each packet at most
once, what it says and what it has played. -/
structure Hears (crypto : Srtp.Crypto) (call : SecureCall) (events : List CallEvent)
    (heard : Reception seq sent) : Prop where
  asked : heard.actions.map (Action.map (opened seq)) = call.asked crypto events
  once : (arrived heard.actions).Nodup
  said : (run (step crypto) call events).2 = heard.result.2.map (Event.map (opened seq))
  played : (run (step crypto) call events).1.playback.played = heard.played.map fun entry =>
    (entry.1, seq + entry.2)

theorem reception {sender receiver : Srtp.Session} (ends : Srtp.Ends crypto sender receiver)
    (made : PacketStream seq ssrc stream sent) {opts : Options}
    (small : (initJitterBuffer opts : JitterBuffer Opened).maxSize ≤ 256)
    {events : List CallEvent}
    (permitted : Always (step crypto) (Permitted crypto) (.start sender receiver opts seq stream)
      events)
    (noResync : ∀ number, Event.resync number ∉
      (run (step crypto) (.start sender receiver opts seq stream) events).2) :
    ∃ heard : Reception seq sent, heard.opts = opts ∧
      Hears crypto (.start sender receiver opts seq stream) events heard := by
  have carries := start_carries ends made opts
  obtain ⟨originals, delivers, same⟩ := asked_delivers made carries permitted
  have timely := asked_timely made carries permitted
  have once := (asked_once made carries permitted).1
  have played := @run_playback crypto (start sender receiver opts seq stream) events
  have fresh : (start sender receiver opts seq stream).playback =
      (Playback.new opts : Playback (SentPacket sent)).map (opened seq) := rfl
  rw [← same, fresh] at timely played
  rw [← same, map_arrived, List.map_map] at once
  rw [Playback.map_run] at played
  obtain ⟨state, said⟩ := Prod.mk.injEq .. ▸ played
  let heard : Reception seq sent :=
    { opts := opts
      actions := originals
      small := small
      delivers := delivers
      timely := (Playback.map_always_timely (opened seq) Prod.snd _ originals).mp timely
      noResync := fun number member =>
        noResync number (said ▸ List.mem_map.mpr ⟨_, member, rfl⟩) }
  refine ⟨heard, rfl, same, once.of_map, said.symm, ?_⟩
  rw [← state]
  change heard.result.1.played.map (opened seq) = _
  rw [Reception.played, List.map_map]
  rfl

section Hearing

variable {call : SecureCall} {events : List CallEvent} {heard : Reception seq sent}

/-- Nothing is reported lost in the reception when nothing is in the call. -/
theorem Hears.unbroken (hears : Hears crypto call events heard)
    (packets : ∀ event ∈ (run (step crypto) call events).2, ∃ pkt, event = .packet pkt)
    (first : ∀ entry ∈ (run (step crypto) call events).1.playback.played.head?, entry.2 = seq) :
    heard.Unbroken := by
  constructor
  · intro event member
    obtain ⟨pkt, same⟩ := packets (event.map (opened seq))
      (hears.said ▸ List.mem_map.mpr ⟨event, member, rfl⟩)
    cases event with
    | packet pkt => exact ⟨pkt, rfl⟩
    | loss seq => cases same
    | gap start stop length => cases same
    | resync seq => cases same
  · intro entry member
    have start := first (entry.1, seq + entry.2)
      (by rw [hears.played, List.head?_map, Option.mem_def.mp member]; rfl)
    exact Nat.add_eq_left.mp start

/-- Every packet comes in the reception when every one does in the call. -/
theorem Hears.complete {now : Rat} (hears : Hears crypto call (events ++ [.flush now]) heard)
    (early : ∀ action ∈ call.asked crypto events, action.Early
      (initJitterBuffer heard.opts : JitterBuffer Opened).effectiveLatency now)
    (all : ∀ index < sent.length,
      seq + index ∈ (arrived (call.asked crypto events)).map Prod.snd) : heard.Complete := by
  have asked := hears.asked
  rw [asked_append] at asked
  obtain ⟨front, last, split, mapped, ended⟩ := List.map_eq_append_iff.mp asked
  obtain ⟨action, rfl, same⟩ := List.map_eq_singleton_iff.mp ended
  cases action with
  | push pkt arrival later => cases same
  | flush time =>
      cases same
      refine ⟨front, now, split, ?_, ?_⟩
      · intro action member
        have own := early _ (mapped ▸ List.mem_map.mpr ⟨action, member, rfl⟩)
        cases action with
        | push pkt arrival later => exact own
        | flush time => trivial
      · intro pkt
        have inside :=
          (List.getElem?_eq_some_iff.mp (List.mem_zipIdx_iff_getElem?.mp pkt.property)).1
        have there := all _ inside
        rw [← mapped, map_arrived, List.map_map] at there
        obtain ⟨other, member, same⟩ := List.mem_map.mp there
        rwa [sent_packet_ext (Nat.add_left_cancel same)] at member

end Hearing

end SecureCall

end RtpPacket.Receive
