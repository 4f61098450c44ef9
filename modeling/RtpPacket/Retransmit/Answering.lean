import RtpPacket.Retransmit.NackThrottle
import RtpPacket.Retransmit.Rtx
import RtpPacket.Retransmit.SenderBuffer

/-!
# A sender that answers NACKs

For every number of a NACK the sender looks up the packet in its ring, asks the throttle
and wraps the packet in the retransmission stream. Over any run, what it sends are the
packets that were asked for, each in a packet of its own number, and a packet that is
still in the ring is refused only when it was sent within the window.
-/

namespace RtpPacket.Retransmit

open ByteCodec Cooldown DirectMapped Rtp Run Srtp Word

set_option autoImplicit false

structure RtxStream where
  rtxSsrc : Nat
  rtxPt : Nat
  seq : Nat
  deriving DecidableEq, Repr

namespace RtxStream

def new (rtxSsrc rtxPt initialSeq : Option Int) (drawn : Bytes) : Except String RtxStream :=
  match rtxSsrc, rtxPt with
  | some rtxSsrc, some rtxPt =>
      .ok {
        rtxSsrc := wrapUnsigned 32 rtxSsrc
        rtxPt := wrapUnsigned 7 rtxPt
        seq := match initialSeq with
          | some initialSeq => wrapUnsigned 16 initialSeq
          | none => readBE 2 drawn 0 }
  | _, _ => .error "RtxStream: rtxSsrc and rtxPt required"

def wrap (self : RtxStream) (origPkt : Bytes) : RtxStream × Option Bytes :=
  let seq := (self.seq + 1) % 65536
  ({ self with seq := seq },
    buildRtxPacket origPkt (some ⟨some self.rtxSsrc, some self.rtxPt, some seq⟩))

end RtxStream

namespace SenderBuffer

/-- Every slot has the packet that was stored last under its name. -/
def Faithful (stores : List Bytes) (buffer : SenderBuffer) : Prop :=
  ∃ table, buffer.Holds table ∧
    ∀ slot entry, table slot = some entry → latest entry.1.1 entry.1.2 stores = some entry.2

theorem latest_append (ssrc seq : Nat) (stores : List Bytes) (packet : Bytes) :
    latest ssrc seq (stores ++ [packet]) =
      if 12 ≤ packet.length ∧ ssrcOf packet = ssrc ∧ seqOf packet = seq then some packet
      else latest ssrc seq stores := by
  rw [latest, List.reverse_append, List.reverse_singleton, List.singleton_append, List.find?_cons]
  split_ifs with named
  · rw [decide_eq_true named]
  · rw [decide_eq_false named, latest]

theorem latest_eq_some {ssrc seq : Nat} {stores : List Bytes} {packet : Bytes}
    (found : latest ssrc seq stores = some packet) :
    packet ∈ stores ∧ 12 ≤ packet.length ∧ ssrcOf packet = ssrc ∧ seqOf packet = seq := by
  rw [latest] at found
  have named := List.find?_some found
  exact ⟨List.mem_reverse.mp (List.mem_of_find?_eq_some found), of_decide_eq_true named⟩

theorem faithful_new (size : Option Nat) : Faithful [] (new size) :=
  ⟨empty, holds_new size, fun _ _ held => by cases held⟩

theorem Faithful.store {stores : List Bytes} {buffer : SenderBuffer}
    (faithful : Faithful stores buffer) (packet : Bytes) :
    Faithful (stores ++ [packet]) (buffer.store packet) := by
  obtain ⟨table, holds, named⟩ := faithful
  refine ⟨_, holds_store holds packet, ?_⟩
  have sized : (buffer.store packet).size = buffer.size := store_all_size buffer [packet]
  intro slot entry held
  rw [latest_append]
  by_cases short : packet.length < 12
  · rw [entryOf, if_pos short] at held
    rw [if_neg (by omega)]
    exact named slot entry held
  · rw [entryOf, if_neg short, Option.toList_some, putAll, List.foldl_cons, List.foldl_nil, put]
      at held
    by_cases here : slot = place buffer.size (ssrcOf packet, seqOf packet)
    · subst here
      rw [Function.update_self] at held
      rw [← Option.some.inj held, if_pos ⟨Nat.not_lt.mp short, rfl, rfl⟩]
    · rw [Function.update_of_ne here] at held
      have elsewhere : ¬ (12 ≤ packet.length ∧ ssrcOf packet = entry.1.1 ∧
          seqOf packet = entry.1.2) := by
        rintro ⟨_, source, number⟩
        apply here
        rw [source, number]
        exact (holds.placed slot entry held).symm
      rw [if_neg elsewhere]
      exact named slot entry held

/-- What a source's name does not select stays. -/
theorem Faithful.clear {stores : List Bytes} {buffer : SenderBuffer}
    (faithful : Faithful stores buffer) (ssrc : Option Nat) :
    Faithful stores (buffer.clear ssrc) := by
  obtain ⟨table, holds, named⟩ := faithful
  cases ssrc with
  | none =>
      refine ⟨fun _ => none, ⟨?_, fun _ _ => rfl⟩, ?_⟩
      · intro slot entry held
        cases held
      · intro slot entry held
        cases held
  | some ssrc =>
      have kept {slot : Nat × Nat} {entry : (Nat × Nat) × Bytes}
          (held : (if slot.1 = ssrc then none else table slot) = some entry) :
          table slot = some entry := by
        rw [Option.ite_none_left_eq_some] at held
        exact held.2
      refine ⟨fun slot => if slot.1 = ssrc then none else table slot, ⟨?_, ?_⟩, ?_⟩
      · exact fun slot entry held => holds.placed slot entry (kept held)
      · intro source slot
        rw [SenderBuffer.clear]
        dsimp only
        by_cases same : source = ssrc
        · subst same
          rw [Function.update_self, if_pos rfl]
          rfl
        · rw [Function.update_of_ne same, if_neg same]
          exact holds.slots source slot
      · exact fun slot entry held => named slot entry (kept held)

theorem Faithful.get {stores : List Bytes} {buffer : SenderBuffer}
    (faithful : Faithful stores buffer) {ssrc seq : Nat} {packet : Bytes}
    (found : buffer.get ssrc seq = some packet) : latest ssrc seq stores = some packet := by
  obtain ⟨table, holds, named⟩ := faithful
  rw [get_eq_find holds, find] at found
  cases held : table (place buffer.size (ssrc, seq)) with
  | none =>
      rw [held] at found
      cases found
  | some entry =>
      rw [held] at found
      dsimp only at found
      split_ifs at found with same
      have same' := named _ entry held
      rw [same] at same'
      exact same'.trans found

end SenderBuffer

structure Resender where
  buffer : SenderBuffer
  throttle : NackThrottle
  rtx : RtxStream

/-- What was asked for, when, and what is sent for it. -/
structure Resent where
  ssrc : Nat
  seq : Nat
  now : ℚ
  packet : Option Bytes
  deriving DecidableEq

inductive ResendEvent where
  | store (rtpPacket : Bytes)
  | storeOwned (rtpPacket : Bytes)
  | clearBuffer (ssrc : Option Nat)
  | clearThrottle
  /-- One number of a NACK; `now` and `draw` are what the throttle reads. -/
  | lost (mediaSsrc seq : Nat) (now draw : ℚ)
  deriving DecidableEq

namespace Resender

def answer (self : Resender) (mediaSsrc seq : Nat) (now draw : ℚ) : Resender × List Resent :=
  match self.buffer.get mediaSsrc seq with
  | none => (self, [])
  | some orig =>
      let asked := self.throttle.shouldSend mediaSsrc seq now draw
      if !asked.2 then ({ self with throttle := asked.1 }, [])
      else
        let wrapped := self.rtx.wrap orig
        ({ self with
            throttle := asked.1
            rtx := wrapped.1 }, [⟨mediaSsrc, seq, now, wrapped.2⟩])

def step (self : Resender) : ResendEvent → Resender × List Resent
  | .store rtpPacket => ({ self with buffer := self.buffer.store rtpPacket }, [])
  | .storeOwned rtpPacket => ({ self with buffer := self.buffer.storeOwned rtpPacket }, [])
  | .clearBuffer ssrc => ({ self with buffer := self.buffer.clear ssrc }, [])
  | .clearThrottle => ({ self with throttle := self.throttle.clear }, [])
  | .lost mediaSsrc seq now draw => self.answer mediaSsrc seq now draw

def stored (past : List ResendEvent) : List Bytes :=
  past.filterMap fun
    | .store rtpPacket => some rtpPacket
    | .storeOwned rtpPacket => some rtpPacket
    | _ => none

def clock (events : List ResendEvent) : List ℚ :=
  events.filterMap fun
    | .lost _ _ now _ => some now
    | _ => none

/-- What was sent again, as the throttle's log has it. -/
def sendings (sent : List Resent) : List ((Nat × Nat) × ℚ) :=
  sent.map fun resent => ((resent.ssrc, resent.seq), resent.now)

structure Fresh (start : Resender) : Prop where
  buffer : ∃ size, start.buffer = SenderBuffer.new size
  throttle : ∃ windowMs, start.throttle = NackThrottle.new windowMs
  seq : start.rtx.seq < 65536

/-- What the ring and the retransmission stream tell of the events so far. -/
structure Stocked (start : Resender) (past : List ResendEvent)
    (reached : Resender × List Resent) : Prop where
  buffer : SenderBuffer.Faithful (stored past) reached.1.buffer
  ssrc : reached.1.rtx.rtxSsrc = start.rtx.rtxSsrc
  pt : reached.1.rtx.rtxPt = start.rtx.rtxPt
  seq : reached.1.rtx.seq = (start.rtx.seq + reached.2.length) % 65536

/-- The throttle beside it has followed what was sent. -/
structure Kept (start : Resender) (began : ℚ) (past : List ResendEvent)
    (reached : Resender × List Resent) : Prop extends Stocked start past reached where
  throttle : reached.1.throttle.Follows (sendings reached.2) ((clock past).getLastD began)
  window : reached.1.throttle.windowMs = start.throttle.windowMs
  spaced : Spaced start.throttle.windowMs (sendings reached.2)

/-- A clock that does not run backwards, from a time on that is not 0. -/
def Ticking (began : ℚ) (events : List ResendEvent) : Prop :=
  0 < began ∧ (began :: clock events).Pairwise (· ≤ ·)

theorem Fresh.stocked {start : Resender} (fresh : Fresh start) :
    Stocked start [] (start, []) := by
  obtain ⟨size, buffer⟩ := fresh.buffer
  constructor
  case buffer =>
    rw [buffer]
    exact SenderBuffer.faithful_new size
  case ssrc => rfl
  case pt => rfl
  case seq => exact (Nat.mod_eq_of_lt fresh.seq).symm

theorem Fresh.kept {start : Resender} (fresh : Fresh start) (began : ℚ) :
    Kept start began [] (start, []) := by
  obtain ⟨windowMs, throttle⟩ := fresh.throttle
  constructor
  case toStocked => exact fresh.stocked
  case throttle =>
    rw [throttle]
    exact NackThrottle.new_follows windowMs began
  case window => rfl
  case spaced => exact spaced_nil start.throttle.windowMs

section Steps

variable {start : Resender} {began : ℚ} {past : List ResendEvent}
  {reached : Resender × List Resent} {event : ResendEvent}

theorem answer_eq {self : Resender} {mediaSsrc seq : Nat} {orig : Bytes}
    (found : self.buffer.get mediaSsrc seq = some orig) (now draw : ℚ) :
    self.answer mediaSsrc seq now draw =
      if (self.throttle.shouldSend mediaSsrc seq now draw).2 then
        ({ self with
            throttle := (self.throttle.shouldSend mediaSsrc seq now draw).1
            rtx := (self.rtx.wrap orig).1 }, [⟨mediaSsrc, seq, now, (self.rtx.wrap orig).2⟩])
      else ({ self with throttle := (self.throttle.shouldSend mediaSsrc seq now draw).1 }, []) := by
  rw [answer, found]
  dsimp only
  cases (self.throttle.shouldSend mediaSsrc seq now draw).2 with
  | false => rfl
  | true => rfl

theorem answer_missing {self : Resender} {mediaSsrc seq : Nat}
    (missing : self.buffer.get mediaSsrc seq = none) (now draw : ℚ) :
    self.answer mediaSsrc seq now draw = (self, []) := by
  rw [answer, missing]

/-- One number is answered with one packet at most, and the ring stays as it is. -/
theorem answer_small (self : Resender) (mediaSsrc seq : Nat) (now draw : ℚ) :
    (self.answer mediaSsrc seq now draw).2.length ≤ 1 ∧
      (self.answer mediaSsrc seq now draw).1.buffer = self.buffer := by
  cases found : self.buffer.get mediaSsrc seq with
  | none =>
      rw [answer_missing found]
      exact ⟨Nat.zero_le 1, rfl⟩
  | some orig =>
      rw [answer_eq found]
      split_ifs with sends
      · exact ⟨Nat.le_refl 1, rfl⟩
      · exact ⟨Nat.zero_le 1, rfl⟩

theorem answer_names {self : Resender} {mediaSsrc seq : Nat} {now draw : ℚ} {resent : Resent}
    (sent : resent ∈ (self.answer mediaSsrc seq now draw).2) :
    resent.ssrc = mediaSsrc ∧ resent.seq = seq ∧ resent.now = now := by
  cases found : self.buffer.get mediaSsrc seq with
  | none =>
      rw [answer_missing found] at sent
      cases sent
  | some orig =>
      rw [answer_eq found] at sent
      split_ifs at sent with sends
      · rw [List.mem_singleton.mp sent]
        exact ⟨rfl, rfl, rfl⟩
      · cases sent

theorem clock_silent (silent : clock [event] = []) :
    clock (past ++ [event]) = clock past := by
  rw [clock, List.filterMap_append]
  exact (congrArg _ silent).trans (List.append_nil _)

variable (past event) in
theorem stored_append :
    stored (past ++ [event]) = stored past ++ stored [event] := List.filterMap_append

theorem Stocked.quiet (known : Stocked start past reached) (event : ResendEvent)
    {after : Resender} (same : after.rtx = reached.1.rtx)
    (faithful : SenderBuffer.Faithful (stored past ++ stored [event]) after.buffer) :
    Stocked start (past ++ [event]) (after, reached.2 ++ []) := by
  rw [List.append_nil]
  constructor
  case buffer =>
    rw [stored_append]
    exact faithful
  case ssrc => exact same ▸ known.ssrc
  case pt => exact same ▸ known.pt
  case seq => exact same ▸ known.seq

theorem Stocked.faithful (known : Stocked start past reached) (plain : stored [event] = []) :
    SenderBuffer.Faithful (stored past ++ stored [event]) reached.1.buffer := by
  rw [plain, List.append_nil]
  exact known.buffer

/-- One number of a NACK, whatever the throttle says. -/
theorem Stocked.lost (known : Stocked start past reached) (mediaSsrc seq : Nat) (now draw : ℚ) :
    Stocked start (past ++ [.lost mediaSsrc seq now draw])
      ((reached.1.answer mediaSsrc seq now draw).1,
        reached.2 ++ (reached.1.answer mediaSsrc seq now draw).2) := by
  have faithful := @Stocked.faithful _ _ _ (.lost mediaSsrc seq now draw) known rfl
  cases found : reached.1.buffer.get mediaSsrc seq with
  | none =>
      rw [answer_missing found]
      exact known.quiet _ rfl faithful
  | some orig =>
      rw [answer_eq found]
      split_ifs with sends
      · constructor
        case buffer =>
          rw [stored_append]
          exact faithful
        case ssrc => exact known.ssrc
        case pt => exact known.pt
        case seq =>
          have number := known.seq
          rw [List.length_append, List.length_singleton]
          simp only [RtxStream.wrap]
          omega
      · exact known.quiet _ rfl faithful

theorem Stocked.step (known : Stocked start past reached) :
    Stocked start (past ++ [event])
      ((reached.1.step event).1, reached.2 ++ (reached.1.step event).2) := by
  cases event with
  | store rtpPacket => exact known.quiet _ rfl (known.buffer.store rtpPacket)
  | storeOwned rtpPacket => exact known.quiet _ rfl (known.buffer.store rtpPacket)
  | clearBuffer ssrc =>
      have cleared := known.buffer.clear ssrc
      rw [← List.append_nil (stored past)] at cleared
      exact known.quiet _ rfl cleared
  | clearThrottle => exact known.quiet _ rfl (known.faithful rfl)
  | lost mediaSsrc seq now draw => exact known.lost mediaSsrc seq now draw

theorem Kept.quiet (kept : Kept start began past reached) (event : ResendEvent)
    (silent : clock [event] = []) {buffer : SenderBuffer}
    (faithful : SenderBuffer.Faithful (stored past ++ stored [event]) buffer) :
    Kept start began (past ++ [event]) ({ reached.1 with buffer := buffer }, reached.2 ++ []) := by
  constructor
  case toStocked => exact kept.toStocked.quiet event rfl faithful
  case throttle =>
    rw [clock_silent silent, List.append_nil]
    exact kept.throttle
  case window => exact kept.window
  case spaced =>
    rw [List.append_nil]
    exact kept.spaced

theorem clock_lost (mediaSsrc seq : Nat) (now draw : ℚ) :
    clock (past ++ [.lost mediaSsrc seq now draw]) = clock past ++ [now] := by
  rw [clock, List.filterMap_append]
  rfl

theorem Kept.lost (kept : Kept start began past reached) {mediaSsrc seq : Nat} {now draw : ℚ}
    (ordered : (clock past).getLastD began ≤ now) (positive : now ≠ 0) :
    Kept start began (past ++ [.lost mediaSsrc seq now draw])
        ((reached.1.answer mediaSsrc seq now draw).1,
          reached.2 ++ (reached.1.answer mediaSsrc seq now draw).2) ∧
      ((reached.1.answer mediaSsrc seq now draw).2 = [] ↔
        reached.1.buffer.get mediaSsrc seq = none ∨
          ¬ Ready start.throttle.windowMs (sendings reached.2) (mediaSsrc, seq) now) := by
  have ticked : (clock (past ++ [.lost mediaSsrc seq now draw])).getLastD began = now := by
    rw [clock_lost, List.getLastD_concat]
  have answer := kept.toStocked.lost mediaSsrc seq now draw
  have later := kept.throttle.later ordered
  cases found : reached.1.buffer.get mediaSsrc seq with
  | none =>
      rw [answer_missing found] at answer ⊢
      rw [List.append_nil] at answer ⊢
      exact ⟨⟨answer, ticked.symm ▸ later, kept.window, kept.spaced⟩, iff_of_true rfl (.inl rfl)⟩
  | some orig =>
      obtain ⟨answered, window, follows⟩ := later.asked positive mediaSsrc seq draw
      rw [kept.window] at answered window follows
      rw [Cooldown.step] at follows
      rw [answer_eq found, answered] at answer ⊢
      by_cases ready : Ready start.throttle.windowMs (sendings reached.2) (mediaSsrc, seq) now
      · rw [if_pos ready] at follows
        rw [decide_eq_true ready, if_pos rfl] at answer ⊢
        refine ⟨⟨answer, ?_, window, ?_⟩, iff_of_false (List.cons_ne_nil _ _) ?_⟩
        · rw [ticked, sendings, List.map_append]
          exact follows
        · rw [sendings, List.map_append]
          exact kept.spaced.grant ready
        · rintro (missing | unready)
          · cases missing
          · exact unready ready
      · rw [if_neg ready] at follows
        rw [decide_eq_false ready, if_neg Bool.false_ne_true, List.append_nil] at answer ⊢
        exact ⟨⟨answer, ticked.symm ▸ follows, window, kept.spaced⟩, iff_of_true rfl (.inr ready)⟩

theorem Ticking.before {later : List ResendEvent} (ticking : Ticking began (past ++ later)) :
    Ticking began past := by
  obtain ⟨positive, ordered⟩ := ticking
  refine ⟨positive, ordered.sublist ?_⟩
  rw [clock, clock, List.filterMap_append, ← List.cons_append]
  exact List.sublist_append_left _ _

theorem Ticking.next {mediaSsrc seq : Nat} {now draw : ℚ}
    (ticking : Ticking began (past ++ [.lost mediaSsrc seq now draw])) :
    (clock past).getLastD began ≤ now ∧ now ≠ 0 := by
  obtain ⟨positive, ordered⟩ := ticking
  rw [clock_lost, ← List.cons_append, List.pairwise_append] at ordered
  obtain ⟨sorted, _, before⟩ := ordered
  have last : (clock past).getLastD began ∈ began :: clock past := List.getLastD_mem_cons
  have first := before began List.mem_cons_self now (List.mem_singleton.mpr rfl)
  exact ⟨before _ last now (List.mem_singleton.mpr rfl), (positive.trans_le first).ne'⟩

theorem Kept.step (kept : Kept start began past reached)
    (unclear : event ≠ .clearThrottle) (ticking : Ticking began (past ++ [event])) :
    Kept start began (past ++ [event])
      ((reached.1.step event).1, reached.2 ++ (reached.1.step event).2) := by
  cases event with
  | store rtpPacket => exact kept.quiet _ rfl (kept.buffer.store rtpPacket)
  | storeOwned rtpPacket => exact kept.quiet _ rfl (kept.buffer.store rtpPacket)
  | clearBuffer ssrc =>
      apply kept.quiet _ rfl
      exact (List.append_nil (stored past)).symm ▸ kept.buffer.clear ssrc
  | clearThrottle => exact absurd rfl unclear
  | lost mediaSsrc seq now draw =>
      obtain ⟨ordered, positive⟩ := ticking.next
      exact (kept.lost ordered positive).1

end Steps

theorem run_stocked {start : Resender} (fresh : Fresh start) (events : List ResendEvent) :
    Stocked start events (run step start events) := by
  induction events using List.reverseRecOn with
  | nil => exact fresh.stocked
  | append_singleton past event ih =>
      rw [run_append]
      simp only [run, List.append_nil]
      exact ih.step

theorem run_kept {start : Resender} (fresh : Fresh start) {began : ℚ} {events : List ResendEvent}
    (unclear : .clearThrottle ∉ events) (ticking : Ticking began events) :
    Kept start began events (run step start events) := by
  induction events using List.reverseRecOn with
  | nil => exact fresh.kept began
  | append_singleton past event ih =>
      have before := ih (fun member => unclear (List.mem_append_left _ member)) ticking.before
      have now : event ≠ .clearThrottle := by
        rintro rfl
        exact unclear (List.mem_append_right _ (List.mem_singleton.mpr rfl))
      rw [run_append]
      simp only [run, List.append_nil]
      exact before.step now ticking

/-- What is sent for a number is the packet stored last under it, in the next packet of
the retransmission stream. -/
def Retransmits (start : Resender) (stores : List Bytes) (count : Nat) (resent : Resent) : Prop :=
  ∃ orig rtx, SenderBuffer.latest resent.ssrc resent.seq stores = some orig ∧
    resent.packet = some rtx ∧
    Wraps orig rtx start.rtx.rtxSsrc start.rtx.rtxPt (start.rtx.seq + count + 1 : Nat) ∧
    parseRtxPacket rtx
      (some ⟨some (readBE 4 orig 8 : Nat), some (readBE 1 orig 1 % 128 : Nat)⟩) =
        some (withoutPadding orig)

/-- Every packet of these has its header and its padding in place. -/
def Sound (packets : List Bytes) : Prop :=
  ∀ packet ∈ packets, 12 ≤ packet.length → WholeHeader packet ∧ ValidPadding packet

theorem Stocked.retransmits {start : Resender} {past : List ResendEvent}
    {reached : Resender × List Resent} (kept : Stocked start past reached)
    (sound : Sound (stored past)) {mediaSsrc seq : Nat} {now draw : ℚ} {resent : Resent}
    (sent : resent ∈ (reached.1.answer mediaSsrc seq now draw).2) :
    Retransmits start (stored past) reached.2.length resent := by
  cases found : reached.1.buffer.get mediaSsrc seq with
  | none =>
      rw [answer_missing found] at sent
      cases sent
  | some orig =>
      have latest := kept.buffer.get found
      obtain ⟨member, long, _⟩ := SenderBuffer.latest_eq_some latest
      obtain ⟨header, padding⟩ := sound orig member long
      rw [answer_eq found] at sent
      split_ifs at sent with sends
      · rw [List.mem_singleton.mp sent]
        obtain ⟨rtx, built, wraps⟩ := header.build reached.1.rtx.rtxSsrc reached.1.rtx.rtxPt
          ((reached.1.rtx.seq + 1) % 65536 : Nat)
        have unwrapped := wraps.unwrap header padding
        have number := kept.seq
        rw [kept.ssrc, kept.pt] at wraps
        exact ⟨orig, rtx, latest, built, wraps.renumber (by omega), unwrapped⟩
      · cases sent

/-- Over any run the sender sends for each number what was stored last under it, in packets
with consecutive numbers of their own. While the throttle is not cleared and the clock does not
run backwards, it refuses a packet it still has only within a window of sending it. -/
theorem answers_nacks {start : Resender} (fresh : Fresh start) {events : List ResendEvent}
    (sound : Sound (stored events)) :
    (∀ earlier mediaSsrc seq now draw later,
      events = earlier ++ .lost mediaSsrc seq now draw :: later →
        ∀ resent ∈ ((run step start earlier).1.answer mediaSsrc seq now draw).2,
          Retransmits start (stored earlier) (run step start earlier).2.length resent) ∧
    ∀ began, Ticking began events → .clearThrottle ∉ events →
      (∀ earlier mediaSsrc seq now draw later,
        events = earlier ++ .lost mediaSsrc seq now draw :: later →
          (((run step start earlier).1.answer mediaSsrc seq now draw).2 = [] ↔
            (run step start earlier).1.buffer.get mediaSsrc seq = none ∨
              ¬ Ready start.throttle.windowMs (sendings (run step start earlier).2)
                (mediaSsrc, seq) now)) ∧
      Spaced start.throttle.windowMs (sendings (run step start events).2) := by
  constructor
  · intro earlier mediaSsrc seq now draw later split resent sent
    refine (run_stocked fresh earlier).retransmits ?_ sent
    intro packet member
    apply sound packet
    rw [split, stored, List.filterMap_append]
    exact List.mem_append_left _ member
  · intro began ticking unclear
    refine ⟨?_, (run_kept fresh unclear ticking).spaced⟩
    intro earlier mediaSsrc seq now draw later split
    have cut : events = (earlier ++ [.lost mediaSsrc seq now draw]) ++ later := by
      rw [split, List.append_assoc]
      rfl
    have here : Ticking began (earlier ++ [.lost mediaSsrc seq now draw]) := by
      rw [cut] at ticking
      exact ticking.before
    have kept := run_kept fresh
      (fun member => unclear (split ▸ List.mem_append_left _ member)) here.before
    obtain ⟨ordered, positive⟩ := here.next
    exact (kept.lost ordered positive).2

def resender : Resender where
  buffer := SenderBuffer.new (some 8)
  throttle := NackThrottle.new none
  rtx := ⟨9, 97, 65535⟩

def repeatedNacks : List ResendEvent :=
  [.store paddedMedia, .lost 7 5 1000 0, .lost 7 5 1050 0, .lost 7 6 1060 0]

theorem answers_nacks_repeated :
    (run step resender repeatedNacks).2.length = 1 ∧
      (∀ resent ∈ ((run step resender [.store paddedMedia]).1.answer 7 5 1000 0).2,
        Retransmits resender [paddedMedia] 0 resent) ∧
      Spaced 100 (sendings (run step resender repeatedNacks).2) := by
  have fresh : Fresh resender := ⟨⟨some 8, rfl⟩, ⟨none, rfl⟩, by decide⟩
  have ticking : Ticking 1 repeatedNacks := ⟨by decide, by decide +kernel⟩
  have sound : Sound (stored repeatedNacks) := by
    intro packet member _
    rw [List.mem_singleton.mp member]
    exact ⟨⟨by decide, by decide, fun _ => by decide⟩, fun _ => by decide⟩
  obtain ⟨each, throttled⟩ := answers_nacks fresh sound
  obtain ⟨_, spaced⟩ := throttled 1 ticking (by decide)
  exact ⟨by decide +kernel, each [.store paddedMedia] 7 5 1000 0 _ rfl, spaced⟩

end Resender

end RtpPacket.Retransmit
