import RtpPacket.Lib.Parts
import RtpPacket.Receive.Drain
import RtpPacket.Rtp.Header

/-!
# A stream through the jitter buffer

The packets of a stream come out of order, more than once or not at all, within what a small
buffer tells apart and without a resync. What it hands on are some of them, in the order sent
and once each; where nothing is reported lost they are the first ones of the stream.
-/

namespace RtpPacket.Receive

open JitterBuffer Rtp Run

set_option autoImplicit false

abbrev SentPacket (sent : List ParsedPacket) : Type :=
  { entry : ParsedPacket × Nat // entry ∈ sent.zipIdx }

/-- A packet comes under its own number. -/
def Delivers {sent : List ParsedPacket} : Action (SentPacket sent) → Prop
  | .push pkt _ _ => pkt.sequenceNumber = pkt.payload.val.1.sequenceNumber
  | .flush _ => True

instance {sent : List ParsedPacket} (action : Action (SentPacket sent)) :
    Decidable (Delivers action) :=
  match action with
  | .push _ _ _ => inferInstanceAs (Decidable (_ = _))
  | .flush _ => inferInstanceAs (Decidable True)

theorem sent_packet_ext {sent : List ParsedPacket} {one other : SentPacket sent}
    (same : one.val.2 = other.val.2) : one = other := by
  have first := List.mem_zipIdx_iff_getElem?.mp one.property
  have second := List.mem_zipIdx_iff_getElem?.mp other.property
  rw [same, second] at first
  exact Subtype.ext (Prod.ext (Option.some.inj first).symm same)

theorem get_mem_zip_idx (sent : List ParsedPacket) (index : Fin sent.length) :
    (sent.get index, index.val) ∈ sent.zipIdx :=
  List.mem_zipIdx_iff_getElem?.mpr (List.getElem?_eq_getElem index.isLt)

def deliver (sent : List ParsedPacket) (index : Fin sent.length) (now : Rat) :
    Action (SentPacket sent) :=
  .push ⟨(sent.get index).sequenceNumber, ⟨_, get_mem_zip_idx sent index⟩⟩ now now

theorem is_packet_iff {Payload : Type} (event : Event Payload) :
    event.packet?.isSome = true ↔ ∃ pkt, event = .packet pkt := by
  cases event <;> simp [Event.packet?]

instance {Payload : Type} (event : Event Payload) : Decidable (∃ pkt, event = .packet pkt) :=
  decidable_of_iff _ (is_packet_iff event)

def Consecutive (seq : Nat) (sent : List ParsedPacket) : Prop :=
  sent.map (·.sequenceNumber) = (List.range sent.length).map fun index => (seq + index) % 65536

/-- Calls of a jitter buffer that bring packets of a stream. The buffer stores 256 packets at
most, each comes less than a quarter of the cycle from those stored and from the last one
played, and the buffer never resyncs: eight old packets in a row would make it start over. -/
structure Reception (seq : Nat) (sent : List ParsedPacket) where
  opts : Options
  actions : List (Action (SentPacket sent))
  small : (initJitterBuffer opts : JitterBuffer (SentPacket sent)).maxSize ≤ 256
  delivers : ∀ action ∈ actions, Delivers action
  timely : Always Playback.step (Playback.Timely fun pkt => seq + pkt.val.2) (.new opts) actions
  noResync : ∀ number, Event.resync number ∉ (run Playback.step (.new opts) actions).2

namespace Reception

variable {seq : Nat} {sent : List ParsedPacket}

def result (self : Reception seq sent) :
    Playback (SentPacket sent) × List (Event (SentPacket sent)) :=
  run Playback.step (.new self.opts) self.actions

def played (self : Reception seq sent) : List (ParsedPacket × Nat) :=
  self.result.1.played.map Subtype.val

/-- From the first packet on nothing is reported lost. -/
def Unbroken (self : Reception seq sent) : Prop :=
  (∀ event ∈ self.result.2, ∃ pkt, event = .packet pkt) ∧ ∀ first ∈ self.played.head?, first.2 = 0

/-- Every packet comes, and the last call is a flush for which all have waited. -/
def Complete (self : Reception seq sent) : Prop :=
  ∃ before now, self.actions = before ++ [.flush now] ∧
    (∀ action ∈ before, action.Early
      (initJitterBuffer self.opts : JitterBuffer (SentPacket sent)).effectiveLatency now) ∧
    ∀ pkt : SentPacket sent, pkt ∈ arrived before

theorem numbered (consecutive : Consecutive seq sent) (self : Reception seq sent) :
    ∀ action ∈ self.actions, action.Numbered fun pkt => seq + pkt.val.2 := by
  intro action member
  have own := self.delivers action member
  cases action with
  | flush now => trivial
  | push pkt now later =>
      have there := List.mem_zipIdx_iff_getElem?.mp pkt.payload.property
      have inside : pkt.payload.val.2 < sent.length := (List.getElem?_eq_some_iff.mp there).1
      have number := congrArg (fun numbers => numbers[pkt.payload.val.2]?) consecutive
      simp only [List.getElem?_map, there, Option.map_some, List.getElem?_range inside,
        Option.some.injEq] at number
      change pkt.sequenceNumber % 0x10000 = (seq + pkt.payload.val.2) % 0x10000
      rw [show pkt.sequenceNumber = _ from own, number, Nat.mod_mod]

theorem played_members (self : Reception seq sent) :
    ∀ entry ∈ self.played, entry ∈ sent.zipIdx := by
  intro entry member
  obtain ⟨pkt, -, rfl⟩ := List.mem_map.mp member
  exact pkt.property

theorem played_sublist (consecutive : Consecutive seq sent) (self : Reception seq sent) :
    self.played.Sublist sent.zipIdx := by
  obtain ⟨⟨first, in_place⟩, log⟩ :=
    run_in_place self.small (self.numbered consecutive) self.timely self.noResync
  apply Parts.sublist_of_places self.played_members
  have places := (Playback.played_ascending in_place).2
  rw [← log, List.pairwise_map] at places
  rw [played, List.map_map, List.pairwise_map]
  exact places.imp fun less => Nat.lt_of_add_lt_add_left less

theorem played_indices (consecutive : Consecutive seq sent) {self : Reception seq sent}
    (unbroken : self.Unbroken) :
    self.played.map Prod.snd = List.range self.played.length := by
  obtain ⟨⟨first, in_place⟩, log⟩ :=
    run_in_place self.small (self.numbered consecutive) self.timely self.noResync
  obtain ⟨whole, start⟩ := unbroken
  have contiguous := Playback.played_contiguous in_place whole
  rw [← log, List.range'_eq_map_range] at contiguous
  have indices : (self.played.map Prod.snd).map (seq + ·) =
      (List.range self.played.length).map (first + ·) := by
    rw [played, List.map_map, List.map_map, List.length_map]
    exact contiguous
  cases handed : self.played with
  | nil => rfl
  | cons entry rest =>
      -- The first index is zero, which ties the first place to the first number.
      have zero : entry.2 = 0 := start entry (by rw [handed]; rfl)
      have same : seq = first := by
        have head := congrArg List.head? indices
        rw [handed] at head
        simp only [List.map_cons, List.head?_cons, zero, Nat.add_zero, List.length_cons,
          List.range_succ_eq_map, Option.some.injEq] at head
        exact head
      rw [← handed]
      rw [← same] at indices
      exact List.map_injective_iff.mpr (add_right_injective seq) indices

theorem played_first (consecutive : Consecutive seq sent) {self : Reception seq sent}
    (unbroken : self.Unbroken) : self.played = sent.zipIdx.take self.played.length :=
  Parts.prefix_of_places self.played_members (played_indices consecutive unbroken)

theorem played_all (consecutive : Consecutive seq sent) {self : Reception seq sent}
    (unbroken : self.Unbroken) (complete : self.Complete) : self.played = sent.zipIdx := by
  obtain ⟨before, now, calls, early, all⟩ := complete
  have reach : sent.zipIdx.length ≤ self.played.length := by
    rw [List.length_zipIdx]
    by_contra fewer
    -- The last packet of the stream has come, so what was played reaches as far.
    obtain ⟨last, there⟩ : ∃ last, sent[sent.length - 1]? = some last :=
      ⟨_, List.getElem?_eq_getElem (by omega)⟩
    have member : (last, sent.length - 1) ∈ sent.zipIdx := List.mem_zipIdx_iff_getElem?.mpr there
    obtain ⟨other, played, further⟩ := played_beyond self.small
      (calls ▸ self.numbered consecutive) (calls ▸ self.timely) early (calls ▸ self.noResync)
      (all ⟨_, member⟩)
    rw [← calls] at played
    have index : other.val.2 ∈ self.played.map Prod.snd :=
      List.mem_map_of_mem (List.mem_map_of_mem played)
    rw [played_indices consecutive unbroken, List.mem_range] at index
    dsimp only at further
    omega
  rw [played_first consecutive unbroken, List.take_of_length_le reach]

theorem packets_sublist (consecutive : Consecutive seq sent) (self : Reception seq sent) :
    (self.played.map Prod.fst).Sublist sent := by
  have some := (self.played_sublist consecutive).map Prod.fst
  rwa [List.zipIdx_map_fst] at some

theorem packets_first (consecutive : Consecutive seq sent) {self : Reception seq sent}
    (unbroken : self.Unbroken) : self.played.map Prod.fst = sent.take self.played.length := by
  have front := congrArg (List.map Prod.fst) (played_first consecutive unbroken)
  rwa [List.map_take, List.zipIdx_map_fst] at front

theorem packets_all (consecutive : Consecutive seq sent) {self : Reception seq sent}
    (unbroken : self.Unbroken) (complete : self.Complete) : self.played.map Prod.fst = sent := by
  rw [played_all consecutive unbroken complete, List.zipIdx_map_fst]

end Reception

def reordered (sent : List ParsedPacket) (three : sent.length = 3) :
    List (Action (SentPacket sent)) :=
  let deliver (index : Fin 3) := deliver sent (index.cast three.symm)
  [deliver 0 0, deliver 2 5, deliver 1 7, .flush 20, deliver 1 25]

theorem reordered_all {sent : List ParsedPacket} (three : sent.length = 3)
    (pkt : SentPacket sent) : pkt ∈ arrived (reordered sent three) := by
  have inside := (List.getElem?_eq_some_iff.mp (List.mem_zipIdx_iff_getElem?.mp pkt.property)).1
  have which : pkt.val.2 = 0 ∨ pkt.val.2 = 2 ∨ pkt.val.2 = 1 := by omega
  cases which with
  | inl first => exact List.mem_cons.mpr (.inl (sent_packet_ext first))
  | inr later =>
      cases later with
      | inl third =>
          exact List.mem_cons_of_mem _ (List.mem_cons.mpr (.inl (sent_packet_ext third)))
      | inr second =>
          exact List.mem_cons_of_mem _ (List.mem_cons_of_mem _
            (List.mem_cons.mpr (.inl (sent_packet_ext second))))

theorem reordered_reception {seq : Nat} {sent : List ParsedPacket} (three : sent.length = 3)
    (timely : Always Playback.step (Playback.Timely fun pkt => seq + pkt.val.2)
      (.new ⟨none, none, none, none⟩) (reordered sent three ++ [.flush 100]))
    (packets : ∀ event ∈ (run Playback.step (.new ⟨none, none, none, none⟩)
      (reordered sent three ++ [.flush 100])).2, ∃ pkt, event = .packet pkt)
    (start : ∀ first ∈ ((run Playback.step (.new ⟨none, none, none, none⟩)
      (reordered sent three ++ [.flush 100])).1.played.map Subtype.val).head?, first.2 = 0) :
    ∃ reception : Reception seq sent,
      reception.actions = reordered sent three ++ [.flush 100] ∧ reception.Unbroken ∧
        reception.Complete := by
  have early : ∀ action ∈ reordered sent three, action.Early 50 100 := by
    simp only [reordered, deliver, List.forall_mem_cons, Action.Early]
    norm_num
  have latency : (initJitterBuffer ⟨none, none, none, none⟩ :
      JitterBuffer (SentPacket sent)).effectiveLatency = 50 := by
    rw [JitterBuffer.effectiveLatency]
    simp [initJitterBuffer]
  let reception : Reception seq sent :=
    { opts := ⟨none, none, none, none⟩
      actions := reordered sent three ++ [.flush 100]
      small := le_rfl
      delivers := by simp [reordered, deliver, Delivers]
      timely := timely
      noResync := fun number member => by
        obtain ⟨pkt, same⟩ := packets _ member
        cases same }
  have complete : reception.Complete :=
    ⟨reordered sent three, 100, rfl, by rw [latency]; exact early, reordered_all three⟩
  exact ⟨reception, rfl, ⟨packets, start⟩, complete⟩

end RtpPacket.Receive
