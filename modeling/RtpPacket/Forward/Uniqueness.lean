import RtpPacket.Forward.Stream
import RtpPacket.Lib.Renumbering

/-!
# Repeated output numbers

The forwarder computes the renumbering of its inputs modulo `2^16`. From there on
the question is when positions repeat: a switch anchors the first packet that
arrives, and an older packet of the same source lands before the anchor.
-/

namespace RtpPacket.Forward

open ByteCodec Word Run Furthest Renumbering RtpForwarder

set_option autoImplicit false

abbrev Input := Passed Bytes (Option Int)

def actionOf : Input → Action
  | .item _ pkt => .forward pkt
  | .switch tsJump => .switchSource tsJump

/-- What the forwarder sees of the extended numbers. -/
def IsGenuine : Input → Prop
  | .item number pkt => Accepted pkt ∧ (seqOf pkt : Int) ≡ number [ZMOD 2 ^ 16]
  | .switch _ => True

instance : DecidablePred IsGenuine
  | .item number pkt =>
      inferInstanceAs (Decidable (Accepted pkt ∧ (seqOf pkt : Int) ≡ number [ZMOD 2 ^ 16]))
  | .switch _ => inferInstanceAs (Decidable True)

structure Represents (fwd : RtpForwarder) (line : Line) : Prop where
  started : fwd.seqOffset.isSome = line.furthest.isSome
  pending : fwd.pendingSwitch = line.pending
  last : fwd.lastOutSeq = line.furthest.map (wrapUnsigned 16)
  shift : -fwd.seqOffset.getD 0 ≡ line.shift [ZMOD 2 ^ 16]

variable {fwd : RtpForwarder} {line : Line} {pkt output : Bytes} {number : Int}

theorem represents_fresh (fresh : fwd.Fresh) : Represents fwd .fresh where
  started := by rw [fresh.seq_offset]; rfl
  pending := fresh.settled
  last := fresh.last_seq
  shift := by rw [fresh.seq_offset]; rfl

theorem represents_position (represents : Represents fwd line)
    (same : (seqOf pkt : Int) ≡ number [ZMOD 2 ^ 16]) (forwards : fwd.Forwards pkt output) :
    seqOf output = wrapUnsigned 16 (line.position fwd.startSeq number) := by
  have started := represents.started
  have last := represents.last
  rw [forwards.seq]
  unfold Line.position
  cases found : line.furthest with
  | none =>
      rw [found] at started
      have fresh : fwd.seqOffset = none :=
        Option.isNone_iff_eq_none.mp (Option.isSome_eq_false_iff.mp started)
      rw [(rebase_fresh fresh _ _).1, wrap_unsigned_of_lt fwd.start_seq_range]
  | some furthest =>
      rw [found] at started last
      cases pending : line.pending with
      | true =>
          rw [(rebase_pending started (represents.pending.trans pending) _ _).1, last]
          apply wrap_unsigned_congr
          exact (wrap_unsigned_mod_eq 16 furthest).add_right 1
      | false =>
          rw [rebase_kept started (represents.pending.trans pending)]
          apply wrap_unsigned_congr
          exact same.add represents.shift

theorem represents_forward (wellFormed : fwd.WellFormed) (represents : Represents fwd line)
    (same : (seqOf pkt : Int) ≡ number [ZMOD 2 ^ 16]) (forwards : fwd.Forwards pkt output)
    (near : ∀ furthest ∈ line.furthest,
      2 * (line.position fwd.startSeq number - furthest).natAbs < 2 ^ 16) :
    Represents (fwd.forward pkt).1 (line.place number (line.position fwd.startSeq number)) := by
  have landed := represents_position represents same forwards
  set position := line.position fwd.startSeq number
  have settles := rebase_settles wellFormed (seqOf pkt) (tsOf pkt)
  have kept := fwd.rebase_keeps (seqOf pkt) (tsOf pkt)
  have congruent : (seqOf output : Int) ≡ position [ZMOD 2 ^ 16] := by
    rw [landed]
    exact wrap_unsigned_mod_eq 16 position
  rw [forwards.next]
  constructor
  · exact settles.1
  · exact settles.2
  · have last := represents.last
    rw [← kept.last_seq] at last
    cases found : line.furthest with
    | none =>
        rw [found] at last
        rw [(track_further (by rw [last]; nofun)).1, landed]
        simp [Line.place, found]
    | some furthest =>
        rw [found] at last
        have delta : seqDelta (seqOf output) (wrapUnsigned 16 furthest) = position - furthest :=
          signed_delta_eq (by decide) congruent (wrap_unsigned_mod_eq 16 furthest)
            (near furthest found)
        by_cases further : furthest < position
        · rw [(track_further (by
            rw [last]
            rintro _ ⟨⟩
            rw [delta]
            exact sub_pos.mpr further)).1, landed]
          simp [Line.place, found, max_eq_right further.le]
        · rw [(track_late last (by
            rw [delta]
            exact mt sub_pos.mp further)).1]
          simp [Line.place, found, max_eq_left (not_lt.mp further)]
  · have placed : (seqOf output : Int) ≡
        seqOf pkt - (fwd.rebase (seqOf pkt) (tsOf pkt)).seqOffset.getD 0 [ZMOD 2 ^ 16] := by
      rw [forwards.seq]
      exact wrap_unsigned_mod_eq 16 _
    have moved := (placed.symm.trans congruent).sub same
    rwa [sub_sub_cancel_left] at moved

theorem represents_switch_source (wellFormed : fwd.WellFormed) (represents : Represents fwd line)
    (tsJump : Option Int) :
    Represents (fwd.switchSource tsJump) { line with pending := line.furthest.isSome } := by
  have started := represents.started
  have last := represents.last
  constructor
  · rw [switch_source_offset]
    exact started
  · cases found : line.furthest with
    | none =>
        -- Nothing to continue from: the call changes nothing.
        rw [found] at last started
        have unchanged : fwd.switchSource tsJump = fwd := by
          rw [switchSource, last]
          rfl
        rw [unchanged]
        apply Bool.eq_false_iff.mpr
        intro pending
        rw [wellFormed.pending pending] at started
        cases started
    | some furthest =>
        rw [found] at last
        exact (switch_source_pending (by rw [last]; rfl) tsJump).1
  · rw [(fwd.switch_source_keeps tsJump).last_seq]
    exact last
  · rw [switch_source_offset]
    exact represents.shift

/-- The forwarder computes the renumbering modulo `2^16`. -/
theorem forwarder_renumbers (fresh : fwd.Fresh) {history : List Input}
    (genuine : ∀ input ∈ history, IsGenuine input)
    (near : Near (2 ^ 16) id (positions fwd.startSeq history)) :
    Represents (stateAfter fwd (history.map actionOf)) (lineAfter fwd.startSeq history) ∧
      (outputs fwd (history.map actionOf)).map seqOf =
        (positions fwd.startSeq history).map (wrapUnsigned 16) := by
  induction history using List.reverseRecOn with
  | nil => exact ⟨represents_fresh fresh, rfl⟩
  | append_singleton history last ih =>
      have earlier : ∀ input ∈ history, IsGenuine input :=
        fun input member => genuine input (List.mem_append_left _ member)
      have wellFormed := well_formed_after fresh.well_formed (history.map actionOf)
      rw [List.map_append, List.map_singleton]
      cases last with
      | switch tsJump =>
          rw [positions_append_switch] at near ⊢
          obtain ⟨represents, same⟩ := ih earlier near
          constructor
          · rw [line_after_append_switch, actionOf, state_after_switch_source]
            exact represents_switch_source wellFormed represents tsJump
          · rw [actionOf, outputs_append_switch_source]
            exact same
      | item number pkt =>
          rw [positions_append_item] at near ⊢
          obtain ⟨represents, same⟩ := ih earlier (near_of_append near)
          obtain ⟨accepted, congruent⟩ := genuine (.item number pkt) (by simp)
          have start : (stateAfter fwd (history.map actionOf)).startSeq = fwd.startSeq :=
            (config_after fwd _).2.2.1
          obtain ⟨output, answered, forwards⟩ :=
            (stateAfter fwd (history.map actionOf)).forward_accepted accepted
          have close : ∀ furthest ∈ (lineAfter fwd.startSeq history).furthest,
              2 * (positionAfter fwd.startSeq history number - furthest).natAbs < 2 ^ 16 := by
            rw [line_furthest]
            exact fun furthest found => near_last near found
          have landed := represents_position represents congruent forwards
          have next := represents_forward wellFormed represents congruent forwards
          rw [start] at landed next
          constructor
          · rw [line_after_append_item, actionOf, state_after_forward]
            exact next close
          · rw [actionOf, outputs_append_forward, answer, answered, List.map_append, same]
            simp [landed, positionAfter]

/-- As long as the positions span less than a cycle, an output number repeats exactly when a
packet older than the first of its source meets a position of an earlier one. -/
theorem output_numbers_distinct_iff {randomSeq : Fin 0x10000} {randomTs : Fin 0xFFFFFFFF}
    {opts : ForwarderOptions} (created : initForwarder randomSeq randomTs opts = .ok fwd)
    {history : List Input} (genuine : ∀ input ∈ history, IsGenuine input)
    (distinct : DistinctPerSource history)
    (near : Near (2 ^ 16) id (positions fwd.startSeq history))
    (span : ∀ first ∈ positions fwd.startSeq history, ∀ second ∈ positions fwd.startSeq history,
      first - second < 2 ^ 16) :
    ((outputs fwd (history.map actionOf)).map seqOf).Nodup ↔
      ¬ LateMeetsEarlier fwd.startSeq history := by
  rw [(forwarder_renumbers (init_fresh created) genuine near).2, ← positions_nodup_iff distinct]
  constructor
  · exact List.Nodup.of_map _
  · intro nodup
    apply nodup.map_on
    intro first firstMember second secondMember same
    have congruent : first ≡ second [ZMOD 2 ^ 16] :=
      ((wrap_unsigned_mod_eq 16 first).symm.trans (by rw [same])).trans
        (wrap_unsigned_mod_eq 16 second)
    have above := span first firstMember second secondMember
    have below := span second secondMember first firstMember
    obtain ⟨turns, difference⟩ := congruent.dvd
    omega

def bareItem (number : Nat) : Input := .item number (barePacket number 0)

def reordered : List Input :=
  [bareItem 1, bareItem 3, bareItem 2, .switch (some 3000), bareItem 100, bareItem 102,
    bareItem 101]

theorem output_numbers_distinct_iff_over_wrap :
    ¬ LateMeetsEarlier (bareForwarder 65534).startSeq reordered ∧
      ((outputs (bareForwarder 65534) (reordered.map actionOf)).map seqOf).Nodup := by
  have distinct : DistinctPerSource reordered := distinct_per_source_of_nodup (by decide)
  have apart : ¬ LateMeetsEarlier (bareForwarder 65534).startSeq reordered :=
    (positions_nodup_iff distinct).mp (by decide)
  exact ⟨apart, (output_numbers_distinct_iff
    (show initForwarder 65534 6 ⟨some 9, some 96, none, none⟩ = .ok (bareForwarder 65534) from rfl)
    (by decide +kernel) distinct (by unfold Near; decide) (by decide)).mpr apart⟩

/-- A new source whose second packet overtakes its first. -/
def overtaken : List Input :=
  [bareItem 1, bareItem 2, bareItem 3, .switch (some 3000), bareItem 101, bareItem 100]

/-- One source in order with three gaps of at most 32767, once around the cycle. -/
def wideGaps : List Input := [bareItem 0, bareItem 32767, bareItem 65534, bareItem 65536]

/-- Few packets, distinct within each source, and still a number comes out twice: 101 lands
one past the last output and 100 on it; 65536 lands where 0 did. -/
theorem output_numbers_repeat :
    initForwarder 10 6 ⟨some 9, some 96, none, none⟩ = .ok (bareForwarder 10) ∧
      ((∀ input ∈ overtaken, IsGenuine input) ∧ DistinctPerSource overtaken ∧
        overtaken.length < 2 ^ 15 ∧
        ¬ ((outputs (bareForwarder 10) (overtaken.map actionOf)).map seqOf).Nodup) ∧
      (∀ input ∈ wideGaps, IsGenuine input) ∧ DistinctPerSource wideGaps ∧
        wideGaps.length < 2 ^ 15 ∧
        ¬ ((outputs (bareForwarder 10) (wideGaps.map actionOf)).map seqOf).Nodup := by
  refine ⟨rfl, ⟨?_, ?_, ?_, ?_⟩, ?_, ?_, ?_, ?_⟩
  · decide +kernel
  · exact distinct_per_source_of_nodup (by decide)
  · decide
  · decide +kernel
  · decide +kernel
  · exact distinct_per_source_of_nodup (by decide)
  · decide
  · decide +kernel

end RtpPacket.Forward
