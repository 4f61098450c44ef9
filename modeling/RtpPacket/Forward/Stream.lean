import RtpPacket.Forward.RtpForwarder
import RtpPacket.Lib.Furthest

/-!
# One continuous stream

Between two switches the output keeps the input's differences. A switch continues
from the furthest packet forwarded, in whatever order the packets came: its number
is known up to the wrap only, so that packet is named through extended numbers of
the outputs, each less than half the cycle from the furthest one before it.
-/

namespace RtpPacket.Forward

open ByteCodec Word Run Furthest RtpForwarder

set_option autoImplicit false

def stateAfter (fwd : RtpForwarder) (actions : List Action) : RtpForwarder :=
  (run step fwd actions).1

def outputs (fwd : RtpForwarder) (actions : List Action) : List Bytes :=
  (run step fwd actions).2

def answer (fwd : RtpForwarder) (before : List Action) (pkt : Bytes) : Option Bytes :=
  ((stateAfter fwd before).forward pkt).2

def Action.IsForward : Action → Prop
  | .forward _ => True
  | .switchSource _ => False

variable {fwd : RtpForwarder}

theorem state_after_append (before after : List Action) :
    stateAfter fwd (before ++ after) = stateAfter (stateAfter fwd before) after := by
  rw [stateAfter, run_append]
  rfl

theorem state_after_forward (before : List Action) (pkt : Bytes) :
    stateAfter fwd (before ++ [.forward pkt]) = ((stateAfter fwd before).forward pkt).1 := by
  rw [state_after_append]
  rfl

theorem state_after_switch_source (before : List Action) (tsJump : Option Int) :
    stateAfter fwd (before ++ [.switchSource tsJump]) =
      (stateAfter fwd before).switchSource tsJump := by
  rw [state_after_append]
  rfl

theorem outputs_append_forward (before : List Action) (pkt : Bytes) :
    outputs fwd (before ++ [.forward pkt]) =
      outputs fwd before ++ (answer fwd before pkt).toList := by
  rw [outputs, run_append]
  simp [run, step, answer, stateAfter, outputs]

theorem outputs_append_switch_source (before : List Action) (tsJump : Option Int) :
    outputs fwd (before ++ [.switchSource tsJump]) = outputs fwd before := by
  rw [outputs, run_append]
  exact List.append_nil _

theorem config_after (fwd : RtpForwarder) (actions : List Action) :
    (stateAfter fwd actions).ssrc = fwd.ssrc ∧ (stateAfter fwd actions).pt = fwd.pt ∧
      (stateAfter fwd actions).startSeq = fwd.startSeq ∧
      (stateAfter fwd actions).forwarded = fwd.forwarded + (outputs fwd actions).length := by
  induction actions using List.reverseRecOn with
  | nil => exact ⟨rfl, rfl, rfl, rfl⟩
  | append_singleton before last ih =>
      obtain ⟨ssrc, pt, startSeq, forwarded⟩ := ih
      cases last with
      | switchSource tsJump =>
          have kept := (stateAfter fwd before).switch_source_keeps tsJump
          rw [state_after_switch_source, outputs_append_switch_source]
          exact ⟨kept.ssrc.trans ssrc, kept.pt.trans pt, kept.start_seq.trans startSeq,
            kept.forwarded.trans forwarded⟩
      | forward pkt =>
          rw [state_after_forward, outputs_append_forward, answer]
          by_cases accepted : Accepted pkt
          · obtain ⟨output, answered, forwards⟩ :=
              (stateAfter fwd before).forward_accepted accepted
            have kept := (stateAfter fwd before).rebase_keeps (seqOf pkt) (tsOf pkt)
            rw [forwards.next, answered]
            refine ⟨kept.ssrc.trans ssrc, kept.pt.trans pt, kept.start_seq.trans startSeq, ?_⟩
            rw [Option.toList_some, List.length_append, List.length_singleton, ← Nat.add_assoc,
              ← forwarded, ← kept.forwarded]
            rfl
          · rw [forward_refused _ accepted, Option.toList_none, List.append_nil]
            exact ⟨ssrc, pt, startSeq, forwarded⟩

theorem well_formed_after (wellFormed : fwd.WellFormed) (before : List Action) :
    (stateAfter fwd before).WellFormed := by
  induction before using List.reverseRecOn with
  | nil => exact wellFormed
  | append_singleton before last ih =>
      cases last with
      | switchSource tsJump =>
          rw [state_after_switch_source]
          exact switch_source_well_formed ih tsJump
      | forward pkt =>
          rw [state_after_forward]
          exact forward_well_formed ih pkt

/-- The offsets in force, with no switch pending. -/
structure Settled (fwd : RtpForwarder) (seqOffset tsOffset : Option Int) : Prop where
  seq_offset : fwd.seqOffset = seqOffset
  ts_offset : fwd.tsOffset = tsOffset
  started : fwd.seqOffset.isSome = true
  settled : fwd.pendingSwitch = false

theorem Settled.rebase {seqOffset tsOffset : Option Int} (settled : Settled fwd seqOffset tsOffset)
    (inSeq inTs : Nat) : fwd.rebase inSeq inTs = fwd :=
  rebase_kept settled.started settled.settled inSeq inTs

theorem settled_after {seqOffset tsOffset : Option Int} (settled : Settled fwd seqOffset tsOffset)
    {between : List Action} (forwards : ∀ action ∈ between, action.IsForward) :
    Settled (stateAfter fwd between) seqOffset tsOffset := by
  induction between using List.reverseRecOn with
  | nil => exact settled
  | append_singleton between last ih =>
      have before := ih fun action member => forwards action (List.mem_append_left _ member)
      cases last with
      | switchSource tsJump => cases forwards (.switchSource tsJump) (by simp)
      | forward pkt =>
          rw [state_after_forward]
          by_cases accepted : Accepted pkt
          · obtain ⟨output, -, forwards⟩ := forward_accepted (stateAfter fwd between) accepted
            rw [forwards.next, before.rebase]
            exact { before with }
          · rwa [forward_refused _ accepted]

theorem difference_kept (wellFormed : fwd.WellFormed) {before between : List Action}
    {first second firstOut secondOut : Bytes}
    (forwards : ∀ action ∈ between, action.IsForward)
    (firstAnswer : answer fwd before first = some firstOut)
    (secondAnswer : answer fwd (before ++ .forward first :: between) second = some secondOut) :
    (seqOf secondOut : Int) - seqOf firstOut ≡ seqOf second - seqOf first [ZMOD 2 ^ 16] ∧
      (tsOf secondOut : Int) - tsOf firstOut ≡ tsOf second - tsOf first [ZMOD 2 ^ 32] := by
  have firstForwards := forward_some firstAnswer
  have secondForwards := forward_some secondAnswer
  set based := (stateAfter fwd before).rebase (seqOf first) (tsOf first) with basedEq
  have settles := rebase_settles (well_formed_after wellFormed before) (seqOf first) (tsOf first)
  have anchored : Settled (stateAfter fwd (before ++ [.forward first])) based.seqOffset
      based.tsOffset := by
    rw [state_after_forward, firstForwards.next, ← basedEq]
    exact ⟨rfl, rfl, settles.1, settles.2⟩
  have kept := settled_after anchored forwards
  rw [← state_after_append, ← List.append_cons] at kept
  have seq := secondForwards.seq
  have ts := secondForwards.ts
  rw [kept.rebase] at seq ts
  rw [seq, ts, firstForwards.seq, firstForwards.ts]
  simp only [outSeq, outTs, kept.seq_offset, kept.ts_offset, ← basedEq]
  exact ⟨wrap_sub_offset_mod_eq 16 _ _ _, wrap_sub_offset_mod_eq 32 _ _ _⟩

/-- Extended numbers for the outputs: each agrees with its output's sequence number modulo
`2^16` and is at most 32767 from the furthest one before it. -/
structure Extended (numbered : List (Int × Bytes)) : Prop where
  congruent : ∀ entry ∈ numbered, (seqOf entry.2 : Int) ≡ entry.1 [ZMOD 2 ^ 16]
  near : Near (2 ^ 16) Prod.fst numbered

theorem Extended.init {numbered more : List (Int × Bytes)}
    (extended : Extended (numbered ++ more)) : Extended numbered where
  congruent entry member := extended.congruent entry (List.mem_append_left _ member)
  near := near_of_append extended.near

theorem Extended.delta {earlier : List (Int × Bytes)} {last furthest : Int × Bytes}
    (extended : Extended (earlier ++ [last])) (found : furthest ∈ earlier.argmax Prod.fst) :
    seqDelta (seqOf last.2) (seqOf furthest.2) = last.1 - furthest.1 := by
  apply signed_delta_eq (by decide)
  · exact extended.congruent last (by simp)
  · exact extended.congruent furthest (List.mem_append_left _ (List.argmax_mem found))
  · exact near_last extended.near found

/-- The cursor is at the furthest packet forwarded, not at the last one. -/
structure Tracks (fwd : RtpForwarder) (numbered : List (Int × Bytes)) : Prop where
  last_seq : fwd.lastOutSeq = (numbered.argmax Prod.fst).map fun entry => seqOf entry.2
  last_ts : fwd.lastOutTs = (numbered.argmax Prod.fst).map fun entry => tsOf entry.2

theorem Tracks.forward {earlier : List (Int × Bytes)} (tracks : Tracks fwd earlier) {number : Int}
    {pkt output : Bytes} (forwards : fwd.Forwards pkt output)
    (extended : Extended (earlier ++ [(number, output)])) :
    Tracks (fwd.forward pkt).1 (earlier ++ [(number, output)]) := by
  obtain ⟨seq, ts⟩ := tracks
  have kept := fwd.rebase_keeps (seqOf pkt) (tsOf pkt)
  rw [← kept.last_seq] at seq
  rw [← kept.last_ts] at ts
  rw [forwards.next]
  cases found : earlier.argmax Prod.fst with
  | none =>
      rw [found] at seq
      obtain ⟨newSeq, newTs⟩ := track_further (by rw [seq]; nofun)
      constructor
      · rw [newSeq, List.argmax_concat, found]
        rfl
      · rw [newTs, List.argmax_concat, found]
        rfl
  | some furthest =>
      rw [found] at seq ts
      have delta := extended.delta found
      by_cases further : furthest.1 < number
      · have ahead : ∀ last, (fwd.rebase (seqOf pkt) (tsOf pkt)).lastOutSeq = some last →
            0 < seqDelta (seqOf output) last := by
          rw [seq]
          rintro _ ⟨⟩
          rw [delta]
          exact sub_pos.mpr further
        obtain ⟨newSeq, newTs⟩ := track_further ahead
        constructor
        · rw [newSeq, List.argmax_concat, found]
          simp [further]
        · rw [newTs, List.argmax_concat, found]
          simp [further]
      · have late : ¬ 0 < seqDelta (seqOf output) (seqOf furthest.2) := by
          rw [delta]
          exact mt sub_pos.mp further
        obtain ⟨oldSeq, oldTs⟩ := track_late seq late
        constructor
        · rw [oldSeq, List.argmax_concat, found]
          simp [further]
        · rw [oldTs, ts, List.argmax_concat, found]
          simp [further]

theorem tracks_furthest (fresh : fwd.Fresh) {before : List Action} {numbered : List (Int × Bytes)}
    (same : numbered.map Prod.snd = outputs fwd before) (extended : Extended numbered) :
    Tracks (stateAfter fwd before) numbered := by
  induction before using List.reverseRecOn generalizing numbered with
  | nil =>
      rw [List.map_eq_nil_iff.mp same]
      exact ⟨fresh.last_seq, fresh.last_ts⟩
  | append_singleton before last ih =>
      cases last with
      | switchSource tsJump =>
          rw [outputs_append_switch_source] at same
          have tracks := ih same extended
          have kept := (stateAfter fwd before).switch_source_keeps tsJump
          rw [state_after_switch_source]
          exact ⟨kept.last_seq.trans tracks.last_seq, kept.last_ts.trans tracks.last_ts⟩
      | forward pkt =>
          rw [outputs_append_forward, answer] at same
          rw [state_after_forward]
          by_cases accepted : Accepted pkt
          · obtain ⟨output, answered, forwards⟩ :=
              (stateAfter fwd before).forward_accepted accepted
            rw [answered] at same
            obtain ⟨earlier, lastOut, rfl, sameEarlier, sameLast⟩ :=
              List.map_eq_append_iff.mp same
            obtain ⟨⟨number, out⟩, rfl, rfl⟩ := List.map_eq_singleton_iff.mp sameLast
            exact (ih sameEarlier extended.init).forward forwards extended
          · rw [forward_refused _ accepted] at same ⊢
            exact ih (same.trans (List.append_nil _)) extended

theorem get_state_after (fresh : fwd.Fresh) {before : List Action} {numbered : List (Int × Bytes)}
    (same : numbered.map Prod.snd = outputs fwd before) (extended : Extended numbered) :
    (stateAfter fwd before).getState =
      { ssrc := fwd.ssrc
        payloadType := fwd.pt
        forwarded := fwd.forwarded + numbered.length
        lastOutputSeq := (numbered.argmax Prod.fst).map fun entry => seqOf entry.2
        lastOutputTimestamp := (numbered.argmax Prod.fst).map fun entry => tsOf entry.2 } := by
  obtain ⟨ssrc, pt, -, forwarded⟩ := config_after fwd before
  obtain ⟨seq, ts⟩ := tracks_furthest fresh same extended
  rw [getState, ssrc, pt, forwarded, seq, ts, ← same, List.length_map]

theorem lands_after_switch (wellFormed : fwd.WellFormed) {before : List Action}
    {tsJump : Option Int} {pkt output : Bytes} {lastSeq lastTs : Nat}
    (seq : (stateAfter fwd before).lastOutSeq = some lastSeq)
    (ts : (stateAfter fwd before).lastOutTs.getD 0 = lastTs)
    (answered : answer fwd (before ++ [.switchSource tsJump]) pkt = some output) :
    seqOf output = wrapUnsigned 16 (lastSeq + 1) ∧
      tsOf output = wrapUnsigned 32 (lastTs + wrapUnsigned 32 (tsJump.getD 0)) := by
  have forwards := forward_some answered
  have wellFormed := well_formed_after wellFormed before
  have kept := (stateAfter fwd before).switch_source_keeps tsJump
  have pending := switch_source_pending (by rw [seq]; rfl) tsJump
  have started : ((stateAfter fwd before).switchSource tsJump).seqOffset.isSome = true := by
    rw [switch_source_offset, ← wellFormed.last_seq, seq]
    rfl
  have landed := rebase_pending started pending.1 (seqOf pkt) (tsOf pkt)
  rw [kept.last_seq, kept.last_ts, pending.2, seq, ts, ← state_after_switch_source] at landed
  exact ⟨forwards.seq.trans landed.1, forwards.ts.trans landed.2⟩

/-- Next to each other with no switch in between, the second is ahead of the first. -/
def Advances : Action → Action → Prop
  | .forward first, .forward second => 0 < seqDelta (seqOf second) (seqOf first)
  | _, _ => True

structure InOrder (actions : List Action) : Prop where
  accepted : ∀ pkt, Action.forward pkt ∈ actions → Accepted pkt
  advances : actions.IsChain Advances

theorem InOrder.init {actions more : List Action} (inOrder : InOrder (actions ++ more)) :
    InOrder actions where
  accepted pkt member := inOrder.accepted pkt (List.mem_append_left _ member)
  advances := inOrder.advances.left_of_append

theorem seq_delta_successor (seq : Nat) : seqDelta (wrapUnsigned 16 (seq + 1)) seq = 1 := by
  have one := signed_delta_eq (show 0 < 16 by decide) (wrap_unsigned_mod_eq 16 (seq + 1))
    (Int.ModEq.refl (seq : Int)) (by norm_num)
  rwa [add_sub_cancel_left] at one

theorem step_kept (wellFormed : fwd.WellFormed) {before : List Action}
    {first second firstOut secondOut : Bytes}
    (firstAnswer : answer fwd before first = some firstOut)
    (secondAnswer : answer fwd (before ++ [.forward first]) second = some secondOut) :
    seqDelta (seqOf secondOut) (seqOf firstOut) = seqDelta (seqOf second) (seqOf first) :=
  signed_delta_congr
    (difference_kept wellFormed (List.forall_mem_nil _) firstAnswer secondAnswer).1

theorem last_of_further {before : List Action} {pkt output : Bytes}
    (answered : answer fwd before pkt = some output)
    (further : ∀ last, (stateAfter fwd before).lastOutSeq = some last →
      0 < seqDelta (seqOf output) last) :
    (stateAfter fwd (before ++ [.forward pkt])).lastOutSeq = some (seqOf output) := by
  have forwards := forward_some answered
  have kept := (stateAfter fwd before).rebase_keeps (seqOf pkt) (tsOf pkt)
  rw [← kept.last_seq] at further
  rw [state_after_forward, forwards.next]
  exact (track_further further).1

theorem tracks_last (fresh : fwd.Fresh) {before : List Action} {pkt output : Bytes}
    (inOrder : InOrder (before ++ [.forward pkt]))
    (answered : answer fwd before pkt = some output) :
    (stateAfter fwd (before ++ [.forward pkt])).lastOutSeq = some (seqOf output) := by
  induction before using List.reverseRecOn generalizing pkt output with
  | nil =>
      apply last_of_further answered
      rw [show (stateAfter fwd []).lastOutSeq = none from fresh.last_seq]
      nofun
  | append_singleton before last ih =>
      cases last with
      | switchSource tsJump =>
          apply last_of_further answered
          intro lastSeq found
          have kept := (stateAfter fwd before).switch_source_keeps tsJump
          rw [state_after_switch_source, kept.last_seq] at found
          rw [(lands_after_switch fresh.well_formed found rfl answered).1, seq_delta_successor]
          decide
      | forward previous =>
          apply last_of_further answered
          have accepted := inOrder.accepted previous (by simp)
          obtain ⟨previousOut, previousAnswer, -⟩ :=
            (stateAfter fwd before).forward_accepted accepted
          rw [ih inOrder.init previousAnswer]
          rintro _ ⟨⟩
          rw [step_kept fresh.well_formed previousAnswer answered]
          have adjacent := inOrder.advances
          rw [List.append_assoc] at adjacent
          exact (List.isChain_cons_cons.mp adjacent.right_of_append).1

theorem last_after_switches {switches : List Action}
    (allSwitches : ∀ action ∈ switches, ¬ action.IsForward) (before : List Action) :
    (stateAfter fwd (before ++ switches)).lastOutSeq = (stateAfter fwd before).lastOutSeq := by
  induction switches using List.reverseRecOn with
  | nil => rw [List.append_nil]
  | append_singleton switches last ih =>
      cases last with
      | forward pkt => exact (allSwitches (.forward pkt) (by simp) trivial).elim
      | switchSource tsJump =>
          have kept := (stateAfter fwd (before ++ switches)).switch_source_keeps tsJump
          rw [← List.append_assoc, state_after_switch_source, kept.last_seq]
          exact ih fun action member => allSwitches action (List.mem_append_left _ member)

/-- Inputs in order come out in order: the same steps within a source, one at a switch. -/
theorem in_order_steps (fresh : fwd.Fresh) {before switches : List Action}
    {first second firstOut secondOut : Bytes}
    (allSwitches : ∀ action ∈ switches, ¬ action.IsForward)
    (inOrder : InOrder (before ++ .forward first :: switches ++ [.forward second]))
    (firstAnswer : answer fwd before first = some firstOut)
    (secondAnswer : answer fwd (before ++ .forward first :: switches) second = some secondOut) :
    seqDelta (seqOf secondOut) (seqOf firstOut) =
      if switches = [] then seqDelta (seqOf second) (seqOf first) else 1 := by
  split
  · next none =>
      subst none
      exact step_kept fresh.well_formed firstAnswer secondAnswer
  · next some =>
      obtain ⟨rest, last, rfl⟩ := List.eq_nil_or_concat' switches |>.resolve_left some
      cases last with
      | forward pkt => exact (allSwitches (.forward pkt) (by simp) trivial).elim
      | switchSource tsJump =>
          have firstInOrder : InOrder (before ++ [.forward first]) :=
            @InOrder.init _ (rest ++ [.switchSource tsJump, .forward second])
              (by simpa using inOrder)
          have restSwitches : ∀ action ∈ rest, ¬ action.IsForward :=
            fun action member => allSwitches action (List.mem_append_left _ member)
          have earlier := tracks_last fresh firstInOrder firstAnswer
          rw [← last_after_switches restSwitches] at earlier
          rw [List.append_cons, ← List.append_assoc] at secondAnswer
          rw [(lands_after_switch fresh.well_formed earlier rfl secondAnswer).1,
            seq_delta_successor]

/-- Whatever is forwarded and switched, in any order and with any wraps: a packet is copied
but for bytes 1 to 11; two packets with no switch between them keep their differences; the
first packet after a switch continues from the furthest one before it; and while the inputs
of each source advance, the output advances by the same steps, and by one at a switch. -/
theorem forwarder_continues_stream {randomSeq : Fin 0x10000} {randomTs : Fin 0xFFFFFFFF}
    {opts : ForwarderOptions} (created : initForwarder randomSeq randomTs opts = .ok fwd) :
    (∀ (before : List Action) (pkt : Bytes), Accepted pkt →
      ∃ output, answer fwd before pkt = some output ∧
        outputs fwd (before ++ [Action.forward pkt]) = outputs fwd before ++ [output] ∧
        Patched fwd pkt output) ∧
    (∀ (before between : List Action) (first second firstOut secondOut : Bytes),
      (∀ action ∈ between, action.IsForward) →
      answer fwd before first = some firstOut →
      answer fwd (before ++ Action.forward first :: between) second = some secondOut →
      (seqOf secondOut : Int) - seqOf firstOut ≡ seqOf second - seqOf first [ZMOD 2 ^ 16] ∧
        (tsOf secondOut : Int) - tsOf firstOut ≡ tsOf second - tsOf first [ZMOD 2 ^ 32]) ∧
    (∀ (before : List Action) (numbered : List (Int × Bytes)) (furthest : Int × Bytes)
      (tsJump : Option Int) (pkt output : Bytes),
      numbered.map Prod.snd = outputs fwd before → Extended numbered →
      furthest ∈ numbered.argmax Prod.fst →
      answer fwd (before ++ [Action.switchSource tsJump]) pkt = some output →
      seqOf output = wrapUnsigned 16 (seqOf furthest.2 + 1) ∧
        tsOf output = wrapUnsigned 32 (tsOf furthest.2 + wrapUnsigned 32 (tsJump.getD 0))) ∧
    (∀ (before switches : List Action) (first second firstOut secondOut : Bytes),
      (∀ action ∈ switches, ¬ action.IsForward) →
      InOrder (before ++ Action.forward first :: switches ++ [Action.forward second]) →
      answer fwd before first = some firstOut →
      answer fwd (before ++ Action.forward first :: switches) second = some secondOut →
      seqDelta (seqOf secondOut) (seqOf firstOut) =
        if switches = [] then seqDelta (seqOf second) (seqOf first) else 1) := by
  have fresh := init_fresh created
  refine ⟨?_, ?_, ?_, ?_⟩
  · intro before pkt accepted
    obtain ⟨output, answered, forwards⟩ := (stateAfter fwd before).forward_accepted accepted
    have config := config_after fwd before
    refine ⟨output, answered, ?_, { forwards.patched with
      payload_type := config.2.1 ▸ forwards.patched.payload_type
      source := config.1 ▸ forwards.patched.source }⟩
    rw [outputs_append_forward, answer, answered]
    rfl
  · intro before between first second firstOut secondOut forwards firstAnswer secondAnswer
    exact difference_kept fresh.well_formed forwards firstAnswer secondAnswer
  · intro before numbered furthest tsJump pkt output same extended found answered
    obtain ⟨seq, ts⟩ := tracks_furthest fresh same extended
    rw [found] at seq ts
    exact lands_after_switch fresh.well_formed seq (by rw [ts]; rfl) answered
  · intro before switches first second firstOut secondOut allSwitches inOrder
    exact in_order_steps fresh allSwitches inOrder

def barePacket (seq ts : Nat) : Bytes :=
  [0x80, 0xE0] ++ encodeBE 2 seq ++ encodeBE 4 ts ++ encodeBE 4 7

def bareForwarder (startSeq : Fin 0x10000) : RtpForwarder where
  ssrc := 9
  pt := 96
  seqOffset := none
  tsOffset := none
  startSeq := startSeq
  startTs := 6
  lastOutSeq := none
  lastOutTs := none
  pendingSwitch := false
  pendingTsJump := 0
  forwarded := 0
  ssrc_range := by decide
  pt_range := by decide
  start_seq_range := startSeq.isLt
  start_ts_range := by decide

/-- Source numbers 10, 12 and the late 11, which become 65534, 65536 and 65535. -/
def lateActions : List Action :=
  [.forward (barePacket 10 100), .forward (barePacket 12 300), .forward (barePacket 11 200)]

theorem late_actions_outputs : outputs (bareForwarder 65534) lateActions =
    [(bareForwarder 0).patch (barePacket 10 100) 65534 6,
      (bareForwarder 0).patch (barePacket 12 300) 0 206,
      (bareForwarder 0).patch (barePacket 11 200) 65535 106] := by
  decide +kernel

/-- The new source continues from packet 12. -/
theorem forwarder_continues_after_late_packet :
    (answer (bareForwarder 65534) (lateActions ++ [.switchSource (some 3000)])
      (barePacket 500 7)).map (fun output => (seqOf output, tsOf output)) = some (1, 3206) := by
  have stream := forwarder_continues_stream
    (show initForwarder 65534 6 ⟨some 9, some 96, none, none⟩ = .ok (bareForwarder 65534) from rfl)
  obtain ⟨output, answered, -, -⟩ := stream.1 (lateActions ++ [.switchSource (some 3000)])
    (barePacket 500 7) (by decide)
  have landed := stream.2.2.1 lateActions
    [(65534, (bareForwarder 0).patch (barePacket 10 100) 65534 6),
      (65536, (bareForwarder 0).patch (barePacket 12 300) 0 206),
      (65535, (bareForwarder 0).patch (barePacket 11 200) 65535 106)]
    (65536, (bareForwarder 0).patch (barePacket 12 300) 0 206) (some 3000) (barePacket 500 7)
    output late_actions_outputs.symm ⟨by decide, by unfold Near; decide⟩ rfl answered
  rw [answered, Option.map_some, landed.1, landed.2]
  rfl

end RtpPacket.Forward
