import RtpPacket.Receive.Drain

/-!
# What the packets carry

The buffer reads the numbers of its packets and never what they carry. With other payloads
it stores, drops and emits the same packets at the same times.
-/

namespace RtpPacket.Receive

open Run

set_option autoImplicit false

variable {Payload Other : Type} (relabel : Payload → Other)

def Packet.map (pkt : Packet Payload) : Packet Other := ⟨pkt.sequenceNumber, relabel pkt.payload⟩

def Entry.map (entry : Entry Payload) : Entry Other := ⟨entry.pkt.map relabel, entry.insertTime⟩

def Event.map : Event Payload → Event Other
  | .packet pkt => .packet (pkt.map relabel)
  | .loss seq => .loss seq
  | .gap start stop length => .gap start stop length
  | .resync seq => .resync seq

def Action.map : Action Payload → Action Other
  | .push pkt now later => .push (pkt.map relabel) now later
  | .flush now => .flush now

def mapBuffer (buffer : AList fun _ : Nat => Entry Payload) : AList fun _ : Nat => Entry Other :=
  ⟨buffer.entries.map (.map id fun _ => Entry.map relabel), buffer.nodupKeys.map₂ _ _⟩

theorem map_buffer_keys (buffer : AList fun _ : Nat => Entry Payload) :
    (mapBuffer relabel buffer).keys = buffer.keys :=
  List.map₂_keys _ _

theorem map_buffer_lookup (buffer : AList fun _ : Nat => Entry Payload) (key : Nat) :
    (mapBuffer relabel buffer).lookup key = (buffer.lookup key).map (Entry.map relabel) :=
  List.dlookup_map₂ key

theorem map_buffer_erase (buffer : AList fun _ : Nat => Entry Payload) (key : Nat) :
    mapBuffer relabel (buffer.erase key) = (mapBuffer relabel buffer).erase key := by
  apply AList.ext
  change (List.kerase key buffer.entries).map _ = List.kerase key (buffer.entries.map _)
  rw [List.kerase, List.kerase, List.eraseP_map]
  rfl

theorem map_buffer_insert (buffer : AList fun _ : Nat => Entry Payload) (key : Nat)
    (entry : Entry Payload) :
    mapBuffer relabel (buffer.insert key entry) =
      (mapBuffer relabel buffer).insert key (entry.map relabel) := by
  apply AList.ext
  have erased := congrArg AList.entries (map_buffer_erase relabel buffer key)
  change _ :: (List.kerase key buffer.entries).map _ =
    _ :: List.kerase key (buffer.entries.map _)
  exact congrArg _ erased

namespace JitterBuffer

variable {relabel} (jb : JitterBuffer Payload)

variable (relabel) in
def map : JitterBuffer Other where
  latency := jb.latency
  maxSize := jb.maxSize
  buffer := mapBuffer relabel jb.buffer
  count := jb.count
  nextSeq := jb.nextSeq
  oldStreak := jb.oldStreak
  emittedAny := jb.emittedAny
  rttMs := jb.rttMs
  rttSafetyMs := jb.rttSafetyMs

variable (relabel) in
def mapResult (result : JitterBuffer Payload × List (Event Payload)) :
    JitterBuffer Other × List (Event Other) :=
  (result.1.map relabel, result.2.map (Event.map relabel))

theorem map_lookup (key : Nat) :
    (jb.map relabel).buffer.lookup key = (jb.buffer.lookup key).map (Entry.map relabel) :=
  map_buffer_lookup relabel jb.buffer key

theorem map_find_earliest (next : Nat) :
    (jb.map relabel).findEarliest next = jb.findEarliest next := by
  rw [findEarliest, map, map_buffer_keys, findEarliest]

theorem map_find_next_available (next : Nat) :
    (jb.map relabel).findNextAvailable next = jb.findNextAvailable next := by
  have stored (key : Nat) : ((jb.map relabel).buffer.lookup key).map
      (fun entry => (key, entry.insertTime)) =
        (jb.buffer.lookup key).map fun entry => (key, entry.insertTime) := by
    rw [map_lookup, Option.map_map]
    rfl
  rw [findNextAvailable, findNextAvailable, map_find_earliest]
  simp only [stored]
  rfl

theorem map_gap_events (next gapEnd : Nat) :
    (gapEvents next gapEnd).map (Event.map relabel) = gapEvents next gapEnd := by
  simp only [gapEvents]
  split_ifs <;> simp [Event.map, Function.comp_def]

theorem map_emit (next : Nat) : (jb.emit next).map relabel = (jb.map relabel).emit next := by
  simp only [emit, map, map_buffer_erase]

theorem map_turn (now : Rat) :
    (jb.map relabel).turn now = (jb.turn now).map fun taken =>
      ⟨taken.state.map relabel, taken.events.map (Event.map relabel), taken.emitted⟩ := by
  cases started : jb.nextSeq with
  | none =>
      have same : (jb.map relabel).nextSeq = none := started
      simp only [turn, started, same, Option.map_none]
  | some next =>
      have same : (jb.map relabel).nextSeq = some next := started
      have latency : (jb.map relabel).effectiveLatency = jb.effectiveLatency := rfl
      simp only [turn, started, same, map_lookup, map_find_next_available, latency]
      cases jb.buffer.lookup next with
      | some entry => simp [map_emit, Event.map, Entry.map]
      | none =>
          cases jb.findNextAvailable next with
          | none => rfl
          | some found =>
              simp only [Option.map_none]
              split_ifs
              · simp [declareGapAndSkip, map_gap_events, map]
              · rfl

theorem map_flush_loop (now : Rat) (maxEmit emitted : Nat) :
    (jb.map relabel).flushLoop now maxEmit emitted =
      mapResult relabel (jb.flushLoop now maxEmit emitted) := by
  fun_induction flushLoop now maxEmit emitted jb with
  | case1 emitted jb budget stopped =>
      rw [flushLoop, if_pos budget]
      split
      · rfl
      · next turned => simp [map_turn, stopped] at turned
  | case2 emitted jb budget taken turned later ih =>
      rw [flushLoop, if_pos budget]
      split
      · next stopped => simp [map_turn, turned] at stopped
      · next same =>
          rw [map_turn, turned] at same
          cases same
          simp only [ih, mapResult, List.map_append]
          rfl
  | case3 emitted jb spent =>
      rw [flushLoop, if_neg spent]
      rfl

theorem map_flush (now : Rat) :
    (jb.map relabel).flush now = mapResult relabel (jb.flush now) :=
  map_flush_loop jb now _ 0

theorem map_force_advance (next : Nat) (now : Rat) :
    (jb.map relabel).forceAdvance next now = mapResult relabel (jb.forceAdvance next now) := by
  simp only [forceAdvance, map_find_earliest]
  cases jb.findEarliest next with
  | none => rfl
  | some earliest =>
      have flushed := @map_flush _ _ relabel (jb.declareGapAndSkip next earliest).1 now
      have skipped : ((jb.map relabel).declareGapAndSkip next earliest).1 =
          (jb.declareGapAndSkip next earliest).1.map relabel := rfl
      simp only [skipped, flushed, mapResult, List.map_append]
      simp only [declareGapAndSkip, map_gap_events]

theorem map_insert (seq : Nat) (pkt : Packet Payload) (now : Rat) :
    (jb.insert seq pkt now).map relabel = (jb.map relabel).insert seq (pkt.map relabel) now := by
  simp only [insert, map_lookup, Option.isNone_map]
  simp only [map, map_buffer_insert]
  rfl

theorem map_store (next seq : Nat) (pkt : Packet Payload) (now later : Rat) :
    (jb.map relabel).store next seq (pkt.map relabel) now later =
      mapResult relabel (jb.store next seq pkt now later) := by
  simp only [store, ← map_insert, map_force_advance]
  change (if (jb.insert seq pkt now).count > (jb.insert seq pkt now).maxSize then _ else _) = _
  split_ifs <;> rfl

theorem map_push (pkt : Packet Payload) (now later : Rat) :
    (jb.map relabel).push (pkt.map relabel) now later =
      mapResult relabel (jb.push pkt now later) := by
  have key : (pkt.map relabel).key = pkt.key := rfl
  have resynced : (jb.map relabel).resyncTo pkt.key = (jb.resyncTo pkt.key).map relabel := rfl
  have moved (next : Nat) (streak : Nat) :
      { jb.map relabel with nextSeq := some next, oldStreak := streak } =
        { jb with nextSeq := some next, oldStreak := streak }.map relabel := rfl
  simp only [push, key, resynced, moved, map_store, apply_ite (mapResult relabel)]
  rfl

end JitterBuffer

theorem map_step (jb : JitterBuffer Payload) (action : Action Payload) :
    step (jb.map relabel) (action.map relabel) = JitterBuffer.mapResult relabel (step jb action) := by
  cases action with
  | push pkt now later => exact jb.map_push pkt now later
  | flush now => exact jb.map_flush now

theorem map_payloads (events : List (Event Payload)) :
    payloads (events.map (Event.map relabel)) = (payloads events).map relabel := by
  induction events with
  | nil => rfl
  | cons event rest ih =>
      have first : (event.map relabel).payload = event.payload.map relabel := by
        cases event <;> rfl
      simp only [payloads, List.map_cons, List.flatMap_cons, List.map_append, first] at ih ⊢
      rw [ih]

theorem map_arrived (actions : List (Action Payload)) :
    arrived (actions.map (Action.map relabel)) = (arrived actions).map relabel := by
  induction actions with
  | nil => rfl
  | cons action rest ih =>
      have first : (action.map relabel).payload = action.payload.map relabel := by
        cases action <;> rfl
      simp only [arrived, List.map_cons, List.flatMap_cons, List.map_append, first] at ih ⊢
      rw [ih]

namespace Playback

def map (self : Playback Payload) : Playback Other :=
  ⟨self.jb.map relabel, self.played.map relabel⟩

theorem map_step (self : Playback Payload) (action : Action Payload) :
    (self.map relabel).step (action.map relabel) =
      ((self.step action).1.map relabel, (self.step action).2.map (Event.map relabel)) := by
  have stepped := Receive.map_step relabel self.jb action
  simp only [step, map, stepped, JitterBuffer.mapResult, map_payloads, List.map_append]

theorem map_run (self : Playback Payload) (actions : List (Action Payload)) :
    run step (self.map relabel) (actions.map (Action.map relabel)) =
      ((run step self actions).1.map relabel,
        (run step self actions).2.map (Event.map relabel)) := by
  induction actions generalizing self with
  | nil => rfl
  | cons action rest ih =>
      simp only [List.map_cons, run, map_step, ih, List.map_append]

theorem map_timely (place : Other → Nat) (self : Playback Payload) (action : Action Payload) :
    (self.map relabel).Timely place (action.map relabel) ↔
      self.Timely (place ∘ relabel) action := by
  cases action with
  | flush now => exact Iff.rfl
  | push pkt now later =>
      simp only [Timely, Action.map, map, JitterBuffer.map, mapBuffer, Packet.map,
        List.forall_mem_map, List.getLast?_map, Option.mem_def, Option.map_eq_some_iff,
        forall_exists_index, and_imp, forall_apply_eq_imp_iff₂]
      rfl

theorem map_always_timely (place : Other → Nat) (self : Playback Payload)
    (actions : List (Action Payload)) :
    Always step (Timely place) (self.map relabel) (actions.map (Action.map relabel)) ↔
      Always step (Timely (place ∘ relabel)) self actions := by
  induction actions generalizing self with
  | nil => exact Iff.rfl
  | cons action rest ih =>
      simp only [List.map_cons, Always, map_timely, map_step, ih]

end Playback

end RtpPacket.Receive
