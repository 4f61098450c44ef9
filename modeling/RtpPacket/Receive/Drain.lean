import RtpPacket.Receive.Playback
import RtpPacket.Receive.Search

/-!
# What has arrived is played

A flush that is late enough for all that is stored leaves nothing behind. Until then what
arrived stays in sight: something stored or played is at least as far along. So after such a
flush a packet that arrived was played, unless its place was given up before it came.
-/

namespace RtpPacket.Receive

open SerialNumber JitterBuffer Run

set_option autoImplicit false

variable {Payload : Type} {place : Payload → Nat}

structure Waited (latency now : Rat) (jb : JitterBuffer Payload) : Prop where
  latency_eq : jb.effectiveLatency = latency
  waited : ∀ key entry, jb.buffer.lookup key = some entry → entry.insertTime + latency ≤ now

namespace JitterBuffer

variable {jb : JitterBuffer Payload} {latency now : Rat}

theorem emit_waited (waited : Waited latency now jb) (next : Nat) :
    Waited latency now (jb.emit next) where
  latency_eq := waited.latency_eq
  waited key entry found := by
    by_cases same : key = next
    · rw [same, emit, AList.lookup_erase] at found
      cases found
    · rw [emit, AList.lookup_erase_ne same] at found
      exact waited.waited key entry found

theorem move_waited (waited : Waited latency now jb) (next : Option Nat) (streak : Nat) :
    Waited latency now { jb with nextSeq := next, oldStreak := streak } :=
  ⟨waited.latency_eq, waited.waited⟩

theorem skip_waited (waited : Waited latency now jb) (next gapEnd : Nat) :
    Waited latency now (jb.declareGapAndSkip next gapEnd).1 :=
  ⟨waited.latency_eq, waited.waited⟩

theorem turn_waited (waited : Waited latency now jb) {current : Rat} {taken : Turn Payload}
    (turned : jb.turn current = some taken) : Waited latency now taken.state := by
  cases turn_cases turned with
  | emit started stored => exact emit_waited waited _
  | @skip next found started missing available ready => exact skip_waited waited next found.1

theorem flush_loop_waited (waited : Waited latency now jb) (current : Rat)
    (maxEmit emitted : Nat) : Waited latency now (jb.flushLoop current maxEmit emitted).1 := by
  fun_induction flushLoop current maxEmit emitted jb with
  | case1 emitted jb budget stopped => exact waited
  | case2 emitted jb budget taken turned later ih => exact ih (turn_waited waited turned)
  | case3 emitted jb spent => exact waited

theorem store_waited (waited : Waited latency now jb) (next seq : Nat) (pkt : Packet Payload)
    {arrival : Rat} (early : arrival + latency ≤ now) (later : Rat) :
    Waited latency now (jb.store next seq pkt arrival later).1 := by
  have inserted : Waited latency now (jb.insert seq pkt arrival) := by
    refine ⟨waited.latency_eq, fun key entry found => ?_⟩
    by_cases same : key = seq
    · rw [same, insert, AList.lookup_insert] at found
      cases found
      exact early
    · rw [insert, AList.lookup_insert_ne same] at found
      exact waited.waited key entry found
  rw [store]
  split
  · rw [forceAdvance]
    split
    · exact inserted
    · exact flush_loop_waited (skip_waited inserted next _) later _ 0
  · exact inserted

theorem push_waited (waited : Waited latency now jb) (pkt : Packet Payload) {arrival : Rat}
    (early : arrival + latency ≤ now) (later : Rat) :
    Waited latency now (jb.push pkt arrival later).1 := by
  have cleared : Waited latency now (jb.resyncTo pkt.key) := by
    refine ⟨waited.latency_eq, fun key entry found => ?_⟩
    rw [resyncTo, AList.lookup_empty] at found
    cases found
  simp only [push]
  split_ifs
  · exact store_waited cleared _ _ pkt early later
  · exact move_waited waited _ _
  · exact move_waited waited _ _
  · exact store_waited (move_waited waited _ _) _ _ pkt early later
  · exact store_waited (move_waited waited _ _) _ _ pkt early later

theorem turn_of_waited (wellFormed : jb.WellFormed) {next : Nat} (started : jb.nextSeq = some next)
    (waited : Waited latency now jb) (stopped : jb.turn now = none) : jb.buffer.keys = [] := by
  simp only [turn, started] at stopped
  split at stopped
  · cases stopped
  · next missing =>
      obtain ⟨empty, -⟩ | ⟨key, entry, found, stored, -⟩ := find_next_available_spec
        (wellFormed.next_lt next started) wellFormed (AList.lookup_eq_none.mp missing)
      · exact empty
      · have ready := waited.waited key entry stored
        rw [found] at stopped
        dsimp only at stopped
        rw [waited.latency_eq, if_pos (by linarith)] at stopped
        cases stopped

theorem flush_loop_drains (wellFormed : jb.WellFormed) (started : jb.nextSeq.isSome = true)
    (waited : Waited latency now jb) {maxEmit emitted : Nat}
    (enough : emitted + jb.count ≤ maxEmit) :
    (jb.flushLoop now maxEmit emitted).1.buffer.keys = [] := by
  fun_induction flushLoop now maxEmit emitted jb with
  | case1 emitted jb budget stopped =>
      obtain ⟨next, there⟩ := Option.isSome_iff_exists.mp started
      exact turn_of_waited wellFormed there waited stopped
  | case2 emitted jb budget taken turned later ih =>
      have keeps := turn_keeps wellFormed turned
      have count := keeps.count wellFormed
      refine ih keeps.toWellFormed ?_ (turn_waited waited turned) ?_
      · cases turn_cases turned with
        | emit _ _ => rfl
        | skip _ _ _ _ => rfl
      · cases turn_cases turned with
        | emit _ _ =>
            simp only [playedOut, List.filterMap_cons, Event.packet?, List.filterMap_nil,
              List.length_singleton] at count ⊢
            omega
        | skip _ _ _ _ =>
            simp only [declareGapAndSkip, played_out_gap, List.length_nil] at count ⊢
            omega
  | case3 emitted jb spent =>
      apply List.eq_nil_of_length_eq_zero
      rw [← wellFormed.count_eq]
      omega

end JitterBuffer

theorem payloads_played_out (events : List (Event Payload)) :
    payloads events = (playedOut events).map (·.payload) := by
  induction events with
  | nil => rfl
  | cons event rest ih =>
      rw [payloads, List.flatMap_cons, ← payloads, ih, playedOut, playedOut]
      cases event with
      | packet pkt => rfl
      | loss seq => rfl
      | gap start stop length => rfl
      | resync seq => rfl

namespace Playback

variable {self : Playback Payload} {events : List (Event Payload)}

def seen (self : Playback Payload) : List Payload := self.played ++ self.jb.held.map (·.payload)

def Reached (place : Payload → Nat) (self : Playback Payload) (payload : Payload) : Prop :=
  ∃ other ∈ self.seen, place payload ≤ place other

theorem Reached.of_subset {after : Playback Payload} {payload : Payload}
    (reached : self.Reached place payload) (subset : self.seen ⊆ after.seen) :
    after.Reached place payload := by
  obtain ⟨other, member, further⟩ := reached
  exact ⟨other, subset member, further⟩

theorem seen_of_keeps {jb : JitterBuffer Payload}
    {result : JitterBuffer Payload × List (Event Payload)} (keeps : Keeps jb result)
    (played : List Payload) :
    (⟨jb, played⟩ : Playback Payload).seen ⊆ (⟨result.1, played ++ payloads result.2⟩ :
      Playback Payload).seen := by
  intro payload member
  rw [seen, payloads_played_out, List.append_assoc, ← List.map_append]
  cases List.mem_append.mp member with
  | inl old => exact List.mem_append_left _ old
  | inr stored => exact List.mem_append_right _ ((keeps.keeps.map _).symm.subset stored)

/-- A push stores the packet and settles, unless the cursor is past it. -/
theorem push_stores {jb : JitterBuffer Payload} (wellFormed : jb.WellFormed)
    (pkt : Packet Payload) (now later : Rat)
    (noResync : ∀ seq, Event.resync seq ∉ (jb.push pkt now later).2) :
    (0 < seqDiff (jb.nextSeq.getD pkt.key) pkt.key ∧ ∃ streak, jb.push pkt now later =
      ({ jb with nextSeq := some (jb.nextSeq.getD pkt.key), oldStreak := streak }, [])) ∨
    ∃ next < 0x10000, jb.push pkt now later =
      ({ jb with nextSeq := some next, oldStreak := 0 }.insert pkt.key pkt now).settle next
        later := by
  have keyBound : pkt.key < 0x10000 := Nat.mod_lt _ (by decide)
  have bound : jb.nextSeq.getD pkt.key < 0x10000 := by
    cases started : jb.nextSeq with
    | none => exact keyBound
    | some next => exact wellFormed.next_lt next started
  simp only [push] at noResync ⊢
  split_ifs at noResync ⊢ with old sustained late played
  · exact absurd List.mem_cons_self (noResync pkt.key)
  · exact .inl ⟨by omega, _, rfl⟩
  · exact .inl ⟨by omega, _, rfl⟩
  · exact .inr ⟨_, keyBound, rfl⟩
  · exact .inr ⟨_, bound, rfl⟩

theorem settle_keeps {full : JitterBuffer Payload} (wellFormed : full.WellFormed) (next : Nat)
    (later : Rat) : Keeps full (full.settle next later) := by
  rw [settle]
  split
  · next excess =>
      exact (force_advance_plays wellFormed (Nat.zero_lt_of_lt excess).ne' next later).1
  · exact .refl wellFormed

theorem mem_held {jb : JitterBuffer Payload} {payload : Payload} :
    payload ∈ jb.held.map (·.payload) ↔
      ∃ key entry, jb.buffer.lookup key = some entry ∧ entry.pkt.payload = payload := by
  rw [held, List.map_map]
  constructor
  · intro member
    obtain ⟨⟨key, entry⟩, stored, same⟩ := List.mem_map.mp member
    exact ⟨key, entry, AList.mem_lookup_iff.mpr stored, same⟩
  · rintro ⟨key, entry, found, same⟩
    exact List.mem_map.mpr ⟨⟨key, entry⟩, AList.mem_lookup_iff.mp found, same⟩

theorem insert_reached {jb : JitterBuffer Payload} {played : List Payload}
    (own : ∀ key entry, jb.buffer.lookup key = some entry →
      place entry.pkt.payload % 0x10000 = key)
    {pkt : Packet Payload} (numbered : pkt.key = place pkt.payload % 0x10000)
    (close : ∀ entry ∈ jb.buffer.entries, Close (place entry.2.pkt.payload) (place pkt.payload))
    (now : Rat) {payload : Payload}
    (reached : (⟨jb, played⟩ : Playback Payload).Reached place payload) :
    (⟨jb.insert pkt.key pkt now, played⟩ : Playback Payload).Reached place payload := by
  obtain ⟨other, member, further⟩ := reached
  cases List.mem_append.mp member with
  | inl old => exact ⟨other, List.mem_append_left _ old, further⟩
  | inr stored =>
      obtain ⟨key, entry, found, rfl⟩ := mem_held.mp stored
      by_cases same : key = pkt.key
      · have here : (jb.insert pkt.key pkt now).buffer.lookup pkt.key = some ⟨pkt, now⟩ :=
          AList.lookup_insert _
        refine ⟨pkt.payload, List.mem_append_right _ (mem_held.mpr ⟨_, _, here, rfl⟩), ?_⟩
        have slot := own key entry found
        have near : Close (place entry.pkt.payload) (place pkt.payload) :=
          close _ (AList.mem_lookup_iff.mp found)
        rw [Close] at near
        omega
      · have still : (jb.insert pkt.key pkt now).buffer.lookup key = some entry := by
          rw [JitterBuffer.insert, AList.lookup_insert_ne same, found]
        exact ⟨_, List.mem_append_right _ (mem_held.mpr ⟨_, _, still, rfl⟩), further⟩

theorem playing_well_formed {jb : JitterBuffer Payload} (playing : Playing jb events) :
    jb.WellFormed := by
  cases playing with
  | fresh started empty count quiet silent =>
      constructor
      · simp [empty]
      · simp [started]
      · simp [empty, count]
      · simp [empty]
  | ordered next ordered _ _ _ => exact ordered.toWellFormed

theorem Follows.own (follows : self.Follows place events) (playing : Playing self.jb events)
    (key : Nat) (entry : Entry Payload) (found : self.jb.buffer.lookup key = some entry) :
    place entry.pkt.payload % 0x10000 = key := by
  have bound := (playing_well_formed playing).key_lt key
    (AList.lookup_isSome.mp (by rw [found]; rfl))
  cases follows with
  | fresh started _ _ =>
      cases playing with
      | fresh _ empty _ _ _ =>
          rw [empty, AList.lookup_empty] at found
          cases found
      | ordered next ordered _ _ _ => cases started.symm.trans ordered.started
  | playing first placed _ =>
      rw [placed.entries key entry found, ← Nat.mod_add_mod]
      exact add_distance (Nat.mod_lt _ (by decide)) bound

/-- Behind a packet that comes too late there is one that was played or will be. -/
theorem Follows.passed (follows : self.Follows place events) {pkt : Packet Payload}
    (numbered : pkt.key = place pkt.payload % 0x10000) {now later : Rat}
    (timely : self.Timely place (.push pkt now later))
    (behind : 0 < seqDiff (self.jb.nextSeq.getD pkt.key) pkt.key) :
    self.Reached place pkt.payload := by
  cases follows with
  | fresh started _ _ =>
      have bound : pkt.key < 0x10000 := Nat.mod_lt _ (by decide)
      rw [started, Option.getD_none, seq_diff_self bound] at behind
      exact absurd behind (lt_irrefl 0)
  | playing first placed _ =>
      obtain ⟨-, early⟩ := timely.near placed
      rw [placed.started, Option.getD_some, numbered] at behind
      have past : place pkt.payload < first + (positions events).length := by
        by_contra ahead
        obtain ⟨steps, position⟩ := Nat.exists_eq_add_of_le (Nat.le_of_not_lt ahead)
        have level := seq_diff_ahead (first + (positions events).length)
          (show steps ≤ 0x7FFF by omega)
        rw [position] at behind
        omega
      cases placed.anchored with
      | inl played =>
          obtain ⟨last, member, here⟩ := played
          exact ⟨last, List.mem_append_left _ (List.mem_of_getLast? member), by omega⟩
      | inr onCursor =>
          obtain ⟨entry, found⟩ := Option.isSome_iff_exists.mp (AList.lookup_isSome.mpr onCursor)
          have here := placed.entries _ entry found
          exact ⟨_, List.mem_append_right _ (mem_held.mpr ⟨_, _, found, rfl⟩), by omega⟩

end Playback

def Action.payload : Action Payload → List Payload
  | .push pkt _ _ => [pkt.payload]
  | .flush _ => []

def arrived (actions : List (Action Payload)) : List Payload := actions.flatMap Action.payload

def Action.Early (latency now : Rat) : Action Payload → Prop
  | .push _ arrival _ => arrival + latency ≤ now
  | .flush _ => True

instance (latency now : Rat) (action : Action Payload) : Decidable (action.Early latency now) :=
  match action with
  | .push _ _ _ => inferInstanceAs (Decidable (_ ≤ _))
  | .flush _ => inferInstanceAs (Decidable True)

namespace Playback

variable {self : Playback Payload} {events : List (Event Payload)}

theorem Running.reaches (running : Running place self events) {action : Action Payload}
    (numbered : action.Numbered place) (timely : self.Timely place action)
    (noResync : ∀ seq, Event.resync seq ∉ (self.step action).2) {payload : Payload}
    (known : self.Reached place payload ∨ payload ∈ action.payload) :
    (self.step action).1.Reached place payload := by
  have wellFormed := playing_well_formed running.playing
  cases action with
  | flush now =>
      have reached := known.resolve_right List.not_mem_nil
      exact reached.of_subset (seen_of_keeps (flush_loop_keeps wellFormed now _ 0) self.played)
  | push pkt now later =>
      cases push_stores wellFormed pkt now later noResync with
      | inl dropped =>
          obtain ⟨behind, streak, pushed⟩ := dropped
          have reached : self.Reached place payload := by
            cases known with
            | inl before => exact before
            | inr here =>
                rw [List.mem_singleton.mp here]
                exact running.follows.passed numbered timely behind
          refine reached.of_subset ?_
          rw [Playback.step, Receive.step, pushed, payloads, List.flatMap_nil, List.append_nil]
          exact List.Subset.refl _
      | inr stores =>
          obtain ⟨next, bound, pushed⟩ := stores
          let moved := { self.jb with nextSeq := some next, oldStreak := 0 }
          have movedWellFormed : moved.WellFormed :=
            { wellFormed with next_lt := fun _ same => Option.some.inj same ▸ bound }
          have reached : (⟨moved.insert pkt.key pkt now, self.played⟩ :
              Playback Payload).Reached place payload := by
            cases known with
            | inl before =>
                exact insert_reached (running.follows.own running.playing) numbered timely.1 now
                  before
            | inr here =>
                have stored : (moved.insert pkt.key pkt now).buffer.lookup pkt.key =
                    some ⟨pkt, now⟩ := AList.lookup_insert _
                rw [List.mem_singleton.mp here]
                exact ⟨pkt.payload, List.mem_append_right _ (mem_held.mpr ⟨_, _, stored, rfl⟩),
                  le_rfl⟩
          refine reached.of_subset ?_
          rw [Playback.step, Receive.step, pushed]
          exact seen_of_keeps (settle_keeps (insert_well_formed movedWellFormed pkt now) next later)
            self.played

theorem Running.run_reaches (running : Running place self events)
    {actions : List (Action Payload)} (numbered : ∀ action ∈ actions, action.Numbered place)
    (timely : Always Playback.step (Timely place) self actions)
    (noResync : ∀ seq, Event.resync seq ∉ (Run.run Playback.step self actions).2)
    {payload : Payload} (known : self.Reached place payload ∨ payload ∈ arrived actions) :
    (Run.run Playback.step self actions).1.Reached place payload := by
  induction actions generalizing self events with
  | nil => exact known.resolve_right List.not_mem_nil
  | cons action rest ih =>
      obtain ⟨now, further⟩ := timely
      obtain ⟨own, others⟩ := List.forall_mem_cons.mp numbered
      simp only [Run.run, List.mem_append, not_or] at noResync ⊢
      have quiet (seq : Nat) := (noResync seq).1
      refine ih (running.step own now quiet) others further (fun seq => (noResync seq).2) ?_
      rw [arrived, List.flatMap_cons, List.mem_append, ← or_assoc] at known
      exact known.imp_left (running.reaches own now quiet)

theorem run_waited {latency now : Rat} (waited : Waited latency now self.jb)
    {actions : List (Action Payload)} (early : ∀ action ∈ actions, action.Early latency now) :
    Waited latency now (Run.run step self actions).1.jb := by
  induction actions generalizing self with
  | nil => exact waited
  | cons action rest ih =>
      obtain ⟨first, others⟩ := List.forall_mem_cons.mp early
      refine ih ?_ others
      cases action with
      | push pkt arrival later => exact push_waited waited pkt first later
      | flush current => exact flush_loop_waited waited current _ 0

theorem run_buffer (actions : List (Action Payload)) :
    (Run.run step self actions).1.jb = (Run.run Receive.step self.jb actions).1 := by
  induction actions generalizing self with
  | nil => rfl
  | cons action rest ih => exact ih

theorem played_below {cursor : Nat} (in_place : InPlace place cursor events) :
    ∀ payload ∈ payloads events, place payload < cursor + (positions events).length := by
  intro payload member
  obtain ⟨event, eventMember, own⟩ := List.mem_flatMap.mp member
  cases payload_cases event with
  | inl silent =>
      rw [silent] at own
      cases own
  | inr sounds =>
      obtain ⟨pkt, rfl⟩ := sounds
      obtain ⟨before, after, rfl⟩ := List.append_of_mem eventMember
      rw [List.mem_singleton.mp own, place_of_event in_place, positions, positions,
        List.flatMap_append, List.flatMap_cons]
      simp [Event.positions]

/-- An event that says what became of a place. -/
def Settles (place : Payload → Nat) (first : Nat) (events : List (Event Payload)) (target : Nat) :
    Prop :=
  ∃ before event after, events = before ++ event :: after ∧
    first + (positions before).length ≤ target ∧
    target < first + (positions before).length + event.positions.length ∧
    ∀ payload ∈ event.payload, place payload = target

theorem settles {first : Nat} (in_place : InPlace place first events) {target : Nat}
    (begun : first ≤ target) (reached : target < first + (positions events).length) :
    Settles place first events target := by
  induction events generalizing first with
  | nil => exact absurd (Nat.lt_of_le_of_lt begun reached) (lt_irrefl _)
  | cons event rest ih =>
      obtain ⟨here, later⟩ := in_place
      rw [positions, List.flatMap_cons, List.length_append, ← Nat.add_assoc, ← positions] at reached
      by_cases beyond : first + event.positions.length ≤ target
      · obtain ⟨before, other, after, split, low, high, own⟩ := ih later beyond reached
        refine ⟨event :: before, other, after, by rw [split, List.cons_append], ?_, ?_, own⟩
        · rw [positions, List.flatMap_cons, List.length_append, ← Nat.add_assoc]
          exact low
        · rw [positions, List.flatMap_cons, List.length_append, ← Nat.add_assoc]
          exact high
      · refine ⟨[], event, rest, rfl, begun, Nat.lt_of_not_le beyond, fun payload member => ?_⟩
        have own := here payload member
        cases payload_cases event with
        | inl silent =>
            rw [silent] at member
            cases member
        | inr sounds =>
            obtain ⟨pkt, rfl⟩ := sounds
            simp only [Event.positions, List.length_singleton] at beyond
            omega

end Playback

section Runs

variable {opts : Options} {actions : List (Action Payload)} {now : Rat}

/-- A flush after everything has waited empties the buffer. -/
theorem run_drains
    (early : ∀ action ∈ actions,
      action.Early (initJitterBuffer opts : JitterBuffer Payload).effectiveLatency now) :
    (run Playback.step (.new opts) (actions ++ [.flush now])).1.jb.buffer.keys = [] := by
  obtain ⟨roomy, idle⟩ := run_roomy opts actions
  have waited := @Playback.run_waited _ (.new opts) _ now
    ⟨rfl, fun key entry found => absurd (found.symm.trans (AList.lookup_empty key)) (by simp)⟩
    actions early
  rw [run_append]
  change ((run Playback.step (.new opts) actions).1.jb.flush now).1.buffer.keys = []
  rw [Playback.run_buffer] at waited ⊢
  change Waited _ now (run Receive.step (initJitterBuffer opts) actions).1 at waited
  change ((run Receive.step (initJitterBuffer opts) actions).1.flush now).1.buffer.keys = []
  cases started : (run Receive.step (initJitterBuffer opts) actions).1.nextSeq with
  | none =>
      rw [flush_not_started started]
      exact idle started
  | some next =>
      refine flush_loop_drains roomy.toWellFormed (by rw [started]; rfl) waited ?_
      have few := roomy.room
      rw [roomy.maxSize]
      omega

section Drained

variable (small : (initJitterBuffer opts : JitterBuffer Payload).maxSize ≤ 256)
  (numbered : ∀ action ∈ actions ++ [.flush now], action.Numbered place)
  (timely : Always Playback.step (Playback.Timely place) (.new opts) (actions ++ [.flush now]))
  (early : ∀ action ∈ actions,
    action.Early (initJitterBuffer opts : JitterBuffer Payload).effectiveLatency now)
  (noResync : ∀ seq,
    Event.resync seq ∉ (run Playback.step (.new opts) (actions ++ [.flush now])).2)

include small numbered timely early noResync

theorem played_beyond {payload : Payload} (member : payload ∈ arrived actions) :
    ∃ other ∈ (run Playback.step (.new opts) (actions ++ [.flush now])).1.played,
      place payload ≤ place other := by
  have pushed : payload ∈ arrived (actions ++ [.flush now]) := by
    rw [arrived, List.flatMap_append]
    exact List.mem_append_left _ member
  obtain ⟨other, seen, further⟩ :=
    (Playback.new_running small).run_reaches numbered timely noResync (.inr pushed)
  refine ⟨other, ?_, further⟩
  cases List.mem_append.mp seen with
  | inl played => exact played
  | inr stored =>
      obtain ⟨key, entry, found, -⟩ := Playback.mem_held.mp stored
      have kept := AList.mem_keys.mp (AList.lookup_isSome.mp (by rw [found]; rfl))
      rw [run_drains early] at kept
      cases kept

/-- After a flush that is late enough nothing is stored, what was played reaches as far as
what arrived, and each place from the first one on at which a packet arrived was played or
reported lost. -/
theorem drained_playback :
    (run Playback.step (.new opts) (actions ++ [.flush now])).1.jb.buffer.keys = [] ∧
      (∀ payload ∈ arrived actions,
        ∃ other ∈ (run Playback.step (.new opts) (actions ++ [.flush now])).1.played,
          place payload ≤ place other) ∧
      ∃ first,
        (∀ before pkt after,
          (run Playback.step (.new opts) (actions ++ [.flush now])).2 =
            before ++ .packet pkt :: after →
          place pkt.payload = first + (positions before).length) ∧
        ∀ payload ∈ arrived actions, place payload < first ∨
          Playback.Settles place first
            (run Playback.step (.new opts) (actions ++ [.flush now])).2 (place payload) := by
  obtain ⟨⟨first, in_place⟩, log⟩ := run_in_place small numbered timely noResync
  refine ⟨run_drains early, fun payload member =>
    played_beyond small numbered timely early noResync member, first, ?_, fun payload member => ?_⟩
  · intro before pkt after same
    rw [same] at in_place
    exact Playback.place_of_event in_place
  · obtain ⟨other, played, further⟩ :=
      played_beyond small numbered timely early noResync member
    rw [log] at played
    by_cases begun : first ≤ place payload
    · exact .inr (Playback.settles in_place begun
        (Nat.lt_of_le_of_lt further (Playback.played_below in_place other played)))
    · exact .inl (Nat.lt_of_not_le begun)

end Drained

theorem drained_playback_around_wrap :
    (run Playback.step (.new ⟨none, none, none, none⟩)
        (aroundWrap ++ [.flush 300])).1.jb.buffer.keys = [] ∧
      ∃ first, (∀ before pkt after,
        (run Playback.step (.new ⟨none, none, none, none⟩) (aroundWrap ++ [.flush 300])).2 =
          before ++ .packet pkt :: after → pkt.payload = first + (positions before).length) ∧
        ∀ payload ∈ [65535, 65537, 65538, 65537], payload < first ∨
          Playback.Settles id first (run Playback.step (.new ⟨none, none, none, none⟩)
            (aroundWrap ++ [.flush 300])).2 payload := by
  have events : (run Playback.step (.new ⟨none, none, none, none⟩)
      (aroundWrap ++ [.flush 300])).2 =
        [.packet ⟨65535, 65535⟩, .loss 0, .packet ⟨1, 65537⟩, .packet ⟨2, 65538⟩] := by
    decide +kernel
  obtain ⟨drained, -, accounted⟩ := @drained_playback _ id ⟨none, none, none, none⟩ aroundWrap 300
    (by decide) (by decide) (by decide +kernel) (by decide +kernel) (fun seq => by
      rw [events]
      simp)
  exact ⟨drained, accounted⟩

end Runs

end RtpPacket.Receive
