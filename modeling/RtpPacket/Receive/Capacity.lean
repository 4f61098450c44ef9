import RtpPacket.Receive.JitterBuffer

/-!
# Room in the jitter buffer

The count kept by hand is the number of entries, and no push leaves more than the buffer may
hold: a push that finds it full plays out the earliest packet. Nothing that is stored is
dropped for room.
-/

namespace RtpPacket.Receive

open JitterBuffer SerialNumber

set_option autoImplicit false

variable {Payload : Type}

/-- All that callers, the timer and the stream itself do to a buffer. -/
inductive Operation (Payload : Type) where
  | push (pkt : Packet Payload) (now later : Rat)
  | flush (now : Rat)
  | setLatency (ms : Option Rat)
  | setRtt (rttMs : Rat)
  | reset
  | resyncTo (seq : Fin 0x10000)

def operate (jb : JitterBuffer Payload) :
    Operation Payload → JitterBuffer Payload × List (Event Payload)
  | .push pkt now later => jb.push pkt now later
  | .flush now => jb.flush now
  | .setLatency ms => (jb.setLatency ms, [])
  | .setRtt rttMs => (jb.setRtt rttMs, [])
  | .reset => (jb.reset, [])
  | .resyncTo seq => (jb.resyncTo seq, [.resync seq])

def Event.packet? : Event Payload → Option (Packet Payload)
  | .packet pkt => some pkt
  | _ => none

def playedOut (events : List (Event Payload)) : List (Packet Payload) :=
  events.filterMap Event.packet?

namespace JitterBuffer

def held (jb : JitterBuffer Payload) : List (Packet Payload) :=
  jb.buffer.entries.map fun entry => entry.2.pkt

/-- The buffer with a packet in it and the cursor, when a push stores it. -/
def admitted (jb : JitterBuffer Payload) (pkt : Packet Payload) (now : Rat) :
    Option (JitterBuffer Payload × Nat) :=
  let seq := pkt.key
  let next := jb.nextSeq.getD seq
  let behind := seqDiff next seq
  if behind > 128 then
    if jb.oldStreak + 1 ≥ resyncThreshold then some ((jb.resyncTo seq).insert seq pkt now, seq)
    else none
  else if behind > 0 then
    if jb.emittedAny then none
    else some ({ jb with nextSeq := some seq, oldStreak := 0 }.insert seq pkt now, seq)
  else some ({ jb with nextSeq := some next, oldStreak := 0 }.insert seq pkt now, next)

/-- The earliest packet is played out first, and what is not played out is still held. -/
structure PlaysEarliest (full : JitterBuffer Payload) (next : Nat)
    (result : JitterBuffer Payload × List (Event Payload)) : Prop where
  earliest : ∃ seq entry later, full.Earliest next seq ∧ full.buffer.lookup seq = some entry ∧
    result.2 = gapEvents next seq ++ .packet entry.pkt :: later
  keeps : (playedOut result.2 ++ result.1.held).Perm full.held
  room : result.1.count ≤ full.count - 1

theorem played_out_gap (next gapEnd : Nat) :
    playedOut (gapEvents next gapEnd : List (Event Payload)) = [] := by
  apply List.filterMap_eq_nil_iff.mpr
  intro event member
  rw [gapEvents] at member
  dsimp only at member
  split_ifs at member with backwards long
  · cases member
  · rcases List.mem_append.mp member with loss | gap
    · obtain ⟨_, _, rfl⟩ := List.mem_map.mp loss
      rfl
    · rw [List.mem_singleton.mp gap]
      rfl
  · rw [List.append_nil] at member
    obtain ⟨_, _, rfl⟩ := List.mem_map.mp member
    rfl

theorem emit_held {jb : JitterBuffer Payload} {next : Nat} {entry : Entry Payload}
    (stored : jb.buffer.lookup next = some entry) :
    (entry.pkt :: (jb.emit next).held).Perm jb.held := by
  have inKeys : next ∈ jb.buffer.keys :=
    AList.mem_keys.mp (AList.lookup_isSome.mp (by rw [stored]; rfl))
  obtain ⟨other, before, after, fresh, split, erased⟩ := List.exists_of_kerase inKeys
  have same : other = entry := by
    have found : jb.buffer.lookup next = some other :=
      AList.mem_lookup_iff.mpr (by rw [split]; simp)
    exact Option.some.inj (found.symm.trans stored)
  have left : (jb.emit next).buffer.entries = before ++ after := erased
  rw [held, held, left, split, same]
  simp only [List.map_append, List.map_cons]
  exact List.perm_middle.symm

structure Keeps (jb : JitterBuffer Payload) (result : JitterBuffer Payload × List (Event Payload)) :
    Prop extends result.1.WellFormed where
  keeps : (playedOut result.2 ++ result.1.held).Perm jb.held
  maxSize : result.1.maxSize = jb.maxSize

theorem Keeps.refl {jb : JitterBuffer Payload} (wellFormed : jb.WellFormed) :
    Keeps jb (jb, []) := ⟨wellFormed, List.Perm.refl _, rfl⟩

theorem Keeps.trans {jb : JitterBuffer Payload}
    {first second : JitterBuffer Payload × List (Event Payload)} (now : Keeps jb first)
    (later : Keeps first.1 second) : Keeps jb (second.1, first.2 ++ second.2) where
  toWellFormed := later.toWellFormed
  keeps := by
    rw [playedOut, List.filterMap_append, List.append_assoc]
    exact (later.keeps.append_left _).trans now.keeps
  maxSize := later.maxSize.trans now.maxSize

theorem held_length {jb : JitterBuffer Payload} (wellFormed : jb.WellFormed) :
    jb.held.length = jb.count := by
  rw [wellFormed.count_eq, held, List.length_map]
  exact (List.length_map Sigma.fst).symm

theorem Keeps.count {jb : JitterBuffer Payload}
    {result : JitterBuffer Payload × List (Event Payload)} (keeps : Keeps jb result)
    (wellFormed : jb.WellFormed) : (playedOut result.2).length + result.1.count = jb.count := by
  have length := keeps.keeps.length_eq
  rwa [List.length_append, held_length keeps.toWellFormed, held_length wellFormed] at length

theorem skip_keeps {jb : JitterBuffer Payload} (wellFormed : jb.WellFormed) (next : Nat)
    {gapEnd : Nat} (stored : gapEnd ∈ jb.buffer) : Keeps jb (jb.declareGapAndSkip next gapEnd) where
  toWellFormed := skip_well_formed wellFormed stored
  keeps := by
    rw [declareGapAndSkip, played_out_gap, List.nil_append]
    exact List.Perm.refl _
  maxSize := rfl

theorem emit_keeps {jb : JitterBuffer Payload} (wellFormed : jb.WellFormed) {next : Nat}
    {entry : Entry Payload} (stored : jb.buffer.lookup next = some entry) :
    Keeps jb (jb.emit next, [.packet entry.pkt]) where
  toWellFormed := emit_well_formed wellFormed (AList.lookup_isSome.mp (by rw [stored]; rfl))
  keeps := emit_held stored
  maxSize := rfl

theorem turn_keeps {jb : JitterBuffer Payload} (wellFormed : jb.WellFormed) {now : Rat}
    {taken : Turn Payload} (turned : jb.turn now = some taken) :
    Keeps jb (taken.state, taken.events) := by
  cases turn_cases turned with
  | emit started stored => exact emit_keeps wellFormed stored
  | skip started missing available waited =>
      obtain ⟨entry, stored, -⟩ := find_next_available_stored available
      exact skip_keeps wellFormed _ (AList.lookup_isSome.mp (by rw [stored]; rfl))

theorem flush_loop_keeps {jb : JitterBuffer Payload} (wellFormed : jb.WellFormed) (now : Rat)
    (maxEmit emitted : Nat) : Keeps jb (jb.flushLoop now maxEmit emitted) := by
  fun_induction flushLoop now maxEmit emitted jb with
  | case1 emitted jb budget stopped => exact .refl wellFormed
  | case2 emitted jb budget taken turned later ih =>
      have now := turn_keeps wellFormed turned
      exact now.trans (ih now.toWellFormed)
  | case3 emitted jb spent => exact .refl wellFormed

/-- A forced advance always finds a packet to play out. -/
theorem force_advance_plays {full : JitterBuffer Payload} (wellFormed : full.WellFormed)
    (filled : full.count ≠ 0) (next : Nat) (now : Rat) :
    Keeps full (full.forceAdvance next now) ∧
      PlaysEarliest full next (full.forceAdvance next now) := by
  obtain ⟨earliest, found, first⟩ := exists_earliest wellFormed filled next
  obtain ⟨entry, stored⟩ := Option.isSome_iff_exists.mp (AList.lookup_isSome.mpr first.1)
  have skipped := skip_keeps wellFormed next first.1
  have flushed := flush_loop_keeps skipped.toWellFormed now
    (max 64 (full.declareGapAndSkip next earliest).1.maxSize) 0
  have advanced : full.forceAdvance next now =
      (((full.declareGapAndSkip next earliest).1.flush now).1,
        gapEvents next earliest ++ ((full.declareGapAndSkip next earliest).1.flush now).2) := by
    rw [forceAdvance, found]
    rfl
  have keeps : Keeps full (full.forceAdvance next now) := by
    rw [advanced]
    exact skipped.trans flushed
  obtain ⟨later, head⟩ : ∃ later, ((full.declareGapAndSkip next earliest).1.flush now).2 =
      .packet entry.pkt :: later := by
    rw [@flush_head _ (full.declareGapAndSkip next earliest).1 earliest entry rfl stored now]
    exact ⟨_, rfl⟩
  have events : (full.forceAdvance next now).2 =
      gapEvents next earliest ++ .packet entry.pkt :: later := by
    rw [advanced, head]
  refine ⟨keeps, ⟨earliest, entry, later, first, stored, events⟩, keeps.keeps, ?_⟩
  have count := keeps.count wellFormed
  rw [events, playedOut, List.filterMap_append, ← playedOut, played_out_gap] at count
  simp only [List.nil_append, List.filterMap_cons, Event.packet?, List.length_cons] at count
  omega

/-- A full buffer makes room, any other is left as it is. -/
def settle (full : JitterBuffer Payload) (next : Nat) (later : Rat) :
    JitterBuffer Payload × List (Event Payload) :=
  if full.count > full.maxSize then full.forceAdvance next later else (full, [])

theorem insert_count_le (jb : JitterBuffer Payload) (seq : Nat) (pkt : Packet Payload)
    (now : Rat) : (jb.insert seq pkt now).count ≤ jb.count + 1 := by
  rw [insert]
  dsimp only
  split_ifs
  · exact le_rfl
  · exact Nat.le_succ _

/-- A push either refuses the packet and changes the cursor at most, or stores it and settles. -/
theorem push_cases (jb : JitterBuffer Payload) (pkt : Packet Payload) (now later : Rat) :
    (jb.admitted pkt now = none ∧ ∃ streak, jb.push pkt now later =
      ({ jb with nextSeq := some (jb.nextSeq.getD pkt.key), oldStreak := streak }, [])) ∨
    ∃ full next before, jb.admitted pkt now = some (full, next) ∧
      jb.push pkt now later = ((full.settle next later).1, before ++ (full.settle next later).2) ∧
      (before = [] ∨ full.count = 1) := by
  simp only [push, JitterBuffer.admitted]
  split_ifs with old sustained late played
  · exact .inr ⟨_, _, [.resync pkt.key], rfl, rfl, .inr rfl⟩
  · exact .inl ⟨rfl, _, rfl⟩
  · exact .inl ⟨rfl, 0, rfl⟩
  · exact .inr ⟨_, _, [], rfl, rfl, .inl rfl⟩
  · exact .inr ⟨_, _, [], rfl, rfl, .inl rfl⟩

end JitterBuffer

structure Roomy (limit : Nat) (jb : JitterBuffer Payload) : Prop extends jb.WellFormed where
  maxSize : jb.maxSize = limit
  room : jb.count ≤ limit

namespace Roomy

variable {limit : Nat} {jb : JitterBuffer Payload}

theorem keeps (roomy : Roomy limit jb) {result : JitterBuffer Payload × List (Event Payload)}
    (kept : Keeps jb result) : Roomy limit result.1 where
  toWellFormed := kept.toWellFormed
  maxSize := kept.maxSize.trans roomy.maxSize
  room := by
    have count := kept.count roomy.toWellFormed
    have room := roomy.room
    omega

theorem resync (roomy : Roomy limit jb) {seq : Nat} (bound : seq < 0x10000) :
    Roomy limit (jb.resyncTo seq) where
  key_lt := fun key member => absurd member (AList.notMem_empty key)
  next_lt := by
    rintro next ⟨⟩
    exact bound
  count_eq := rfl
  stored_key := fun key entry found => by cases found
  maxSize := roomy.maxSize
  room := Nat.zero_le _

theorem moved (roomy : Roomy limit jb) {next : Nat} (bound : next < 0x10000) (streak : Nat) :
    Roomy limit { jb with nextSeq := some next, oldStreak := streak } :=
  { roomy with
    next_lt := by
      rintro other ⟨⟩
      exact bound }

theorem cursor_lt (roomy : Roomy limit jb) (pkt : Packet Payload) :
    jb.nextSeq.getD pkt.key < 0x10000 := by
  cases started : jb.nextSeq with
  | none => exact Nat.mod_lt _ (by decide)
  | some next => exact roomy.next_lt next started

theorem admitted (roomy : Roomy limit jb) {pkt : Packet Payload} {now : Rat}
    {full : JitterBuffer Payload} {next : Nat} (stored : jb.admitted pkt now = some (full, next)) :
    full.WellFormed ∧ full.maxSize = limit ∧ full.count ≤ limit + 1 := by
  have seqBound : pkt.key < 0x10000 := Nat.mod_lt _ (by decide)
  have inserted {before : JitterBuffer Payload} (kept : Roomy limit before) :
      (before.insert pkt.key pkt now).WellFormed ∧
        (before.insert pkt.key pkt now).maxSize = limit ∧
        (before.insert pkt.key pkt now).count ≤ limit + 1 :=
    ⟨insert_well_formed kept.toWellFormed pkt now, kept.maxSize,
      (insert_count_le before pkt.key pkt now).trans (Nat.succ_le_succ kept.room)⟩
  simp only [JitterBuffer.admitted] at stored
  split_ifs at stored with old sustained late played
  · cases stored
    exact inserted (roomy.resync seqBound)
  · cases stored
    exact inserted (roomy.moved seqBound 0)
  · cases stored
    exact inserted (roomy.moved (roomy.cursor_lt pkt) 0)

/-- A push that finds the buffer full plays out the earliest packet. -/
theorem push_plays (roomy : Roomy limit jb) (positive : 1 ≤ limit) {pkt : Packet Payload}
    {now : Rat} {full : JitterBuffer Payload} {next : Nat}
    (stored : jb.admitted pkt now = some (full, next)) (excess : full.count > full.maxSize)
    (later : Rat) : PlaysEarliest full next (jb.push pkt now later) := by
  obtain ⟨wellFormed, maxSize, _⟩ := roomy.admitted stored
  cases jb.push_cases pkt now later with
  | inl refused =>
      rw [refused.1] at stored
      cases stored
  | inr admitted =>
      obtain ⟨other, cursor, before, same, pushed, quiet⟩ := admitted
      cases stored.symm.trans same
      have none : before = [] := quiet.resolve_right (by omega)
      rw [pushed, none, List.nil_append, settle, if_pos excess]
      exact (force_advance_plays wellFormed (by omega) next later).2

theorem push (roomy : Roomy limit jb) (positive : 1 ≤ limit) (pkt : Packet Payload)
    (now later : Rat) : Roomy limit (jb.push pkt now later).1 := by
  cases jb.push_cases pkt now later with
  | inl refused =>
      obtain ⟨_, streak, pushed⟩ := refused
      rw [pushed]
      exact roomy.moved (roomy.cursor_lt pkt) streak
  | inr admitted =>
      obtain ⟨full, next, before, stored, pushed, _⟩ := admitted
      obtain ⟨wellFormed, maxSize, count⟩ := roomy.admitted stored
      rw [pushed, settle]
      split_ifs with excess
      · obtain ⟨kept, plays⟩ := force_advance_plays wellFormed (by omega) next later
        refine ⟨kept.toWellFormed, kept.maxSize.trans maxSize, plays.room.trans ?_⟩
        omega
      · exact ⟨wellFormed, maxSize, (not_lt.mp excess).trans_eq maxSize⟩

theorem operate (roomy : Roomy limit jb) (positive : 1 ≤ limit)
    (operation : Operation Payload) : Roomy limit (operate jb operation).1 := by
  cases operation with
  | push pkt now later => exact roomy.push positive pkt now later
  | flush now => exact roomy.keeps (flush_loop_keeps roomy.toWellFormed now _ 0)
  | setLatency ms =>
      change Roomy limit (jb.setLatency ms)
      rw [setLatency.eq_def]
      split
      · exact roomy
      · split_ifs
        · exact roomy
        · exact ⟨⟨roomy.key_lt, roomy.next_lt, roomy.count_eq, roomy.stored_key⟩, roomy.maxSize,
            roomy.room⟩
  | setRtt rttMs =>
      change Roomy limit (jb.setRtt rttMs)
      rw [setRtt]
      split_ifs
      · exact roomy
      · exact ⟨⟨roomy.key_lt, roomy.next_lt, roomy.count_eq, roomy.stored_key⟩, roomy.maxSize,
          roomy.room⟩
  | reset =>
      have empty := roomy.resync (show 0 < 0x10000 by decide)
      refine ⟨⟨empty.key_lt, ?_, rfl, empty.stored_key⟩, roomy.maxSize, Nat.zero_le _⟩
      intro next started
      cases started
  | resyncTo seq => exact roomy.resync seq.isLt

end Roomy

theorem init_roomy (opts : Options) :
    1 ≤ (initJitterBuffer opts : JitterBuffer Payload).maxSize ∧
      Roomy (initJitterBuffer opts : JitterBuffer Payload).maxSize
        (initJitterBuffer opts : JitterBuffer Payload) := by
  constructor
  · rw [initJitterBuffer]
    dsimp only
    split
    · split_ifs with zero
      · decide
      · exact Nat.one_le_iff_ne_zero.mpr zero
    · decide
  · refine ⟨⟨?_, ?_, rfl, ?_⟩, rfl, Nat.zero_le _⟩
    · exact fun key member => absurd member (AList.notMem_empty key)
    · intro next started
      cases started
    · intro key entry found
      cases found

/-- After any calls the count is the number of entries and within the size asked for, and the
next push, if the packet is one too many, plays out the earliest one and drops none. -/
theorem buffer_stays_roomy (opts : Options) (operations : List (Operation Payload)) :
    let reached := (Run.run operate (initJitterBuffer opts) operations).1
    reached.count = reached.buffer.entries.length ∧
      reached.count ≤ (initJitterBuffer opts : JitterBuffer Payload).maxSize ∧
      ∀ (pkt : Packet Payload) (now later : Rat) (full : JitterBuffer Payload) (next : Nat),
        reached.admitted pkt now = some (full, next) → full.count > full.maxSize →
        PlaysEarliest full next (reached.push pkt now later) := by
  obtain ⟨positive, start⟩ := @init_roomy Payload opts
  have roomy := @Run.run_keeps _ _ _ operate (fun _ _ => True)
    (Roomy (initJitterBuffer opts : JitterBuffer Payload).maxSize)
    (fun _ operation _ kept => kept.operate positive operation) _ operations start
    (Run.always_of_forall (fun _ _ => trivial) _ _)
  refine ⟨?_, roomy.room, ?_⟩
  · rw [roomy.count_eq]
    exact List.length_map Sigma.fst
  · intro pkt now later full next stored excess
    exact roomy.push_plays positive stored excess later

/-- Room for one packet, and a second one behind a gap. -/
theorem buffer_stays_roomy_when_full :
    ∃ full : JitterBuffer Unit, full.count = 2 ∧
      PlaysEarliest full 5 ((Run.run operate (initJitterBuffer ⟨none, some 1, none, none⟩)
        [.push ⟨5, ()⟩ 0 0]).1.push ⟨7, ()⟩ 1 1) := by
  have counted : ((Run.run operate (initJitterBuffer ⟨none, some 1, none, none⟩)
      [.push ⟨5, ()⟩ 0 0]).1.admitted ⟨7, ()⟩ 1).map (fun stored =>
        (stored.1.count, stored.1.maxSize, stored.2)) = some (2, 1, 5) := by decide +kernel
  obtain ⟨⟨full, next⟩, stored, facts⟩ := Option.map_eq_some_iff.mp counted
  simp only [Prod.mk.injEq] at facts
  obtain ⟨count, size, rfl⟩ := facts
  exact ⟨full, count, (buffer_stays_roomy ⟨none, some 1, none, none⟩ [.push ⟨5, ()⟩ 0 0]).2.2
    ⟨7, ()⟩ 1 1 full 5 stored (by omega)⟩

end RtpPacket.Receive
