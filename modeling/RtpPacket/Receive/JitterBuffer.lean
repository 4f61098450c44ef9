import Mathlib.Data.List.AList
import RtpPacket.Lib.Run
import RtpPacket.Lib.SerialNumber

/-!
# The jitter buffer

Packets are stored under their 16-bit sequence number and played out in order from
`nextSeq` on; what does not come in time is declared lost. The entries are kept in
an association list: the source reads them by key, or scans them for the one
closest to `nextSeq`, which no order of the scan changes. Every callback is one
event, in the order of the calls; callbacks do not call back into the buffer.
-/

namespace RtpPacket.Receive

open SerialNumber

set_option autoImplicit false

structure Packet (Payload : Type) where
  sequenceNumber : Nat
  payload : Payload
  deriving DecidableEq, Repr

structure Entry (Payload : Type) where
  pkt : Packet Payload
  insertTime : Rat

inductive Event (Payload : Type) where
  | packet (pkt : Packet Payload)
  | loss (seq : Nat)
  /-- A gap too long to report number by number. -/
  | gap (start stop length : Nat)
  | resync (seq : Nat)
  deriving DecidableEq, Repr

structure JitterBuffer (Payload : Type) where
  latency : Rat
  maxSize : Nat
  buffer : AList (fun _ : Nat => Entry Payload)
  count : Nat
  /-- The next expected number, `-1` in the source before the first packet. -/
  nextSeq : Option Nat
  oldStreak : Nat
  emittedAny : Bool
  rttMs : Rat
  rttSafetyMs : Rat

structure Options where
  latency : Option Rat
  maxSize : Option Nat
  rttMs : Option Rat
  rttSafetyMs : Option Rat

def resyncThreshold : Nat := 8

def maxLossEventsPerGap : Nat := 512

variable {Payload : Type}

/-- A missing option and a zero latency or size fall back to the default. -/
def initJitterBuffer (opts : Options) : JitterBuffer Payload where
  latency := match opts.latency with
    | some latency => if latency = 0 then 50 else latency
    | none => 50
  maxSize := match opts.maxSize with
    | some maxSize => if maxSize = 0 then 256 else maxSize
    | none => 256
  buffer := ∅
  count := 0
  nextSeq := none
  oldStreak := 0
  emittedAny := false
  rttMs := opts.rttMs.getD 0
  rttSafetyMs := opts.rttSafetyMs.getD 50

/-- Signed 16-bit difference; half the cycle counts as ahead. -/
def seqDiff (left right : Nat) : Int :=
  let diff := (left + 0x10000 - right) % 0x10000
  if diff > 0x8000 then (diff : Int) - 0x10000 else diff

def Packet.key (pkt : Packet Payload) : Nat := pkt.sequenceNumber % 0x10000

namespace JitterBuffer

def effectiveLatency (jb : JitterBuffer Payload) : Rat :=
  if jb.rttMs > 0 then max jb.latency (2 * jb.rttMs + jb.rttSafetyMs) else jb.latency

def closer (next : Nat) (best : Option Nat × Nat) (key : Nat) : Option Nat × Nat :=
  let dist := distance 0x10000 next key
  if dist < best.2 then (some key, dist) else best

def findEarliest (jb : JitterBuffer Payload) (next : Nat) : Option Nat :=
  (jb.buffer.keys.foldl (closer next) (none, 0x10000)).1

def findNextAvailable (jb : JitterBuffer Payload) (next : Nat) : Option (Nat × Rat) :=
  if jb.count = 0 then none
  else
    let limit := min 256 (jb.maxSize + 1)
    let scanned := (List.range' 1 limit).findSome? fun step =>
      let seq := (next + step) % 0x10000
      (jb.buffer.lookup seq).map fun entry => (seq, entry.insertTime)
    match scanned with
    | some found => some found
    | none =>
        match jb.findEarliest next with
        | some earliest =>
            (jb.buffer.lookup earliest).map fun entry => (earliest, entry.insertTime)
        | none => none

/-- The reports for the numbers from `next` up to `gapEnd`, none for a gap that runs backwards. -/
def gapEvents (next gapEnd : Nat) : List (Event Payload) :=
  let gapLen := seqDiff gapEnd next
  if gapLen < 0 then []
  else
    let toReport := min gapLen.toNat maxLossEventsPerGap
    let losses := (successive 0x10000 next toReport).map .loss
    let gaps := if gapLen.toNat > toReport then [.gap next gapEnd gapLen.toNat] else []
    losses ++ gaps

/-- Both exits of the source leave the cursor at `gapEnd`. -/
def declareGapAndSkip (jb : JitterBuffer Payload) (next gapEnd : Nat) :
    JitterBuffer Payload × List (Event Payload) :=
  ({ jb with nextSeq := some gapEnd }, gapEvents next gapEnd)

def emit (jb : JitterBuffer Payload) (next : Nat) : JitterBuffer Payload :=
  { jb with
    buffer := jb.buffer.erase next
    count := jb.count - 1
    emittedAny := true
    nextSeq := some ((next + 1) % 0x10000) }

theorem find_next_available_stored {jb : JitterBuffer Payload} {next : Nat} {found : Nat × Rat}
    (available : jb.findNextAvailable next = some found) :
    ∃ entry, jb.buffer.lookup found.1 = some entry ∧ entry.insertTime = found.2 := by
  simp only [findNextAvailable] at available
  split at available
  · cases available
  · split at available
    · next scanned =>
        cases available
        obtain ⟨step, -, hit⟩ := List.exists_of_findSome?_eq_some scanned
        obtain ⟨entry, stored, rfl⟩ := Option.map_eq_some_iff.mp hit
        exact ⟨entry, stored, rfl⟩
    · split at available
      · obtain ⟨entry, stored, rfl⟩ := Option.map_eq_some_iff.mp available
        exact ⟨entry, stored, rfl⟩
      · cases available

/-- A turn of the loop of `_flush`, with what it adds to `emitted`. -/
structure Turn (Payload : Type) where
  state : JitterBuffer Payload
  events : List (Event Payload)
  emitted : Nat

/-- `none` where the loop breaks. A skipped gap does not count against the budget, but
is followed by the packet it was skipped for. -/
def turn (jb : JitterBuffer Payload) (now : Rat) : Option (Turn Payload) :=
  match jb.nextSeq with
  | none => none
  | some next =>
      match jb.buffer.lookup next with
      | some entry => some ⟨jb.emit next, [.packet entry.pkt], 1⟩
      | none =>
          match jb.findNextAvailable next with
          | none => none
          | some nextEntry =>
              if now - nextEntry.2 ≥ jb.effectiveLatency then
                let skipped := jb.declareGapAndSkip next nextEntry.1
                some ⟨skipped.1, skipped.2, 0⟩
              else none

inductive Turns (jb : JitterBuffer Payload) (now : Rat) : Turn Payload → Prop where
  | emit {next : Nat} {entry : Entry Payload} (started : jb.nextSeq = some next)
      (stored : jb.buffer.lookup next = some entry) :
      Turns jb now ⟨jb.emit next, [.packet entry.pkt], 1⟩
  | skip {next : Nat} {found : Nat × Rat} (started : jb.nextSeq = some next)
      (missing : jb.buffer.lookup next = none) (available : jb.findNextAvailable next = some found)
      (waited : now - found.2 ≥ jb.effectiveLatency) :
      Turns jb now
        ⟨(jb.declareGapAndSkip next found.1).1, (jb.declareGapAndSkip next found.1).2, 0⟩

theorem turn_cases {jb : JitterBuffer Payload} {now : Rat} {taken : Turn Payload}
    (turned : jb.turn now = some taken) : jb.Turns now taken := by
  simp only [turn] at turned
  split at turned
  · cases turned
  · next next started =>
      split at turned
      · next entry stored =>
          cases turned
          exact .emit started stored
      · next missing =>
          split at turned
          · cases turned
          · next found available =>
              split at turned
              · next waited =>
                  cases turned
                  exact .skip started missing available waited
              · cases turned

/-- Whether the head is missing: then a turn does not emit. -/
def atGap (jb : JitterBuffer Payload) : Nat :=
  match jb.nextSeq with
  | none => 1
  | some next => if (jb.buffer.lookup next).isSome then 0 else 1

theorem turn_progress {jb : JitterBuffer Payload} {now : Rat} {taken : Turn Payload}
    (turned : jb.turn now = some taken) :
    taken.emitted ≤ 1 ∧ taken.state.atGap < 2 * taken.emitted + jb.atGap := by
  have atGapLe (jb : JitterBuffer Payload) : jb.atGap ≤ 1 := by
    simp only [atGap]
    split
    · exact le_rfl
    · split <;> decide
  cases turn_cases turned with
  | @emit next entry started stored =>
      have bounded := atGapLe (jb.emit next)
      refine ⟨le_rfl, ?_⟩
      show (jb.emit next).atGap < 2 * 1 + jb.atGap
      omega
  | skip started missing available waited =>
      obtain ⟨entry, stored, -⟩ := find_next_available_stored available
      simp [atGap, declareGapAndSkip, started, missing, stored]

/-- The loop of `_flush`, `emitted` packets into its budget. -/
def flushLoop (now : Rat) (maxEmit emitted : Nat) (jb : JitterBuffer Payload) :
    JitterBuffer Payload × List (Event Payload) :=
  if emitted < maxEmit then
    match _turned : jb.turn now with
    | none => (jb, [])
    | some taken =>
        let later := flushLoop now maxEmit (emitted + taken.emitted) taken.state
        (later.1, taken.events ++ later.2)
  else (jb, [])
termination_by 2 * (maxEmit - emitted) + jb.atGap
decreasing_by
  have progress := turn_progress _turned
  omega

def flush (jb : JitterBuffer Payload) (now : Rat) : JitterBuffer Payload × List (Event Payload) :=
  jb.flushLoop now (max 64 jb.maxSize) 0

def forceAdvance (jb : JitterBuffer Payload) (next : Nat) (now : Rat) :
    JitterBuffer Payload × List (Event Payload) :=
  match jb.findEarliest next with
  | none => (jb, [])
  | some earliest =>
      let skipped := jb.declareGapAndSkip next earliest
      let flushed := skipped.1.flush now
      (flushed.1, skipped.2 ++ flushed.2)

def insert (jb : JitterBuffer Payload) (seq : Nat) (pkt : Packet Payload) (now : Rat) :
    JitterBuffer Payload :=
  { jb with
    count := if (jb.buffer.lookup seq).isNone then jb.count + 1 else jb.count
    buffer := jb.buffer.insert seq { pkt := pkt, insertTime := now } }

/-- `next` is the cursor. The clock is read once for the entry and again by the flush of
a forced advance. -/
def store (jb : JitterBuffer Payload) (next seq : Nat) (pkt : Packet Payload) (now later : Rat) :
    JitterBuffer Payload × List (Event Payload) :=
  let jb := jb.insert seq pkt now
  if jb.count > jb.maxSize then jb.forceAdvance next later else (jb, [])

def resyncTo (jb : JitterBuffer Payload) (seq : Nat) : JitterBuffer Payload :=
  { jb with
    buffer := ∅
    count := 0
    nextSeq := some seq
    oldStreak := 0
    emittedAny := false }

def push (jb : JitterBuffer Payload) (pkt : Packet Payload) (now later : Rat) :
    JitterBuffer Payload × List (Event Payload) :=
  let seq := pkt.key
  let next := jb.nextSeq.getD seq
  let behind := seqDiff next seq
  if behind > 128 then
    if jb.oldStreak + 1 ≥ resyncThreshold then
      let stored := (jb.resyncTo seq).store seq seq pkt now later
      (stored.1, .resync seq :: stored.2)
    else ({ jb with nextSeq := some next, oldStreak := jb.oldStreak + 1 }, [])
  else if behind > 0 then
    if jb.emittedAny then ({ jb with nextSeq := some next, oldStreak := 0 }, [])
    else { jb with nextSeq := some seq, oldStreak := 0 }.store seq seq pkt now later
  else { jb with nextSeq := some next, oldStreak := 0 }.store next seq pkt now later

/-- `none` stands for what is not a finite number. -/
def setLatency (jb : JitterBuffer Payload) (ms : Option Rat) : JitterBuffer Payload :=
  match ms with
  | none => jb
  | some ms => if ms < 0 then jb else { jb with latency := ms }

def setRtt (jb : JitterBuffer Payload) (rttMs : Rat) : JitterBuffer Payload :=
  if rttMs < 0 then jb else { jb with rttMs := rttMs }

def reset (jb : JitterBuffer Payload) : JitterBuffer Payload :=
  { jb with
    buffer := ∅
    count := 0
    nextSeq := none
    oldStreak := 0
    emittedAny := false }

end JitterBuffer

inductive Action (Payload : Type) where
  | push (pkt : Packet Payload) (now later : Rat)
  | flush (now : Rat)

def step (jb : JitterBuffer Payload) :
    Action Payload → JitterBuffer Payload × List (Event Payload)
  | .push pkt now later => jb.push pkt now later
  | .flush now => jb.flush now

namespace JitterBuffer

theorem seq_diff_of_le {next seq : Nat} (near : distance 0x10000 next seq ≤ 0x8000) :
    seqDiff seq next = distance 0x10000 next seq := by
  rw [distance] at near ⊢
  rw [seqDiff, if_neg (by omega)]

theorem seq_diff_self {seq : Nat} (bound : seq < 0x10000) : seqDiff seq seq = 0 := by
  rw [seq_diff_of_le] <;> simp [distance_self bound]

theorem seq_diff_cases (left right : Nat) :
    seqDiff left right =
      if distance 0x10000 right left > 0x8000
      then (distance 0x10000 right left : Int) - 0x10000
      else distance 0x10000 right left := rfl

theorem flush_not_started {jb : JitterBuffer Payload} (started : jb.nextSeq = none) (now : Rat) :
    jb.flush now = (jb, []) := by
  have stopped : jb.turn now = none := by simp [turn, started]
  rw [flush, flushLoop]
  split
  · split
    · rfl
    · next taken turned => simp [stopped] at turned
  · rfl

theorem flush_head {jb : JitterBuffer Payload} {next : Nat} {entry : Entry Payload}
    (started : jb.nextSeq = some next) (stored : jb.buffer.lookup next = some entry) (now : Rat) :
    jb.flush now = (((jb.emit next).flushLoop now (max 64 jb.maxSize) 1).1,
      .packet entry.pkt :: ((jb.emit next).flushLoop now (max 64 jb.maxSize) 1).2) := by
  have turned : jb.turn now = some ⟨jb.emit next, [.packet entry.pkt], 1⟩ := by
    simp only [turn, started, stored]
  rw [flush, flushLoop, if_pos (by omega)]
  split
  · next stopped => simp [turned] at stopped
  · next taken same =>
      rw [turned] at same
      cases same
      rfl

/-- The part of the state the searches rely on. -/
structure WellFormed (jb : JitterBuffer Payload) : Prop where
  key_lt : ∀ key ∈ jb.buffer, key < 0x10000
  next_lt : ∀ next, jb.nextSeq = some next → next < 0x10000
  count_eq : jb.count = jb.buffer.keys.length
  stored_key : ∀ key entry, jb.buffer.lookup key = some entry → entry.pkt.key = key

/-- `earliest` is stored, and no stored number is closer to `next`. -/
def Earliest (jb : JitterBuffer Payload) (next earliest : Nat) : Prop :=
  earliest ∈ jb.buffer ∧
    ∀ key ∈ jb.buffer, distance 0x10000 next earliest ≤ distance 0x10000 next key

theorem fold_closer (next : Nat) (keys : List Nat) (best : Option Nat × Nat) :
    (keys.foldl (closer next) best).2 ≤ best.2 ∧
      (∀ key ∈ keys, (keys.foldl (closer next) best).2 ≤ distance 0x10000 next key) ∧
      (keys.foldl (closer next) best = best ∨
        ∃ key ∈ keys, keys.foldl (closer next) best = (some key, distance 0x10000 next key)) := by
  induction keys generalizing best with
  | nil => simp
  | cons key rest ih =>
      rw [List.foldl_cons]
      obtain ⟨least, below, origin⟩ := ih (closer next best key)
      by_cases less : distance 0x10000 next key < best.2
      · have taken : closer next best key = (some key, distance 0x10000 next key) := if_pos less
        rw [taken] at least below origin ⊢
        refine ⟨Nat.le_of_lt (Nat.lt_of_le_of_lt least less), ?_, .inr ?_⟩
        · exact List.forall_mem_cons.mpr ⟨least, below⟩
        · rcases origin with same | ⟨other, member, found⟩
          · exact ⟨key, List.mem_cons_self, same⟩
          · exact ⟨other, List.mem_cons_of_mem _ member, found⟩
      · have kept : closer next best key = best := if_neg less
        rw [kept] at least below origin ⊢
        refine ⟨least, ?_, ?_⟩
        · exact List.forall_mem_cons.mpr ⟨by omega, below⟩
        · rcases origin with same | ⟨other, member, found⟩
          · exact .inl same
          · exact .inr ⟨other, List.mem_cons_of_mem _ member, found⟩

theorem find_earliest_spec {jb : JitterBuffer Payload} {key : Nat} (stored : key ∈ jb.buffer)
    (next : Nat) :
    ∃ earliest, jb.findEarliest next = some earliest ∧ jb.Earliest next earliest := by
  obtain ⟨-, below, origin⟩ := fold_closer next jb.buffer.keys (none, 0x10000)
  rcases origin with same | ⟨earliest, member, found⟩
  · have closest := below key (AList.mem_keys.mp stored)
    have bounded := distance_lt next key (show 0 < 0x10000 by decide)
    rw [same] at closest
    omega
  · rw [found] at below
    refine ⟨earliest, ?_, AList.mem_keys.mpr member,
      fun other otherStored => below other (AList.mem_keys.mp otherStored)⟩
    rw [findEarliest, found]

theorem exists_earliest {jb : JitterBuffer Payload} (wellFormed : jb.WellFormed)
    (filled : jb.count ≠ 0) (next : Nat) :
    ∃ earliest, jb.findEarliest next = some earliest ∧ jb.Earliest next earliest := by
  have some : jb.buffer.keys ≠ [] := by
    intro empty
    rw [wellFormed.count_eq, empty] at filled
    exact filled rfl
  obtain ⟨key, member⟩ := List.exists_mem_of_ne_nil _ some
  exact find_earliest_spec (AList.mem_keys.mpr member) next

/-- A number met by the short scan is the closest one: everything closer was probed before. -/
theorem scan_earliest {jb : JitterBuffer Payload} {next limit : Nat} {found : Nat × Rat}
    (nextBound : next < 0x10000) (small : limit < 0x10000)
    (wellFormed : jb.WellFormed) (missing : next ∉ jb.buffer)
    (scanned : (List.range' 1 limit).findSome? (fun step =>
      (jb.buffer.lookup ((next + step) % 0x10000)).map
        fun entry => ((next + step) % 0x10000, entry.insertTime)) = some found) :
    jb.Earliest next found.1 := by
  obtain ⟨before, step, after, split, hit, missed⟩ := List.findSome?_eq_some_iff.mp scanned
  obtain ⟨entry, stored, rfl⟩ := Option.map_eq_some_iff.mp hit
  have sorted : (before ++ step :: after).Pairwise (· < ·) := split ▸ List.pairwise_lt_range'
  have stepRange : 1 ≤ step ∧ step < 1 + limit := by
    have member : step ∈ List.range' 1 limit := by rw [split]; simp
    simpa using member
  refine ⟨AList.lookup_isSome.mp (by rw [stored]; rfl), fun key member => ?_⟩
  rw [distance_add nextBound (by omega)]
  by_contra closer
  have keyBound := wellFormed.key_lt key member
  have positive : 0 < distance 0x10000 next key := by
    refine Nat.pos_of_ne_zero fun zero => missing ?_
    rwa [eq_of_distance_zero nextBound keyBound zero] at member
  have probed : distance 0x10000 next key ∈ before := by
    have inRange : distance 0x10000 next key ∈ before ++ step :: after := by
      rw [← split]
      simp only [List.mem_range'_1]
      omega
    rcases List.mem_append.mp inRange with earlier | later
    · exact earlier
    · have ordered := List.pairwise_append.mp sorted
      rcases List.mem_cons.mp later with same | beyond
      · omega
      · have larger := List.rel_of_pairwise_cons ordered.2.1 beyond
        omega
  have absent := missed _ probed
  rw [add_distance nextBound keyBound, Option.map_eq_none_iff, AList.lookup_eq_none] at absent
  exact absent member

theorem find_next_available_spec {jb : JitterBuffer Payload} {next : Nat}
    (nextBound : next < 0x10000) (wellFormed : jb.WellFormed) (missing : next ∉ jb.buffer) :
    (jb.buffer.keys = [] ∧ jb.findNextAvailable next = none) ∨
      ∃ key entry, jb.findNextAvailable next = some (key, entry.insertTime) ∧
        jb.buffer.lookup key = some entry ∧ jb.Earliest next key := by
  by_cases empty : jb.buffer.keys = []
  · refine .inl ⟨empty, ?_⟩
    rw [findNextAvailable, if_pos (by rw [wellFormed.count_eq, empty]; rfl)]
  · refine .inr ?_
    have count : jb.count ≠ 0 := by
      rw [wellFormed.count_eq]
      exact mt List.length_eq_zero_iff.mp empty
    simp only [findNextAvailable, if_neg count]
    split
    · next found scanned =>
        have earliest := scan_earliest nextBound (by omega) wellFormed missing scanned
        obtain ⟨step, -, hit⟩ := List.exists_of_findSome?_eq_some scanned
        obtain ⟨entry, stored, rfl⟩ := Option.map_eq_some_iff.mp hit
        exact ⟨_, entry, rfl, stored, earliest⟩
    · obtain ⟨key, found, earliest⟩ := exists_earliest wellFormed count next
      obtain ⟨entry, stored⟩ := Option.isSome_iff_exists.mp (AList.lookup_isSome.mpr earliest.1)
      rw [found]
      exact ⟨key, entry, by simp [stored], stored, earliest⟩

theorem emit_well_formed {jb : JitterBuffer Payload} {next : Nat} (wellFormed : jb.WellFormed)
    (stored : next ∈ jb.buffer) : (jb.emit next).WellFormed where
  key_lt key member := wellFormed.key_lt key (AList.mem_erase.mp member).2
  next_lt other same := by
    cases same
    exact Nat.mod_lt _ (by decide)
  count_eq := by
    rw [emit, AList.keys_erase, List.length_erase_of_mem (AList.mem_keys.mp stored),
      ← wellFormed.count_eq]
  stored_key key entry found := by
    by_cases same : key = next
    · rw [same, emit, AList.lookup_erase] at found
      cases found
    · rw [emit, AList.lookup_erase_ne same] at found
      exact wellFormed.stored_key key entry found

theorem skip_well_formed {jb : JitterBuffer Payload} (wellFormed : jb.WellFormed)
    {next gapEnd : Nat} (stored : gapEnd ∈ jb.buffer) :
    (jb.declareGapAndSkip next gapEnd).1.WellFormed :=
  { wellFormed with
    next_lt := by
      rintro other ⟨⟩
      exact wellFormed.key_lt gapEnd stored }

theorem insert_well_formed {jb : JitterBuffer Payload} (wellFormed : jb.WellFormed)
    (pkt : Packet Payload) (now : Rat) : (jb.insert pkt.key pkt now).WellFormed where
  key_lt key member := by
    rcases (AList.mem_insert _).mp member with rfl | old
    · exact Nat.mod_lt _ (by decide)
    · exact wellFormed.key_lt key old
  next_lt := wellFormed.next_lt
  count_eq := by
    simp only [insert, AList.keys_insert, List.length_cons, wellFormed.count_eq]
    by_cases fresh : pkt.key ∈ jb.buffer
    · have inKeys := AList.mem_keys.mp fresh
      have positive := List.length_pos_of_mem inKeys
      obtain ⟨entry, found⟩ := Option.isSome_iff_exists.mp (AList.lookup_isSome.mpr fresh)
      rw [found, List.length_erase_of_mem inKeys]
      simp
      omega
    · rw [AList.lookup_eq_none.mpr fresh, List.erase_of_not_mem (mt AList.mem_keys.mpr fresh)]
      simp
  stored_key key entry found := by
    by_cases same : key = pkt.key
    · rw [same, insert, AList.lookup_insert] at found
      cases found
      exact same.symm
    · rw [insert, AList.lookup_insert_ne same] at found
      exact wellFormed.stored_key key entry found

end JitterBuffer

end RtpPacket.Receive
