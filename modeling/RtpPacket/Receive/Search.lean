import RtpPacket.Receive.Capacity

/-!
# The two searches of the jitter buffer

The short scan behind the cursor and the scan of all keys find the same packet, in every
state in which the buffer looks for one: between two calls, inside a flush, and inside the
flush of a forced advance.
-/

namespace RtpPacket.Receive

open JitterBuffer SerialNumber

set_option autoImplicit false

variable {Payload : Type}

namespace JitterBuffer

def scan (jb : JitterBuffer Payload) (next limit : Nat) : Option (Nat × Rat) :=
  (List.range' 1 limit).findSome? fun step =>
    let seq := (next + step) % 0x10000
    (jb.buffer.lookup seq).map fun entry => (seq, entry.insertTime)

/-- What the full scan alone would return. -/
def fullScan (jb : JitterBuffer Payload) (next : Nat) : Option (Nat × Rat) :=
  match jb.findEarliest next with
  | some earliest => (jb.buffer.lookup earliest).map fun entry => (earliest, entry.insertTime)
  | none => none

theorem find_next_available_eq (jb : JitterBuffer Payload) (next : Nat) :
    jb.findNextAvailable next =
      if jb.count = 0 then none
      else (jb.scan next (min 256 (jb.maxSize + 1))).or (jb.fullScan next) := by
  rw [findNextAvailable]
  split_ifs with empty
  · rfl
  · rw [scan]
    dsimp only
    cases (List.range' 1 (min 256 (jb.maxSize + 1))).findSome? _ with
    | none => rfl
    | some found => rfl

variable {jb : JitterBuffer Payload} {next earliest : Nat}

theorem Earliest.closest (first : jb.Earliest next earliest) (wellFormed : jb.WellFormed)
    (nextBound : next < 0x10000) {key : Nat} (stored : key ∈ jb.buffer) (other : key ≠ earliest) :
    distance 0x10000 next earliest < distance 0x10000 next key := by
  apply lt_of_le_of_ne (first.2 key stored)
  intro same
  have keyBound := wellFormed.key_lt key stored
  exact other (eq_of_distance nextBound (wellFormed.key_lt earliest first.1) keyBound same).symm

theorem Earliest.unique (first : jb.Earliest next earliest) (wellFormed : jb.WellFormed)
    (nextBound : next < 0x10000) {other : Nat} (also : jb.Earliest next other) :
    other = earliest := by
  by_contra different
  have closer := first.closest wellFormed nextBound also.1 different
  exact absurd (also.2 earliest first.1) (not_le.mpr closer)

theorem find_earliest_eq (first : jb.Earliest next earliest) (wellFormed : jb.WellFormed)
    (nextBound : next < 0x10000) : jb.findEarliest next = some earliest := by
  obtain ⟨found, eq, also⟩ := find_earliest_spec first.1 next
  rw [eq, first.unique wellFormed nextBound also]

theorem scan_stored {limit : Nat} {found : Nat × Rat} (scanned : jb.scan next limit = some found) :
    ∃ entry, jb.buffer.lookup found.1 = some entry ∧ entry.insertTime = found.2 := by
  obtain ⟨step, _, hit⟩ := List.exists_of_findSome?_eq_some scanned
  obtain ⟨entry, stored, rfl⟩ := Option.map_eq_some_iff.mp hit
  exact ⟨entry, stored, rfl⟩

theorem scan_agrees {limit : Nat} {found : Nat × Rat} (wellFormed : jb.WellFormed)
    (nextBound : next < 0x10000) (missing : next ∉ jb.buffer) (small : limit < 0x10000)
    (scanned : jb.scan next limit = some found) : jb.fullScan next = some found := by
  have first := scan_earliest nextBound small wellFormed missing scanned
  obtain ⟨entry, stored, inserted⟩ := scan_stored scanned
  rw [fullScan, find_earliest_eq first wellFormed nextBound]
  simp only [stored, Option.map_some, inserted]

theorem full_scan_empty (empty : jb.buffer.keys = []) : jb.fullScan next = none := by
  rw [fullScan, findEarliest, empty]
  rfl

theorem find_next_available_eq_full_scan (wellFormed : jb.WellFormed)
    (nextBound : next < 0x10000) (missing : next ∉ jb.buffer) :
    jb.findNextAvailable next = jb.fullScan next := by
  rw [find_next_available_eq]
  split_ifs with empty
  · rw [wellFormed.count_eq, List.length_eq_zero_iff] at empty
    exact (full_scan_empty empty).symm
  · cases scanned : jb.scan next (min 256 (jb.maxSize + 1)) with
    | none => rfl
    | some found => exact (scan_agrees wellFormed nextBound missing (by omega) scanned).symm

theorem find_next_available_iff (wellFormed : jb.WellFormed) (nextBound : next < 0x10000)
    (missing : next ∉ jb.buffer) {seq : Nat} {insertTime : Rat} :
    jb.findNextAvailable next = some (seq, insertTime) ↔
      ∃ entry, jb.buffer.lookup seq = some entry ∧ entry.insertTime = insertTime ∧
        ∀ key ∈ jb.buffer, key ≠ seq → distance 0x10000 next seq < distance 0x10000 next key := by
  constructor
  · intro found
    obtain ⟨_, none⟩ | ⟨key, entry, some, stored, first⟩ :=
      find_next_available_spec nextBound wellFormed missing
    · cases found.symm.trans none
    · cases found.symm.trans some
      exact ⟨entry, stored, rfl, fun key => first.closest wellFormed nextBound⟩
  · rintro ⟨entry, stored, rfl, closest⟩
    have first : jb.Earliest next seq := by
      apply And.intro (AList.lookup_isSome.mp (by rw [stored]; rfl))
      intro key member
      by_cases same : key = seq
      · rw [same]
      · exact (closest key member same).le
    rw [find_next_available_eq_full_scan wellFormed nextBound missing, fullScan,
      find_earliest_eq first wellFormed nextBound]
    simp only [stored, Option.map_some]

theorem find_next_available_none_iff (wellFormed : jb.WellFormed) (nextBound : next < 0x10000)
    (missing : next ∉ jb.buffer) : jb.findNextAvailable next = none ↔ jb.buffer.keys = [] := by
  constructor
  · intro none
    obtain ⟨empty, _⟩ | ⟨key, entry, some, _⟩ :=
      find_next_available_spec nextBound wellFormed missing
    · exact empty
    · cases none.symm.trans some
  · intro empty
    rw [find_next_available_eq, if_pos (by rw [wellFormed.count_eq, empty]; rfl)]

/-- Without a cursor nothing is stored. -/
def Idle (jb : JitterBuffer Payload) : Prop := jb.nextSeq = none → jb.buffer.keys = []

theorem idle_of_started (started : jb.nextSeq = some next) : jb.Idle :=
  fun none => nomatch started.symm.trans none

theorem turn_idle {now : Rat} {taken : Turn Payload} (turned : jb.turn now = some taken) :
    taken.state.Idle := by
  cases turn_cases turned with
  | emit started stored => exact idle_of_started rfl
  | skip started missing available waited => exact idle_of_started rfl

theorem flush_loop_idle (idle : jb.Idle) (now : Rat) (maxEmit emitted : Nat) :
    (jb.flushLoop now maxEmit emitted).1.Idle := by
  fun_induction flushLoop now maxEmit emitted jb with
  | case1 emitted jb budget stopped => exact idle
  | case2 emitted jb budget taken turned later ih => exact ih (turn_idle turned)
  | case3 emitted jb spent => exact idle

theorem admitted_started {pkt : Packet Payload} {now : Rat} {full : JitterBuffer Payload}
    (stored : jb.admitted pkt now = some (full, next)) : full.nextSeq = some next := by
  simp only [JitterBuffer.admitted] at stored
  split_ifs at stored
  · cases stored
    rfl
  · cases stored
    rfl
  · cases stored
    rfl

theorem force_advance_idle (idle : jb.Idle) (now : Rat) : (jb.forceAdvance next now).1.Idle := by
  rw [forceAdvance]
  cases jb.findEarliest next with
  | none => exact idle
  | some earliest => exact flush_loop_idle (idle_of_started rfl) now _ 0

theorem push_idle (pkt : Packet Payload) (now later : Rat) : (jb.push pkt now later).1.Idle := by
  cases jb.push_cases pkt now later with
  | inl refused =>
      obtain ⟨_, streak, pushed⟩ := refused
      rw [pushed]
      exact idle_of_started rfl
  | inr admitted =>
      obtain ⟨full, next, before, stored, pushed, _⟩ := admitted
      have idle := idle_of_started (admitted_started stored)
      rw [pushed, settle]
      split_ifs with excess
      · exact force_advance_idle idle later
      · exact idle

end JitterBuffer

/-- The states between two calls, and those that the loop of `_flush` passes through. -/
inductive Visited (opts : Options) : JitterBuffer Payload → Prop
  | called (actions : List (Action Payload)) :
      Visited opts (Run.run step (initJitterBuffer opts) actions).1
  | forced (actions : List (Action Payload)) {pkt : Packet Payload} {now : Rat}
      {full : JitterBuffer Payload} {next earliest : Nat}
      (stored : (Run.run step (initJitterBuffer opts) actions).1.admitted pkt now =
        some (full, next))
      (excess : full.count > full.maxSize) (found : full.findEarliest next = some earliest) :
      Visited opts (full.declareGapAndSkip next earliest).1
  | turned {jb : JitterBuffer Payload} {now : Rat} {taken : Turn Payload}
      (visited : Visited opts jb) (turn : jb.turn now = some taken) : Visited opts taken.state

variable {opts : Options} {jb : JitterBuffer Payload}

theorem run_roomy (opts : Options) (actions : List (Action Payload)) :
    Roomy (initJitterBuffer opts : JitterBuffer Payload).maxSize
        (Run.run step (initJitterBuffer opts) actions).1 ∧
      (Run.run step (initJitterBuffer opts) actions).1.Idle := by
  obtain ⟨positive, start⟩ := @init_roomy Payload opts
  apply @Run.run_keeps _ _ _ step (fun _ _ => True) (fun jb =>
    Roomy (initJitterBuffer opts : JitterBuffer Payload).maxSize jb ∧ jb.Idle)
  · intro jb action _ kept
    cases action with
    | push pkt now later => exact ⟨kept.1.push positive pkt now later, push_idle pkt now later⟩
    | flush now =>
        exact ⟨kept.1.keeps (flush_loop_keeps kept.1.toWellFormed now _ 0),
          flush_loop_idle kept.2 now _ 0⟩
  · exact ⟨start, fun _ => rfl⟩
  · exact Run.always_of_forall (fun _ _ => trivial) _ _

theorem Visited.well_formed (visited : Visited opts jb) : jb.WellFormed ∧ jb.Idle := by
  induction visited with
  | called actions =>
      obtain ⟨roomy, idle⟩ := run_roomy opts actions
      exact ⟨roomy.toWellFormed, idle⟩
  | @forced actions pkt now full next earliest stored excess found =>
      have wellFormed := ((run_roomy opts actions).1.admitted stored).1
      have filled : full.count ≠ 0 := (Nat.zero_lt_of_lt excess).ne'
      obtain ⟨first, eq, isFirst⟩ := exists_earliest wellFormed filled next
      cases eq.symm.trans found
      exact ⟨skip_well_formed wellFormed isFirst.1, idle_of_started rfl⟩
  | turned visited turn ih => exact ⟨(turn_keeps ih.1 turn).toWellFormed, turn_idle turn⟩

/-- A search finds nothing exactly in an empty buffer, and else the packet closest to the
cursor; the short scan never disagrees with the full one. -/
theorem searches_agree (visited : Visited opts jb) :
    (jb.nextSeq = none → jb.buffer.keys = [] ∧ ∀ next, jb.findNextAvailable next = none) ∧
      ∀ next, jb.nextSeq = some next → jb.buffer.lookup next = none →
        (jb.findNextAvailable next = none ↔ jb.buffer.keys = []) ∧
          (∀ seq insertTime, jb.findNextAvailable next = some (seq, insertTime) ↔
            ∃ entry, jb.buffer.lookup seq = some entry ∧ entry.insertTime = insertTime ∧
              ∀ key ∈ jb.buffer, key ≠ seq →
                distance 0x10000 next seq < distance 0x10000 next key) ∧
          (∀ found, jb.scan next (min 256 (jb.maxSize + 1)) = some found →
            jb.fullScan next = some found) ∧
          jb.findNextAvailable next = jb.fullScan next := by
  obtain ⟨wellFormed, idle⟩ := visited.well_formed
  constructor
  · intro unstarted
    have empty := idle unstarted
    apply And.intro empty
    intro next
    rw [find_next_available_eq, if_pos (by rw [wellFormed.count_eq, empty]; rfl)]
  · intro next started absent
    have nextBound := wellFormed.next_lt next started
    have missing : next ∉ jb.buffer := AList.lookup_eq_none.mp absent
    exact ⟨find_next_available_none_iff wellFormed nextBound missing,
      fun seq insertTime => find_next_available_iff wellFormed nextBound missing,
      fun found => scan_agrees wellFormed nextBound missing (by omega),
      find_next_available_eq_full_scan wellFormed nextBound missing⟩

def farAhead : List (Action Unit) :=
  [.push ⟨65530, ()⟩ 0 0, .flush 0, .push ⟨900, ()⟩ 1 1, .push ⟨300, ()⟩ 2 2]

theorem searches_agree_far_ahead :
    (Run.run step (initJitterBuffer ⟨none, none, none, none⟩) farAhead).1.nextSeq = some 65531 ∧
      (Run.run step (initJitterBuffer ⟨none, none, none, none⟩) farAhead).1.fullScan 65531 =
        some (300, 2) ∧
      (Run.run step (initJitterBuffer ⟨none, none, none, none⟩) farAhead).1.findNextAvailable
        65531 = some (300, 2) := by
  have started : (Run.run step (initJitterBuffer ⟨none, none, none, none⟩) farAhead).1.nextSeq =
      some 65531 := by decide +kernel
  have absent : ((Run.run step (initJitterBuffer ⟨none, none, none, none⟩)
      farAhead).1.buffer.lookup 65531).isNone = true := by decide +kernel
  have found : (Run.run step (initJitterBuffer ⟨none, none, none, none⟩) farAhead).1.fullScan
      65531 = some (300, 2) := by decide +kernel
  have agree := (searches_agree (.called farAhead)).2 65531 started
    (Option.isNone_iff_eq_none.mp absent)
  exact ⟨started, found, agree.2.2.2.trans found⟩

end RtpPacket.Receive
