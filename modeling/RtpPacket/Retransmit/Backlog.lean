import RtpPacket.Retransmit.Nacks

/-!
# The order of the missing numbers

The missing numbers stand in ascending order below the highest one, whatever arrives, so an
eviction that stops at the first number that stays evicts everything that it should.
-/

namespace RtpPacket.Nack

open FlatRanges Run

set_option autoImplicit false

/-- The missing numbers below the highest one, in order, none of them received. -/
structure Backlog (limit : Nat) (highest : Int) (received : List Int)
    (missing : InsertionMap Int NackInfo) : Prop where
  ascending : missing.keys.Pairwise (· < ·)
  below : ∀ seq ∈ missing.keys, seq < highest
  absent : ∀ seq ∈ missing.keys, ¬Covers received seq
  room : missing.size ≤ limit

theorem size_eq_keys_length (missing : InsertionMap Int NackInfo) :
    missing.size = missing.keys.length := (List.length_map Prod.fst).symm

section Backlogs

variable {limit : Nat} {highest : Int} {received : List Int} {missing : InsertionMap Int NackInfo}

theorem backlog_empty (limit : Nat) (highest : Int) (received : List Int) :
    Backlog limit highest received .empty where
  ascending := .nil
  below := fun _ member => absurd member List.not_mem_nil
  absent := fun _ member => absurd member List.not_mem_nil
  room := Nat.zero_le _

theorem Backlog.shrink (backlog : Backlog limit highest received missing)
    {fewer : InsertionMap Int NackInfo} (sublist : fewer.keys.Sublist missing.keys) {top : Int}
    (higher : highest ≤ top) {now : List Int}
    (unseen : ∀ seq ∈ fewer.keys, Covers now seq → Covers received seq) :
    Backlog limit top now fewer where
  ascending := backlog.ascending.sublist sublist
  below := fun seq member => (backlog.below seq (sublist.subset member)).trans_le higher
  absent := fun seq member covered =>
    backlog.absent seq (sublist.subset member) (unseen seq member covered)
  room := by
    have room := backlog.room
    rw [size_eq_keys_length] at room ⊢
    exact sublist.length_le.trans room

/-- The eviction loop leaves exactly the entries from the cutoff on. -/
theorem Backlog.evicts (backlog : Backlog limit highest received missing) (cutoff : Int) :
    (missing.dropWhile (· < cutoff)).entries =
      missing.entries.filter fun entry => cutoff ≤ entry.1 :=
  InsertionMap.drop_while_ascending backlog.ascending cutoff

end Backlogs

theorem span_ascending (start stop : Int) :
    (NackGenerator.span start stop).Pairwise (· < ·) := by
  rw [NackGenerator.span, List.pairwise_map]
  apply List.pairwise_lt_range.imp
  intro first second below
  omega

theorem NackGenerator.lost_ascending (library : Library) (self : NackGenerator)
    (start stop : Int) : (self.lost library start stop).Pairwise (· < ·) :=
  (span_ascending start stop).filter _

theorem start_le_of_mem_lost {library : Library} {self : NackGenerator} {start stop seq : Int}
    (member : seq ∈ self.lost library start stop) : start ≤ seq ∧ seq < stop := by
  obtain ⟨i, inside, rfl⟩ := List.mem_map.mp (List.mem_filter.mp member).1
  have bound := List.mem_range.mp inside
  omega

namespace NackGenerator

variable {library : Library} {self : NackGenerator} {limit : Nat}

theorem insert_missing_entries {clock : ℚ} {stop : Int}
    (below : ∀ seq ∈ self.missing.keys, seq < self.highestExtSeq) :
    (self.insertMissing clock (self.lost library (self.highestExtSeq + 1) stop)).missing.entries =
      self.missing.entries ++ (self.lost library (self.highestExtSeq + 1) stop).map fun seq =>
        (seq, { createdAt := clock
                sentAt := 0
                retries := 0
                sendAtSeq := seq + self.waitNumberOfPackets (1 / 2) }) := by
  apply InsertionMap.entries_set_all
  · exact (self.lost_ascending library _ stop).imp fun less => less.ne
  · intro seq member known
    have low := below seq known
    have high := (start_le_of_mem_lost member).1
    omega

theorem insert_missing_backlog (correct : library.Correct) (valid : Valid self.received)
    (backlog : Backlog limit self.highestExtSeq self.received self.missing) (clock : ℚ)
    {extSeq : Int} (higher : self.highestExtSeq < extSeq)
    (room : self.missing.size + (self.lost library (self.highestExtSeq + 1) extSeq).length ≤
      limit) :
    Backlog limit extSeq self.received (self.insertMissing clock
      (self.lost library (self.highestExtSeq + 1) extSeq)).missing := by
  have keys : (self.insertMissing clock
      (self.lost library (self.highestExtSeq + 1) extSeq)).missing.keys =
      self.missing.keys ++ self.lost library (self.highestExtSeq + 1) extSeq := by
    rw [InsertionMap.keys, insert_missing_entries backlog.below, List.map_append, List.map_map]
    exact congrArg _ (List.map_id _)
  constructor
  · rw [keys, List.pairwise_append]
    refine ⟨backlog.ascending, self.lost_ascending library _ extSeq, ?_⟩
    intro old known fresh member
    have low := backlog.below old known
    have high := (start_le_of_mem_lost member).1
    omega
  · intro seq member
    rw [keys, List.mem_append] at member
    cases member with
    | inl old => exact (backlog.below seq old).trans higher
    | inr fresh => exact (start_le_of_mem_lost fresh).2
  · intro seq member
    rw [keys, List.mem_append] at member
    cases member with
    | inl old => exact backlog.absent seq old
    | inr fresh => exact ((mem_lost correct valid).mp fresh).absent
  · rw [size_eq_keys_length, keys, List.length_append, ← size_eq_keys_length]
    exact room

theorem reveal_gap_backlog (correct : library.Correct) (valid : Valid self.received)
    (entries : self.maxNackEntries = limit)
    (backlog : Backlog limit self.highestExtSeq self.received self.missing) (clock : ℚ)
    {extSeq : Int} (higher : self.highestExtSeq < extSeq) (isKeyframe : Bool) :
    ∃ missing needKeyframe,
      self.revealGap library clock extSeq isKeyframe = { self with
        missing := missing
        needKeyframe := needKeyframe } ∧
      Backlog limit extSeq self.received missing := by
  have evicted (cutoff : Int) : Backlog limit self.highestExtSeq self.received
      (self.missing.dropWhile (· < cutoff)) :=
    backlog.shrink (self.missing.keys_drop_while_sublist _) le_rfl fun _ _ => id
  have raised {missing : InsertionMap Int NackInfo}
      (kept : Backlog limit self.highestExtSeq self.received missing) :
      Backlog limit extSeq self.received missing :=
    kept.shrink (List.Sublist.refl _) higher.le fun _ _ => id
  rw [revealGap]
  split_ifs with gap keyframe
  · exact ⟨_, self.needKeyframe, rfl, raised (evicted extSeq)⟩
  · cases self.add_missing_range_cases library clock (self.highestExtSeq + 1) extSeq with
    | inl fits =>
        obtain ⟨missing, superseded, room, added⟩ := fits
        have left : Backlog limit self.highestExtSeq self.received missing := by
          cases superseded with
          | inl same => exact same ▸ backlog
          | inr below =>
              obtain ⟨latestKf, _, rfl⟩ := below
              exact evicted latestKf
        rw [entries] at room
        exact ⟨_, self.needKeyframe, added, @insert_missing_backlog library
          { self with missing := missing } limit correct valid left clock extSeq higher room⟩
    | inr overflows =>
        exact ⟨.empty, true, overflows self.needKeyframe, backlog_empty limit extSeq _⟩
  · exact ⟨self.missing, self.needKeyframe, rfl, raised backlog⟩

end NackGenerator

structure Orderly (limit : Nat) (reached : NackGenerator) : Prop where
  valid : Valid reached.received
  idle : reached.started = false → reached.missing.keys = []
  entries : reached.maxNackEntries = limit
  backlog : Backlog limit reached.highestExtSeq reached.received reached.missing

namespace Orderly

variable {library : Library} {limit : Nat} {self : NackGenerator}

theorem evict_old (orderly : Orderly limit self) : Orderly limit self.evictOld := by
  cases self.evict_old_cases with
  | inl same =>
      rw [same]
      exact orderly
  | inr trimmed =>
      obtain ⟨valid, left⟩ :=
        NackGenerator.trim_received_spec orderly.valid (self.highestExtSeq - self.maxPacketAge)
      have sublist := self.missing.keys_drop_while_sublist
        (· < self.highestExtSeq - self.maxPacketAge)
      rw [trimmed]
      exact {
        valid := valid
        idle := fun idle => List.sublist_nil.mp (orderly.idle idle ▸ sublist)
        entries := orderly.entries
        backlog := orderly.backlog.shrink sublist le_rfl fun seq _ covered =>
          ((left seq).mp covered).1 }

theorem note_keyframe (orderly : Orderly limit self) (extSeq : Int) (isKeyframe : Bool) :
    Orderly limit (self.noteKeyframe extSeq isKeyframe) := by
  obtain ⟨keyframes, marked, _⟩ := self.note_keyframe_eq extSeq isKeyframe
  rw [marked]
  exact ⟨orderly.valid, orderly.idle, orderly.entries, orderly.backlog⟩

theorem arrived (correct : library.Correct) (orderly : Orderly limit self) (extSeq : Int)
    {top : Int} (higher : self.highestExtSeq ≤ top) :
    Backlog limit top (self.arrive library extSeq).received
      (self.arrive library extSeq).missing := by
  apply orderly.backlog.shrink (self.missing.keys_erase_sublist extSeq) higher
  intro seq member covered
  exact ((NackGenerator.covers_arrive correct orderly.valid).mp covered).resolve_right
    (NackGenerator.mem_keys_erase.mp member).2

theorem arrive (correct : library.Correct) (orderly : Orderly limit self) (extSeq : Int) :
    Orderly limit (self.arrive library extSeq) where
  valid := NackGenerator.arrive_valid correct orderly.valid
  idle := fun idle =>
    List.sublist_nil.mp (orderly.idle idle ▸ self.missing.keys_erase_sublist extSeq)
  entries := orderly.entries
  backlog := orderly.arrived correct extSeq le_rfl

theorem observe_packet (correct : library.Correct) (orderly : Orderly limit self) (clock : ℚ)
    (extSeq : Int) (isKeyframe isRecovered : Bool) :
    Orderly limit (self.observePacket library clock extSeq isKeyframe isRecovered) := by
  have valid : Valid (self.arrive library extSeq).received :=
    NackGenerator.arrive_valid correct orderly.valid
  cases self.observe_packet_cases library clock extSeq isKeyframe isRecovered with
  | inl noted =>
      obtain ⟨histogram, observed, _⟩ := noted
      rw [observed]
      apply note_keyframe
      refine ⟨valid, fun idle => absurd idle (by simp), orderly.entries, ?_⟩
      by_cases running : self.started = true
      · exact orderly.arrived correct extSeq (NackGenerator.le_reach running extSeq isRecovered)
      · -- The first packet may be below the initial bound, but nothing is missing yet.
        have none : (self.arrive library extSeq).missing = .empty := by
          have keys := orderly.idle (Bool.eq_false_iff.mpr running)
          apply InsertionMap.ext
          exact List.filter_eq_nil_iff.mpr fun entry member =>
            absurd (List.mem_map_of_mem (f := Prod.fst) member) (by
              change entry.1 ∉ self.missing.keys
              rw [keys]
              exact List.not_mem_nil)
        change Backlog limit _ _ (self.arrive library extSeq).missing
        rw [none]
        exact backlog_empty ..
  | inr jumped =>
      obtain ⟨⟨running, _, higher⟩, observed⟩ := jumped
      obtain ⟨missing, needKeyframe, revealed, backlog⟩ :=
        @NackGenerator.reveal_gap_backlog library (self.arrive library extSeq) limit correct valid
          orderly.entries (orderly.arrived correct extSeq le_rfl) clock extSeq higher isKeyframe
      have unflagged : { self.arrive library extSeq with needKeyframe := self.needKeyframe } =
          self.arrive library extSeq := rfl
      rw [observed self.needKeyframe, unflagged, revealed]
      apply evict_old
      apply note_keyframe
      refine ⟨valid, fun idle => absurd (running.symm.trans idle) (by decide), orderly.entries,
        backlog⟩

theorem build_feedback (orderly : Orderly limit self) (now : ℚ) :
    Orderly limit (self.buildFeedback now).1 := by
  have trimmed := orderly.evict_old
  have sublist : (self.buildFeedback now).1.missing.keys.Sublist self.evictOld.missing.keys := by
    rw [← InsertionMap.keys_map_values self.evictOld.missing fun _ info =>
      self.evictOld.touch now info]
    exact InsertionMap.keys_erase_all_sublist _ _
  exact {
    valid := trimmed.valid
    idle := fun idle => List.sublist_nil.mp (trimmed.idle idle ▸ sublist)
    entries := trimmed.entries
    backlog := trimmed.backlog.shrink sublist le_rfl fun _ _ => id }

theorem step (correct : library.Correct) (orderly : Orderly limit self) (event : NackEvent) :
    Orderly limit (self.step library event).1 := by
  cases event with
  | observePacket clock extSeq isKeyframe isRecovered =>
      exact orderly.observe_packet correct clock extSeq isKeyframe isRecovered
  | buildFeedback now => exact orderly.build_feedback now
  | updateRtt rttMs =>
      obtain ⟨rtt, updated⟩ := update_rtt_eq self rttMs
      rw [NackGenerator.step, updated]
      exact ⟨orderly.valid, orderly.idle, orderly.entries, orderly.backlog⟩
  | acknowledgeKeyframeRequested =>
      exact ⟨orderly.valid, orderly.idle, orderly.entries, orderly.backlog⟩
  | reset => exact ⟨valid_nil, fun _ => rfl, orderly.entries, backlog_empty ..⟩

end Orderly

theorem Fresh.orderly {start : NackGenerator} (fresh : Fresh start) :
    Orderly start.maxNackEntries start := by
  constructor
  case valid =>
    rw [fresh.received]
    exact valid_nil
  case idle =>
    rw [fresh.missing]
    exact fun _ => rfl
  case entries => rfl
  case backlog =>
    rw [fresh.missing]
    exact backlog_empty ..

theorem run_orderly {library : Library} (correct : library.Correct) {opts : NackOptions}
    {start : NackGenerator} (built : NackGenerator.new opts = .ok start)
    (events : List NackEvent) :
    Orderly start.maxNackEntries (run (NackGenerator.step library) start events).1 :=
  @run_keeps _ _ _ (NackGenerator.step library) (fun _ _ => True) (Orderly start.maxNackEntries)
    (fun _ event _ orderly => orderly.step correct event) _ _ (new_fresh built).orderly
    (always_of_forall (fun _ _ => trivial) _ _)

/-- The missing numbers in every reachable state, and what the eviction loop makes of them. -/
structure MissingInOrder (limit : Nat) (library : Library) (reached : NackGenerator) : Prop where
  ascending : reached.missing.keys.Pairwise (· < ·)
  below : ∀ seq ∈ reached.missing.keys, seq < reached.highestExtSeq
  absent : ∀ seq ∈ reached.missing.keys, library.contains reached.received seq = false
  room : reached.missing.size ≤ limit
  evicts : ∀ cutoff, (reached.evictMissingBelow cutoff).missing.entries =
    reached.missing.entries.filter fun entry => ¬entry.1 < cutoff

/-- Whatever is observed, drained or reset, the missing numbers stay in order below the highest
one, none of them received and no more than allowed, and eviction drops just those below the
cutoff. -/
theorem missing_in_order {library : Library} (correct : library.Correct) {opts : NackOptions}
    {start : NackGenerator} (built : NackGenerator.new opts = .ok start)
    (events : List NackEvent) :
    MissingInOrder (opts.maxNackEntries.getD 1000) library
      (run (NackGenerator.step library) start events).1 := by
  have orderly := run_orderly correct built events
  obtain ⟨_, _, _, limit⟩ := new_eq built
  constructor
  · exact orderly.backlog.ascending
  · exact orderly.backlog.below
  · intro seq member
    rw [← Bool.not_eq_true, correct.contains_iff orderly.valid]
    exact orderly.backlog.absent seq member
  · rw [← limit]
    exact orderly.backlog.room
  · intro cutoff
    simp only [not_lt]
    exact orderly.backlog.evicts cutoff

/-- A recovered packet ahead of the highest one, then the gap around it. -/
theorem missing_in_order_around_recovered :
    MissingInOrder 1000 reference (run (NackGenerator.step reference) defaultGenerator
      [.observePacket 0 1 false false, .observePacket 0 5 false true,
        .observePacket 0 8 false false, .buildFeedback 10]).1 :=
  missing_in_order reference_correct
    (show NackGenerator.new ⟨none, none, none, none, none, none, none⟩ = .ok defaultGenerator
      from rfl) _

end RtpPacket.Nack
