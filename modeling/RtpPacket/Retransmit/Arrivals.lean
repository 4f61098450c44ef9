import RtpPacket.Retransmit.NackGenerator

/-!
# What an arrival does

Trimming forgets only what is older than the window, and a gap is entered once, when the
highest sequence number first passes it.
-/

namespace RtpPacket.Nack

open FlatRanges Run

set_option autoImplicit false

namespace NackGenerator

theorem drop_ended_spec {ranges : List Int} (valid : Valid ranges) (cutoff : Int) :
    Valid (dropEnded cutoff ranges) ∧
      (∀ x, cutoff ≤ x → (Covers (dropEnded cutoff ranges) x ↔ Covers ranges x)) ∧
      ∀ stop ∈ (dropEnded cutoff ranges)[1]?, cutoff < stop := by
  fun_induction dropEnded cutoff ranges with
  | case1 start stop rest ended ih =>
      obtain ⟨kept, agree, reach⟩ := ih (valid_cons_cons.mp valid).2.2
      apply And.intro kept
      apply And.intro _ reach
      intro x inside
      have past : ¬(start ≤ x ∧ x < stop) := by omega
      rw [agree x inside, Covers, or_iff_right past]
  | case2 start stop rest left =>
      apply And.intro valid
      apply And.intro (fun _ _ => Iff.rfl)
      intro first isFirst
      obtain rfl := Option.some.inj isFirst
      exact Int.lt_of_not_ge left
  | case3 ranges short =>
      apply And.intro valid
      apply And.intro (fun _ _ => Iff.rfl)
      intro stop isSecond
      cases ranges with
      | nil => cases isSecond
      | cons first tail =>
          cases tail with
          | nil => cases isSecond
          | cons last rest => exact absurd rfl (short first last rest)

theorem clip_spec {ranges : List Int} (valid : Valid ranges) {cutoff : Int}
    (reach : ∀ stop ∈ ranges[1]?, cutoff < stop) :
    Valid (clip cutoff ranges) ∧
      ∀ x, Covers (clip cutoff ranges) x ↔ Covers ranges x ∧ cutoff ≤ x := by
  match ranges, valid with
  | [], valid => exact ⟨valid, fun x => ⟨fun none => none.elim, fun none => none.1⟩⟩
  | [_], valid => exact absurd valid not_valid_singleton
  | start :: stop :: rest, valid =>
      obtain ⟨order, above, tail⟩ := valid_cons_cons.mp valid
      have beyond : cutoff < stop := reach stop rfl
      have later (x : Int) (covered : Covers rest x) : cutoff ≤ x :=
        beyond.le.trans (le_of_covers (fun point member => (above point member).le) covered)
      rw [clip]
      split_ifs with clipped
      · apply And.intro (valid_cons_cons.mpr ⟨beyond, above, tail⟩)
        intro x
        have here : cutoff ≤ x ∧ x < stop ↔ (start ≤ x ∧ x < stop) ∧ cutoff ≤ x := by omega
        rw [Covers, Covers, here, or_and_right]
        apply or_congr_right
        exact ⟨fun covered => ⟨covered, later x covered⟩, And.left⟩
      · apply And.intro valid
        intro x
        rw [iff_self_and, Covers]
        intro covered
        cases covered with
        | inl here => exact (Int.not_lt.mp clipped).trans here.1
        | inr rest => exact later x rest

theorem trim_received_spec {ranges : List Int} (valid : Valid ranges) (cutoff : Int) :
    Valid (trimReceived cutoff ranges) ∧
      ∀ x, Covers (trimReceived cutoff ranges) x ↔ Covers ranges x ∧ cutoff ≤ x := by
  match ranges, valid with
  | [], valid => exact ⟨valid, fun x => ⟨fun none => none.elim, fun none => none.1⟩⟩
  | start :: rest, valid =>
      rw [trimReceived]
      split_ifs with old
      · obtain ⟨kept, agree, reach⟩ := drop_ended_spec valid cutoff
        obtain ⟨clipped, left⟩ := clip_spec kept reach
        apply And.intro clipped
        intro x
        rw [left x]
        exact and_congr_left fun inside => agree x inside
      · apply And.intro valid
        intro x
        rw [iff_self_and]
        intro covered
        exact (Int.not_lt.mp old).trans (le_of_covers_cons valid covered)

theorem mem_keys_evict {missing : InsertionMap Int NackInfo} {seq : Int} (cutoff : Int)
    (member : seq ∈ missing.keys) :
    seq ∈ (missing.dropWhile (· < cutoff)).keys ∨ seq < cutoff := by
  obtain ⟨info, inside⟩ := InsertionMap.mem_keys_iff.mp member
  cases @InsertionMap.mem_drop_while_or _ _ missing (· < cutoff) _ inside with
  | inl kept => exact .inl (InsertionMap.mem_keys_iff.mpr ⟨info, kept⟩)
  | inr passed => exact .inr (of_decide_eq_true passed)

theorem evict_old_eq (self : NackGenerator) :
    self.evictOld = if 0 < self.highestExtSeq - self.maxPacketAge then
      { self with
        received := trimReceived (self.highestExtSeq - self.maxPacketAge) self.received
        keyframes := self.keyframes.dropWhile (· < self.highestExtSeq - self.maxPacketAge)
        missing := self.missing.dropWhile (· < self.highestExtSeq - self.maxPacketAge) }
      else self := by
  by_cases unset : self.highestExtSeq < 0
  · rw [evictOld, if_pos unset, if_neg (by omega)]
  · by_cases early : self.highestExtSeq - self.maxPacketAge ≤ 0
    · rw [if_neg (not_lt.mpr early)]
      exact (if_neg unset).trans (if_pos early)
    · rw [if_pos (not_le.mp early)]
      exact (if_neg unset).trans (if_neg early)

/-- The surgery on the bounds is the removal range by range. -/
theorem trim_received_eq_remove_below {ranges : List Int} (valid : Valid ranges) (cutoff : Int) :
    trimReceived cutoff ranges = removeBelow cutoff ranges := by
  obtain ⟨trimmed, left⟩ := trim_received_spec valid cutoff
  apply trimmed.unique (remove_below_valid valid cutoff)
  intro x
  rw [left x, covers_remove_below]

/-- At a positive cutoff, eviction leaves the ranges of what arrived from the cutoff on. -/
theorem evict_old_trims (self : NackGenerator) (valid : Valid self.received)
    (positive : 0 < self.highestExtSeq - self.maxPacketAge) :
    Valid self.evictOld.received ∧
      (∀ x, Covers self.evictOld.received x ↔
        Covers self.received x ∧ self.highestExtSeq - self.maxPacketAge ≤ x) ∧
      self.evictOld.received =
        removeBelow (self.highestExtSeq - self.maxPacketAge) self.received := by
  rw [evict_old_eq, if_pos positive]
  obtain ⟨trimmed, left⟩ := trim_received_spec valid (self.highestExtSeq - self.maxPacketAge)
  exact ⟨trimmed, left, trim_received_eq_remove_below valid _⟩

/-- A window whose edge lies inside the second of three ranges. -/
def straddlingGenerator : NackGenerator where
  maxPacketAge := 6
  maxNackEntries := 1000
  maxNackRetries := 10
  rttMs := 100
  sendNackDelayMs := 0
  received := [1, 4, 6, 9, 12, 14]
  missing := .empty
  keyframes := []
  reorderHistogram := ⟨List.replicate 10 0, [], 128, 0⟩
  highestExtSeq := 13
  started := true
  needKeyframe := false

theorem straddling_generator_trims :
    straddlingGenerator.evictOld.received = [7, 9, 12, 14] ∧
      Valid straddlingGenerator.evictOld.received := by
  have valid : Valid straddlingGenerator.received := ⟨by decide, by decide⟩
  apply And.intro
  · decide +kernel
  · exact (evict_old_trims _ valid (by decide)).1

theorem evict_old_cases (self : NackGenerator) :
    self.evictOld = self ∨
      self.evictOld = { self with
        received := trimReceived (self.highestExtSeq - self.maxPacketAge) self.received
        keyframes := self.keyframes.dropWhile (· < self.highestExtSeq - self.maxPacketAge)
        missing := self.missing.dropWhile (· < self.highestExtSeq - self.maxPacketAge) } := by
  rw [evict_old_eq]
  split_ifs
  · exact .inr rfl
  · exact .inl rfl

theorem evict_old_need_keyframe (self : NackGenerator) :
    self.evictOld.needKeyframe = self.needKeyframe := by
  cases self.evict_old_cases with
  | inl same => rw [same]
  | inr trimmed => rw [trimmed]

/-- What eviction forgets is older than the window. -/
structure Trimmed (before : NackGenerator) (received keyframes : List Int)
    (missing : InsertionMap Int NackInfo) : Prop where
  valid : Valid received
  sound : ∀ x, Covers received x → Covers before.received x
  recent : ∀ x, before.highestExtSeq ≤ x → Covers before.received x → Covers received x
  keyframes_subset : keyframes ⊆ before.keyframes
  origin : ∀ entry ∈ missing.entries, entry ∈ before.missing.entries
  kept : ∀ seq ∈ before.missing.keys, seq ∈ missing.keys ∨
    seq < before.highestExtSeq - before.maxPacketAge

theorem evict_old_spec (self : NackGenerator) (valid : Valid self.received) :
    ∃ received keyframes missing,
      self.evictOld = { self with
        received := received
        keyframes := keyframes
        missing := missing } ∧
      Trimmed self received keyframes missing := by
  cases self.evict_old_cases with
  | inl same =>
      exact ⟨_, _, _, same, valid, fun _ => id, fun _ _ => id, fun _ => id, fun _ => id,
        fun _ => .inl⟩
  | inr trimmed =>
      obtain ⟨kept, left⟩ := trim_received_spec valid (self.highestExtSeq - self.maxPacketAge)
      exact ⟨_, _, _, trimmed, {
        valid := kept
        sound := fun x covered => ((left x).mp covered).1
        recent := fun x high covered => (left x).mpr ⟨covered, by omega⟩
        keyframes_subset := (List.dropWhile_sublist _).subset
        origin := fun _ => InsertionMap.mem_of_mem_drop_while
        kept := fun _ => mem_keys_evict _ }⟩

/-- A number that a packet passes and that did not arrive. -/
structure Revealed (before : NackGenerator) (extSeq seq : Int) : Prop where
  above : before.highestExtSeq < seq
  below : seq < extSeq
  absent : ¬Covers before.received seq

theorem mem_lost {library : Library} (correct : library.Correct) {self : NackGenerator}
    (valid : Valid self.received) {extSeq seq : Int} :
    seq ∈ self.lost library (self.highestExtSeq + 1) extSeq ↔ self.Revealed extSeq seq := by
  have contains : library.contains self.received seq = false ↔ ¬Covers self.received seq := by
    rw [← correct.contains_iff valid, Bool.not_eq_true]
  rw [lost, List.mem_filter, Bool.not_eq_true', contains, span, List.mem_map]
  constructor
  · rintro ⟨⟨i, inside, rfl⟩, absent⟩
    have bound := List.mem_range.mp inside
    exact ⟨by omega, by omega, absent⟩
  · intro revealed
    have above := revealed.above
    have below := revealed.below
    exact ⟨⟨(seq - (self.highestExtSeq + 1)).toNat, List.mem_range.mpr (by omega), by omega⟩,
      revealed.absent⟩

/-- What becomes of the missing entries when a packet passes a gap. -/
structure GapEntered (library : Library) (before : NackGenerator) (clock : ℚ) (extSeq : Int)
    (isKeyframe : Bool) (missing : InsertionMap Int NackInfo) : Prop where
  origin : ∀ entry ∈ missing.entries, entry ∈ before.missing.entries ∨
    before.Revealed extSeq entry.1 ∧ entry.2.sentAt = 0 ∧ entry.2.retries = 0
  kept : ∀ seq, seq ∈ before.missing.keys ∨ before.Revealed extSeq seq → seq ∈ missing.keys ∨
    (isKeyframe = true ∧ seq < extSeq) ∨ (∃ keyframe ∈ before.keyframes, seq < keyframe) ∨
    ∀ flag, (revealGap library { before with needKeyframe := flag } clock extSeq
      isKeyframe).needKeyframe = true

theorem mem_insert_missing {self : NackGenerator} {clock : ℚ} {seqs : List Int}
    {entry : Int × NackInfo} (member : entry ∈ (self.insertMissing clock seqs).missing.entries) :
    entry ∈ self.missing.entries ∨
      entry.1 ∈ seqs ∧ entry.2.sentAt = 0 ∧ entry.2.retries = 0 := by
  cases InsertionMap.mem_set_all member with
  | inl fresh => exact .inr ⟨fresh.1, by rw [fresh.2], by rw [fresh.2]⟩
  | inr old => exact .inl old

theorem mem_keys_insert_missing {self : NackGenerator} {clock : ℚ} {seqs : List Int} {seq : Int} :
    seq ∈ (self.insertMissing clock seqs).missing.keys ↔ seq ∈ seqs ∨ seq ∈ self.missing.keys :=
  InsertionMap.mem_keys_set_all

/-- The missing entries, perhaps without the ones below a keyframe. -/
def Superseded (self : NackGenerator) (missing : InsertionMap Int NackInfo) : Prop :=
  missing = self.missing ∨
    ∃ latestKf ∈ self.keyframes, missing = self.missing.dropWhile (· < latestKf)

theorem Superseded.mem {self : NackGenerator} {missing : InsertionMap Int NackInfo}
    (superseded : self.Superseded missing) {entry : Int × NackInfo}
    (member : entry ∈ missing.entries) : entry ∈ self.missing.entries := by
  cases superseded with
  | inl same => exact same ▸ member
  | inr below =>
      obtain ⟨_, _, rfl⟩ := below
      exact InsertionMap.mem_of_mem_drop_while member

theorem Superseded.mem_keys {self : NackGenerator} {missing : InsertionMap Int NackInfo}
    (superseded : self.Superseded missing) {seq : Int} (member : seq ∈ self.missing.keys) :
    seq ∈ missing.keys ∨ ∃ keyframe ∈ self.keyframes, seq < keyframe := by
  cases superseded with
  | inl same => exact .inl (same ▸ member)
  | inr below =>
      obtain ⟨latestKf, known, rfl⟩ := below
      exact (mem_keys_evict latestKf member).imp_right fun passed => ⟨latestKf, known, passed⟩

theorem evict_superseded_eq (self : NackGenerator) :
    ∃ missing, self.Superseded missing ∧
      ∀ flag, evictSuperseded { self with needKeyframe := flag } =
        { self with
          missing := missing
          needKeyframe := flag } := by
  cases latest : self.keyframes.getLast? with
  | none =>
      refine ⟨self.missing, .inl rfl, ?_⟩
      intro flag
      rw [evictSuperseded, latest]
  | some latestKf =>
      have member := List.mem_of_getLast? latest
      refine ⟨_, .inr ⟨latestKf, member, rfl⟩, ?_⟩
      intro flag
      rw [evictSuperseded, latest]
      rfl

/-- Entering a gap either fits, perhaps once what the latest keyframe supersedes is gone, or
gives everything up and asks for a keyframe. -/
theorem add_missing_range_cases (library : Library) (self : NackGenerator) (clock : ℚ)
    (start stop : Int) :
    (∃ missing, self.Superseded missing ∧
      missing.size + (self.lost library start stop).length ≤ self.maxNackEntries ∧
      self.addMissingRange library clock start stop =
        insertMissing { self with missing := missing } clock (self.lost library start stop)) ∨
    ∀ flag, addMissingRange library { self with needKeyframe := flag } clock start stop =
      { self with
        missing := .empty
        needKeyframe := true } := by
  obtain ⟨missing, origin, evicted⟩ := self.evict_superseded_eq
  by_cases full : self.missing.size + (self.lost library start stop).length > self.maxNackEntries
  · by_cases still : missing.size + (self.lost library start stop).length > self.maxNackEntries
    · right
      intro flag
      exact (if_pos full).trans (by rw [evicted flag]; exact if_pos still)
    · left
      refine ⟨missing, origin, Nat.not_lt.mp still, ?_⟩
      have same : self.evictSuperseded = { self with missing := missing } :=
        evicted self.needKeyframe
      exact (if_pos full).trans (by rw [same]; exact if_neg still)
  · exact .inl ⟨self.missing, .inl rfl, Nat.not_lt.mp full, if_neg full⟩

theorem reveal_gap_spec {library : Library} (correct : library.Correct) (self : NackGenerator)
    (valid : Valid self.received) (clock : ℚ) (extSeq : Int) (isKeyframe : Bool) :
    ∃ missing needKeyframe,
      self.revealGap library clock extSeq isKeyframe = { self with
        missing := missing
        needKeyframe := needKeyframe } ∧
      GapEntered library self clock extSeq isKeyframe missing := by
  by_cases gap : extSeq > self.highestExtSeq + 1
  · cases isKeyframe with
    | true =>
        refine ⟨self.missing.dropWhile (· < extSeq), self.needKeyframe, if_pos gap, ?_, ?_⟩
        · exact fun entry member => .inl (InsertionMap.mem_of_mem_drop_while member)
        · intro seq either
          cases either with
          | inl member =>
              exact (mem_keys_evict extSeq member).imp_right fun below => .inl ⟨rfl, below⟩
          | inr revealed => exact .inr (.inl ⟨rfl, revealed.below⟩)
    | false =>
        have entered (flag : Bool) : revealGap library { self with needKeyframe := flag } clock
            extSeq false = addMissingRange library { self with needKeyframe := flag } clock
              (self.highestExtSeq + 1) extSeq := if_pos gap
        cases self.add_missing_range_cases library clock (self.highestExtSeq + 1) extSeq with
        | inl fits =>
            obtain ⟨missing, superseded, _, added⟩ := fits
            let inserted := insertMissing { self with missing := missing } clock
              (self.lost library (self.highestExtSeq + 1) extSeq)
            refine ⟨inserted.missing, self.needKeyframe, (entered _).trans added, ?_, ?_⟩
            · intro entry member
              cases mem_insert_missing member with
              | inl old => exact .inl (superseded.mem old)
              | inr fresh => exact .inr (fresh.imp_left (mem_lost correct valid).mp)
            · intro seq either
              cases either with
              | inl member =>
                  cases superseded.mem_keys member with
                  | inl kept => exact .inl (mem_keys_insert_missing.mpr (.inr kept))
                  | inr passed => exact .inr (.inr (.inl passed))
              | inr revealed =>
                  have fresh := (mem_lost correct valid).mpr revealed
                  exact .inl (mem_keys_insert_missing.mpr (.inl fresh))
        | inr overflows =>
            refine ⟨.empty, true, (entered _).trans (overflows _), ?_, ?_⟩
            · exact fun entry member => absurd member List.not_mem_nil
            · intro seq _
              refine .inr (.inr (.inr fun flag => ?_))
              rw [entered flag, overflows flag]
  · refine ⟨self.missing, self.needKeyframe, if_neg gap, ?_, ?_⟩
    · exact fun entry member => .inl member
    · intro seq either
      cases either with
      | inl member => exact .inl member
      | inr revealed =>
          have above := revealed.above
          have below := revealed.below
          omega

theorem mem_insert_keyframe {arr : List Int} {extSeq keyframe : Int}
    (member : keyframe ∈ insertKeyframe arr extSeq) : keyframe ∈ arr ∨ keyframe = extSeq := by
  simp only [insertKeyframe] at member
  split_ifs at member
  · simpa using member
  · rw [List.mem_append, List.mem_cons] at member
    rcases member with early | same | late
    · exact .inl (List.mem_of_mem_take early)
    · exact .inr same
    · exact .inl (List.mem_of_mem_drop late)
  · exact .inl member

theorem note_keyframe_eq (self : NackGenerator) (extSeq : Int) (isKeyframe : Bool) :
    ∃ keyframes, self.noteKeyframe extSeq isKeyframe = { self with keyframes := keyframes } ∧
      ∀ keyframe ∈ keyframes,
        keyframe ∈ self.keyframes ∨ isKeyframe = true ∧ keyframe = extSeq := by
  cases isKeyframe with
  | false => exact ⟨self.keyframes, rfl, fun _ => .inl⟩
  | true =>
      exact ⟨insertKeyframe self.keyframes extSeq, rfl,
        fun keyframe member => (mem_insert_keyframe member).imp_right fun same => ⟨rfl, same⟩⟩

theorem note_keyframe_need_keyframe (self : NackGenerator) (extSeq : Int) (isKeyframe : Bool) :
    (self.noteKeyframe extSeq isKeyframe).needKeyframe = self.needKeyframe := by
  cases isKeyframe <;> rfl

def reach (self : NackGenerator) (extSeq : Int) (isRecovered : Bool) : Int :=
  if self.started = false then extSeq
  else if isRecovered then self.highestExtSeq
  else max self.highestExtSeq extSeq

/-- Either nothing but the arrival is noted, or a new highest packet reveals a gap. -/
theorem observe_packet_cases (library : Library) (self : NackGenerator) (clock : ℚ)
    (extSeq : Int) (isKeyframe isRecovered : Bool) :
    (∃ histogram, self.observePacket library clock extSeq isKeyframe isRecovered =
        noteKeyframe { self.arrive library extSeq with
          started := true
          highestExtSeq := self.reach extSeq isRecovered
          reorderHistogram := histogram } extSeq isKeyframe ∧
      ¬(self.started = true ∧ isRecovered = false ∧ self.highestExtSeq < extSeq)) ∨
    (self.started = true ∧ isRecovered = false ∧ self.highestExtSeq < extSeq) ∧
      ∀ flag, observePacket library { self with needKeyframe := flag } clock extSeq isKeyframe
          isRecovered =
        (noteKeyframe
          { revealGap library { self.arrive library extSeq with needKeyframe := flag } clock
              extSeq isKeyframe with
            highestExtSeq := extSeq } extSeq isKeyframe).evictOld := by
  by_cases running : self.started = true
  · cases isRecovered with
    | true =>
        left
        refine ⟨self.reorderHistogram, ?_, fun higher => absurd higher.2.1 (by decide)⟩
        cases self
        cases running
        rfl
    | false =>
        by_cases higher : self.highestExtSeq < extSeq
        · right
          refine ⟨⟨running, rfl, higher⟩, ?_⟩
          intro flag
          cases self
          cases running
          exact if_neg (not_le.mpr higher)
        · left
          have low := not_lt.mp higher
          refine ⟨if extSeq < self.highestExtSeq then
              self.reorderHistogram.add (self.highestExtSeq - extSeq)
            else self.reorderHistogram, ?_, fun some => higher some.2.2⟩
          have same : self.reach extSeq false = self.highestExtSeq := by
            simp [reach, running, low]
          rw [same]
          cases self
          cases running
          apply (if_pos low).trans
          split_ifs <;> rfl
  · left
    refine ⟨self.reorderHistogram, ?_, fun some => running some.1⟩
    have idle : self.started = false := Bool.eq_false_iff.mpr running
    have same : self.reach extSeq isRecovered = extSeq := if_pos idle
    rw [same]
    cases self
    cases idle
    rfl

structure SameSettings (before after : NackGenerator) : Prop where
  maxPacketAge : after.maxPacketAge = before.maxPacketAge
  maxNackRetries : after.maxNackRetries = before.maxNackRetries
  rttMs : after.rttMs = before.rttMs

structure Arrival (library : Library) (before : NackGenerator) (clock : ℚ) (extSeq : Int)
    (isKeyframe isRecovered : Bool) (after : NackGenerator) : Prop where
  settings : SameSettings before after
  started : after.started = true
  highest : after.highestExtSeq = before.reach extSeq isRecovered
  valid : Valid after.received
  sound : ∀ x, Covers after.received x → Covers before.received x ∨ x = extSeq
  recent : ∀ x, after.highestExtSeq ≤ x → Covers before.received x ∨ x = extSeq →
    Covers after.received x
  keyframes : ∀ keyframe ∈ after.keyframes,
    keyframe ∈ before.keyframes ∨ isKeyframe = true ∧ keyframe = extSeq
  origin : ∀ entry ∈ after.missing.entries, entry.1 ≠ extSeq ∧
    (entry ∈ before.missing.entries ∨
      (before.started = true ∧ isRecovered = false ∧ before.Revealed extSeq entry.1) ∧
        entry.2.sentAt = 0 ∧ entry.2.retries = 0)
  kept : ∀ seq, seq ≠ extSeq →
    seq ∈ before.missing.keys ∨
      (before.started = true ∧ isRecovered = false ∧ before.Revealed extSeq seq) →
    seq ∈ after.missing.keys ∨ seq < after.highestExtSeq - after.maxPacketAge ∨
      (∃ keyframe, (keyframe ∈ before.keyframes ∨ isKeyframe = true ∧ keyframe = extSeq) ∧
        seq < keyframe) ∨
      ∀ flag, (observePacket library { before with needKeyframe := flag } clock extSeq isKeyframe
        isRecovered).needKeyframe = true

theorem mem_keys_erase {missing : InsertionMap Int NackInfo} {seq extSeq : Int} :
    seq ∈ (missing.erase extSeq).keys ↔ seq ∈ missing.keys ∧ seq ≠ extSeq := by
  simp only [InsertionMap.mem_keys_iff, InsertionMap.mem_erase, exists_and_right]

section Arriving

variable {library : Library} (correct : library.Correct) {before : NackGenerator}
  (valid : Valid before.received) {extSeq : Int}

include correct valid

theorem arrive_valid : Valid (before.arrive library extSeq).received :=
  correct.add_valid valid (Int.lt_succ extSeq)

theorem covers_arrive {x : Int} :
    Covers (before.arrive library extSeq).received x ↔ Covers before.received x ∨ x = extSeq := by
  have one : extSeq ≤ x ∧ x < extSeq + 1 ↔ x = extSeq := by omega
  rw [← one]
  exact correct.covers_add valid (Int.lt_succ extSeq)

theorem revealed_arrive {seq : Int} :
    (before.arrive library extSeq).Revealed extSeq seq ↔ before.Revealed extSeq seq := by
  constructor
  · intro revealed
    exact ⟨revealed.above, revealed.below,
      fun covered => revealed.absent ((covers_arrive correct valid).mpr (.inl covered))⟩
  · intro revealed
    refine ⟨revealed.above, revealed.below, ?_⟩
    rw [covers_arrive correct valid, not_or]
    exact ⟨revealed.absent, revealed.below.ne⟩

theorem observe_packet_arrival (clock : ℚ) (isKeyframe isRecovered : Bool) :
    Arrival library before clock extSeq isKeyframe isRecovered
      (before.observePacket library clock extSeq isKeyframe isRecovered) := by
  have arriveValid : Valid (before.arrive library extSeq).received := arrive_valid correct valid
  cases before.observe_packet_cases library clock extSeq isKeyframe isRecovered with
  | inl noted =>
      obtain ⟨histogram, observed, quiet⟩ := noted
      obtain ⟨keyframes, marked, marks⟩ := note_keyframe_eq
        { before.arrive library extSeq with
          started := true
          highestExtSeq := before.reach extSeq isRecovered
          reorderHistogram := histogram } extSeq isKeyframe
      rw [observed, marked]
      exact {
        settings := ⟨rfl, rfl, rfl⟩
        started := rfl
        highest := rfl
        valid := arriveValid
        sound := fun x => (covers_arrive correct valid).mp
        recent := fun x _ => (covers_arrive correct valid).mpr
        keyframes := marks
        origin := by
          intro entry member
          obtain ⟨old, different⟩ := InsertionMap.mem_erase.mp member
          exact ⟨different, .inl old⟩
        kept := by
          intro seq different either
          cases either with
          | inl member => exact .inl (mem_keys_erase.mpr ⟨member, different⟩)
          | inr revealed =>
              obtain ⟨running, direct, gap⟩ := revealed
              exact absurd ⟨running, direct, gap.above.trans gap.below⟩ quiet }
  | inr jumped =>
      obtain ⟨⟨running, direct, higher⟩, observed⟩ := jumped
      obtain ⟨entered, needKeyframe, gap, missing⟩ :=
        reveal_gap_spec correct (before.arrive library extSeq) arriveValid clock extSeq isKeyframe
      obtain ⟨keyframes, marked, marks⟩ := note_keyframe_eq
        { before.arrive library extSeq with
          missing := entered
          needKeyframe := needKeyframe
          highestExtSeq := extSeq } extSeq isKeyframe
      obtain ⟨received, recentKeyframes, left, evicted, trimmed⟩ := evict_old_spec
        { before.arrive library extSeq with
          missing := entered
          needKeyframe := needKeyframe
          highestExtSeq := extSeq
          keyframes := keyframes } arriveValid
      have reached : before.reach extSeq isRecovered = extSeq := by
        rw [direct]
        simp [reach, running, higher.le]
      have whole : before.observePacket library clock extSeq isKeyframe isRecovered =
          { before.arrive library extSeq with
            missing := left
            needKeyframe := needKeyframe
            highestExtSeq := extSeq
            keyframes := recentKeyframes
            received := received } := by
        have unflagged : { before.arrive library extSeq with
          needKeyframe := before.needKeyframe } = before.arrive library extSeq := rfl
        apply (observed before.needKeyframe).trans
        rw [unflagged, gap, marked, evicted]
      rw [whole]
      exact {
        settings := ⟨rfl, rfl, rfl⟩
        started := running
        highest := reached.symm
        valid := trimmed.valid
        sound := fun x covered => (covers_arrive correct valid).mp (trimmed.sound x covered)
        recent := fun x high known =>
          trimmed.recent x high ((covers_arrive correct valid).mpr known)
        keyframes := fun keyframe member => marks keyframe (trimmed.keyframes_subset member)
        origin := by
          intro entry member
          cases missing.origin entry (trimmed.origin entry member) with
          | inl old =>
              obtain ⟨stays, different⟩ := InsertionMap.mem_erase.mp old
              exact ⟨different, .inl stays⟩
          | inr fresh =>
              obtain ⟨revealed, unsent⟩ := fresh
              have shown := (revealed_arrive correct valid).mp revealed
              exact ⟨revealed.below.ne, .inr ⟨⟨running, direct, shown⟩, unsent⟩⟩
        kept := by
          intro seq different either
          have arrived : seq ∈ (before.arrive library extSeq).missing.keys ∨
              (before.arrive library extSeq).Revealed extSeq seq := by
            cases either with
            | inl member => exact .inl (mem_keys_erase.mpr ⟨member, different⟩)
            | inr revealed => exact .inr ((revealed_arrive correct valid).mpr revealed.2.2)
          rcases missing.kept seq arrived with stays | passed | ⟨keyframe, known, passed⟩ | raised
          · exact (trimmed.kept seq stays).imp_right .inl
          · exact .inr (.inr (.inl ⟨extSeq, .inr ⟨passed.1, rfl⟩, passed.2⟩))
          · exact .inr (.inr (.inl ⟨keyframe, .inl known, passed⟩))
          · refine .inr (.inr (.inr fun flag => ?_))
            rw [observed flag, evict_old_need_keyframe, note_keyframe_need_keyframe]
            exact raised flag }

end Arriving

end NackGenerator

end RtpPacket.Nack
