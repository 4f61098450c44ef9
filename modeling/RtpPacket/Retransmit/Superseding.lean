import RtpPacket.Retransmit.Backlog

/-!
# What a keyframe supersedes

The decoder restarts at a keyframe, so nothing below it is worth asking for. The eviction is
part of what a gap does: a keyframe right behind the highest packet leaves the missing numbers
that are not too old.
-/

namespace RtpPacket.Nack

open FlatRanges Run Word

set_option autoImplicit false

def NewHighest (reached : NackGenerator) (extSeq : Int) : Prop :=
  reached.started = true → reached.highestExtSeq < extSeq

instance (reached : NackGenerator) (extSeq : Int) : Decidable (NewHighest reached extSeq) :=
  inferInstanceAs (Decidable (_ → _))

/-- The age that eviction goes by once `extSeq` is the highest number. -/
def TooOld (reached : NackGenerator) (extSeq seq : Int) : Prop :=
  0 < extSeq - reached.maxPacketAge ∧ seq < extSeq - reached.maxPacketAge

instance (reached : NackGenerator) (extSeq seq : Int) : Decidable (TooOld reached extSeq seq) :=
  inferInstanceAs (Decidable (_ ∧ _))

/-- A keyframe without a gap before it finds nothing missing but what is too old. -/
def EvictsAll (reached : NackGenerator) : NackEvent → Prop
  | .observePacket _ extSeq true false =>
      extSeq = reached.highestExtSeq + 1 → ∀ seq ∈ reached.missing.keys, TooOld reached extSeq seq
  | _ => True

instance (reached : NackGenerator) (event : NackEvent) : Decidable (EvictsAll reached event) := by
  unfold EvictsAll
  split
  · infer_instance
  · infer_instance

/-- No feedback after a keyframe lists a number below it. -/
def NoneBelowKeyframes (library : Library) (start : NackGenerator) (events : List NackEvent) :
    Prop :=
  ∀ earlier clock keyframe between now later,
    events = earlier ++ .observePacket clock keyframe true false ::
      (between ++ .buildFeedback now :: later) →
    NewHighest (run (NackGenerator.step library) start earlier).1 keyframe →
    ∀ request ∈ ((run (NackGenerator.step library) start
        (earlier ++ .observePacket clock keyframe true false :: between)).1.step library
          (.buildFeedback now)).2,
      keyframe ≤ request.seq

/-- What feedback returns after a keyframe are the sixteen bits of numbers from it on. -/
def ReturnsFromKeyframes (library : Library) (start : NackGenerator) (events : List NackEvent) :
    Prop :=
  ∀ earlier clock keyframe between now later,
    events = earlier ++ .observePacket clock keyframe true false ::
      (between ++ .buildFeedback now :: later) →
    NewHighest (run (NackGenerator.step library) start earlier).1 keyframe →
    ∀ number ∈ ((run (NackGenerator.step library) start
        (earlier ++ .observePacket clock keyframe true false :: between)).1.buildFeedback now).2,
      ∃ seq, keyframe ≤ seq ∧ number = wrapUnsigned 16 seq

theorem NoneBelowKeyframes.returns {library : Library} {start : NackGenerator}
    {events : List NackEvent} (none : NoneBelowKeyframes library start events) :
    ReturnsFromKeyframes library start events := by
  intro earlier clock keyframe between now later split highest number member
  rw [NackGenerator.build_feedback_list library] at member
  obtain ⟨request, listed, rfl⟩ := List.mem_map.mp member
  exact ⟨request.seq, none earlier clock keyframe between now later split highest request listed,
    rfl⟩

theorem mem_keys_evict_below {missing : InsertionMap Int NackInfo}
    (ascending : missing.keys.Pairwise (· < ·)) {cutoff seq : Int} :
    seq ∈ (missing.dropWhile (· < cutoff)).keys ↔ seq ∈ missing.keys ∧ cutoff ≤ seq := by
  simp only [InsertionMap.mem_keys_iff, InsertionMap.drop_while_ascending ascending,
    List.mem_filter, decide_eq_true_iff, exists_and_right]

namespace NackGenerator

variable {library : Library} {limit : Nat} {self : NackGenerator}

theorem mem_evict_old_keys (ascending : self.missing.keys.Pairwise (· < ·)) {seq : Int} :
    seq ∈ self.evictOld.missing.keys ↔
      seq ∈ self.missing.keys ∧ ¬TooOld self self.highestExtSeq seq := by
  rw [evict_old_eq, TooOld]
  split_ifs with late
  · refine (mem_keys_evict_below ascending).trans (and_congr_right fun _ => ?_)
    omega
  · exact (and_iff_left (by omega)).symm

theorem reveal_gap_keyframe (library : Library) (self : NackGenerator) (clock : ℚ)
    (extSeq : Int) : self.revealGap library clock extSeq true = { self with
      missing := if extSeq > self.highestExtSeq + 1 then self.missing.dropWhile (· < extSeq)
        else self.missing } := by
  rw [revealGap]
  by_cases gap : extSeq > self.highestExtSeq + 1
  · rw [if_pos gap, if_pos gap]
    rfl
  · rw [if_neg gap, if_neg gap]

theorem mem_keys_keyframe (correct : library.Correct) (orderly : Orderly limit self)
    (running : self.started = true) {clock : ℚ} {extSeq : Int}
    (higher : self.highestExtSeq < extSeq) {seq : Int} :
    seq ∈ (self.observePacket library clock extSeq true false).missing.keys ↔
      seq ∈ self.missing.keys ∧ extSeq = self.highestExtSeq + 1 ∧ ¬TooOld self extSeq seq := by
  cases self.observe_packet_cases library clock extSeq true false with
  | inl noted =>
      obtain ⟨_, _, quiet⟩ := noted
      exact absurd ⟨running, rfl, higher⟩ quiet
  | inr jumped =>
      have observed := jumped.2 self.needKeyframe
      have arrived := orderly.arrived correct extSeq (@le_rfl _ _ self.highestExtSeq)
      have ascending : (if extSeq > self.highestExtSeq + 1 then
          (self.arrive library extSeq).missing.dropWhile (· < extSeq)
          else (self.arrive library extSeq).missing).keys.Pairwise (· < ·) := by
        split_ifs
        · exact arrived.ascending.sublist (InsertionMap.keys_drop_while_sublist _ _)
        · exact arrived.ascending
      have erased : seq ∈ (self.arrive library extSeq).missing.keys ↔
          seq ∈ self.missing.keys := by
        refine mem_keys_erase.trans (and_iff_left_of_imp ?_)
        intro member same
        have below := orderly.backlog.below seq member
        omega
      have unflagged : { self.arrive library extSeq with needKeyframe := self.needKeyframe } =
          self.arrive library extSeq := rfl
      have left := @mem_evict_old_keys
        (noteKeyframe { self.arrive library extSeq with
          missing := if extSeq > self.highestExtSeq + 1 then
            (self.arrive library extSeq).missing.dropWhile (· < extSeq)
            else (self.arrive library extSeq).missing
          highestExtSeq := extSeq } extSeq true) ascending seq
      have same : { self with needKeyframe := self.needKeyframe } = self := rfl
      rw [unflagged, reveal_gap_keyframe, same] at observed
      rw [observed]
      refine left.trans ?_
      change _ ∧ ¬TooOld self extSeq seq ↔ _
      rw [← and_assoc]
      apply and_congr_left'
      change seq ∈ (if extSeq > self.highestExtSeq + 1 then
          (self.arrive library extSeq).missing.dropWhile (· < extSeq)
          else (self.arrive library extSeq).missing).keys ↔ _
      split_ifs with gap
      · rw [mem_keys_evict_below arrived.ascending, erased]
        constructor
        · intro both
          have below := orderly.backlog.below seq both.1
          omega
        · intro both
          omega
      · rw [erased]
        exact (and_iff_left (by omega)).symm

end NackGenerator

/-- Exactly then nothing below the keyframe stays. -/
theorem keyframe_evicts_iff {library : Library} (correct : library.Correct) {limit : Nat}
    {reached : NackGenerator} (orderly : Orderly limit reached) {clock : ℚ} {keyframe : Int}
    (highest : NewHighest reached keyframe) :
    (∀ seq ∈ (reached.observePacket library clock keyframe true false).missing.keys,
        keyframe ≤ seq) ↔
      EvictsAll reached (.observePacket clock keyframe true false) := by
  by_cases running : reached.started = true
  · have left {seq : Int} := @NackGenerator.mem_keys_keyframe library limit reached correct orderly
      running clock keyframe (highest running) seq
    have higher := highest running
    constructor
    · intro above next seq member
      by_contra recent
      have stays := above seq (left.mpr ⟨member, next, recent⟩)
      have below := orderly.backlog.below seq member
      omega
    · intro evicts seq member
      obtain ⟨missing, next, recent⟩ := left.mp member
      exact absurd (evicts next seq missing) recent
  · have idle := Bool.eq_false_iff.mpr running
    have none := orderly.idle idle
    apply iff_of_true
    · intro seq member
      obtain ⟨info, inside⟩ := InsertionMap.mem_keys_iff.mp member
      obtain ⟨_, origin⟩ := (NackGenerator.observe_packet_arrival correct orderly.valid clock true
        false).origin _ inside
      cases origin with
      | inl old =>
          have known := InsertionMap.mem_keys_iff.mpr ⟨info, old⟩
          rw [none] at known
          cases known
      | inr fresh => exact absurd fresh.1.1 running
    · intro _ seq member
      rw [none] at member
      cases member

/-- Everything missing is above the keyframe, and so is everything that will be. -/
structure Restarted (keyframe : Int) (reached : NackGenerator) : Prop where
  started : reached.started = true
  high : keyframe ≤ reached.highestExtSeq
  valid : Valid reached.received
  above : ∀ seq ∈ reached.missing.keys, keyframe ≤ seq

section Restarting

variable {library : Library} {keyframe : Int} {reached : NackGenerator}

theorem Restarted.observe_packet (correct : library.Correct) (restarted : Restarted keyframe reached)
    (clock : ℚ) (extSeq : Int) (isKeyframe isRecovered : Bool) :
    Restarted keyframe (reached.observePacket library clock extSeq isKeyframe isRecovered) := by
  have arrival : reached.Arrival library clock extSeq isKeyframe isRecovered _ :=
    NackGenerator.observe_packet_arrival correct restarted.valid clock isKeyframe isRecovered
  constructor
  · exact arrival.started
  · rw [arrival.highest]
    exact restarted.high.trans (NackGenerator.le_reach restarted.started extSeq isRecovered)
  · exact arrival.valid
  · intro seq member
    obtain ⟨info, inside⟩ := InsertionMap.mem_keys_iff.mp member
    cases (arrival.origin _ inside).2 with
    | inl old => exact restarted.above seq (InsertionMap.mem_keys_iff.mpr ⟨info, old⟩)
    | inr fresh => exact restarted.high.trans fresh.1.2.2.above.le

theorem Restarted.step (correct : library.Correct) (restarted : Restarted keyframe reached)
    {event : NackEvent} (kept : event ≠ .reset) :
    Restarted keyframe (reached.step library event).1 := by
  cases event with
  | observePacket clock extSeq isKeyframe isRecovered =>
      exact restarted.observe_packet correct clock extSeq isKeyframe isRecovered
  | buildFeedback now =>
      have drained := reached.build_feedback_drained restarted.valid now
      constructor
      · exact drained.started.trans restarted.started
      · exact restarted.high.trans_eq drained.highest.symm
      · exact drained.valid
      · intro seq member
        obtain ⟨_, inside⟩ := InsertionMap.mem_keys_iff.mp member
        obtain ⟨info, known, _⟩ := drained.origin _ inside
        exact restarted.above seq (InsertionMap.mem_keys_iff.mpr ⟨info, known⟩)
  | updateRtt rttMs =>
      obtain ⟨rtt, updated⟩ := update_rtt_eq reached rttMs
      rw [NackGenerator.step, updated]
      exact ⟨restarted.started, restarted.high, restarted.valid, restarted.above⟩
  | acknowledgeKeyframeRequested =>
      exact ⟨restarted.started, restarted.high, restarted.valid, restarted.above⟩
  | reset => exact absurd rfl kept

theorem Restarted.run (correct : library.Correct) (restarted : Restarted keyframe reached)
    {events : List NackEvent} (kept : .reset ∉ events) :
    Restarted keyframe (run (NackGenerator.step library) reached events).1 := by
  induction events generalizing reached with
  | nil => exact restarted
  | cons event rest ih =>
      rw [List.mem_cons, not_or] at kept
      exact ih (restarted.step correct (Ne.symm kept.1)) kept.2

theorem Restarted.listed (restarted : Restarted keyframe reached) (now : ℚ) :
    ∀ request ∈ (reached.step library (.buildFeedback now)).2, keyframe ≤ request.seq := by
  intro request member
  obtain ⟨seq, listed, rfl⟩ := List.mem_map.mp member
  obtain ⟨info, known, _⟩ :=
    (reached.build_feedback_drained restarted.valid now).listed seq listed
  exact restarted.above seq (InsertionMap.mem_keys_iff.mpr ⟨info, known⟩)

end Restarting

theorem keyframe_restarts {library : Library} (correct : library.Correct) {limit : Nat}
    {reached : NackGenerator} (orderly : Orderly limit reached) {clock : ℚ} {keyframe : Int}
    (highest : NewHighest reached keyframe)
    (evicts : EvictsAll reached (.observePacket clock keyframe true false)) :
    Restarted keyframe (reached.observePacket library clock keyframe true false) := by
  have arrival : reached.Arrival library clock keyframe true false _ :=
    NackGenerator.observe_packet_arrival correct orderly.valid clock true false
  constructor
  · exact arrival.started
  · rw [arrival.highest, NackGenerator.reach]
    by_cases idle : reached.started = false
    · rw [if_pos idle]
    · rw [if_neg idle]
      exact le_max_right reached.highestExtSeq keyframe
  · exact arrival.valid
  · exact (keyframe_evicts_iff correct orderly highest).mpr evicts

/-- A keyframe that arrives as the new highest packet leaves nothing missing below it exactly
when a gap comes before it or what is missing is too old anyway. In a run where every such
keyframe does, no later feedback lists a number below one. -/
theorem keyframes_supersede {library : Library} (correct : library.Correct) {opts : NackOptions}
    {start : NackGenerator} (built : NackGenerator.new opts = .ok start)
    {events : List NackEvent} (kept : .reset ∉ events) :
    (∀ earlier clock keyframe later,
      events = earlier ++ .observePacket clock keyframe true false :: later →
      NewHighest (run (NackGenerator.step library) start earlier).1 keyframe →
      ((∀ seq ∈ ((run (NackGenerator.step library) start earlier).1.observePacket library clock
          keyframe true false).missing.keys, keyframe ≤ seq) ↔
        EvictsAll (run (NackGenerator.step library) start earlier).1
          (.observePacket clock keyframe true false))) ∧
    (Always (NackGenerator.step library) EvictsAll start events →
      NoneBelowKeyframes library start events ∧ ReturnsFromKeyframes library start events) := by
  constructor
  · intro earlier clock keyframe later _ highest
    exact keyframe_evicts_iff correct (run_orderly correct built earlier) highest
  · intro evicts
    have none : NoneBelowKeyframes library start events := by
      intro earlier clock keyframe between now later split highest
      rw [split, always_append] at evicts
      have restarted := keyframe_restarts correct (run_orderly correct built earlier) highest
        evicts.2.1
      have quiet : NackEvent.reset ∉ between := by
        intro inside
        apply kept
        rw [split]
        exact List.mem_append_right _ (List.mem_cons_of_mem _ (List.mem_append_left _ inside))
      rw [run_append]
      exact (restarted.run correct quiet).listed now
    exact ⟨none, none.returns⟩

/-- A gap, and a keyframe behind another gap. -/
theorem keyframe_behind_gap_supersedes :
    NoneBelowKeyframes reference defaultGenerator [.observePacket 0 1 false false,
      .observePacket 0 4 false false, .observePacket 0 6 true false, .buildFeedback 10] :=
  ((keyframes_supersede reference_correct
    (show NackGenerator.new ⟨none, none, none, none, none, none, none⟩ = .ok defaultGenerator
      from rfl) (by decide)).2 (by decide +kernel)).1

/-- The keyframe comes right behind the highest packet, and 2 and 3 are asked for. -/
theorem keyframe_not_always_supersedes :
    ¬ ∀ (opts : NackOptions) (start : NackGenerator), NackGenerator.new opts = .ok start →
      ∀ events : List NackEvent, .reset ∉ events → NoneBelowKeyframes reference start events := by
  intro always
  have none := always ⟨none, none, none, none, none, none, none⟩ defaultGenerator rfl
    [.observePacket 0 1 false false, .observePacket 0 4 false false,
      .observePacket 0 5 true false, .buildFeedback 10] (by decide)
    [.observePacket 0 1 false false, .observePacket 0 4 false false] 0 5 [] 10 [] rfl
    (by decide +kernel) ⟨2, 10, 100⟩ (by decide +kernel)
  exact absurd none (by decide)

end RtpPacket.Nack
