import RtpPacket.Retransmit.Nacks

/-!
# No loss is forgotten

A number that was passed and never observed is missing, unless it was asked for often
enough, is too old, lies below a keyframe or was given up for a new keyframe.
-/

namespace RtpPacket.Nack

open FlatRanges Run Word

set_option autoImplicit false

def keyframesOf (past : List NackEvent) : List Int :=
  past.filterMap fun
    | .observePacket _ extSeq true _ => some extSeq
    | _ => none

/-- The event sets `_needKeyframe`, whether it was set before or not. -/
def Raises (library : Library) (reached : NackGenerator) (event : NackEvent) : Prop :=
  (reached.acknowledgeKeyframeRequested.step library event).1.needKeyframe = true

/-- A keyframe was asked for by the packet that passed `seq` or later. -/
def GivenUp (library : Library) (start : NackGenerator) (past : List NackEvent) (seq : Int) :
    Prop :=
  ∃ earlier event later, past = earlier ++ event :: later ∧
    Raises library (run (NackGenerator.step library) start earlier).1 event ∧
    seq < (run (NackGenerator.step library) start (earlier ++ [event])).1.highestExtSeq

/-- Where a loss may have gone. -/
def Accounted (library : Library) (start : NackGenerator) (past : List NackEvent)
    (reached : NackGenerator) (sent : List Request) (seq : Int) : Prop :=
  seq ∈ reached.missing.keys ∨ start.maxNackRetries ≤ (asked sent seq).length ∨
    seq < reached.highestExtSeq - start.maxPacketAge ∨
    (∃ keyframe ∈ keyframesOf past, seq < keyframe) ∨ GivenUp library start past seq

structure Accounting (library : Library) (start : NackGenerator) (past : List NackEvent)
    (reached : NackGenerator) (sent : List Request) : Prop where
  top : reached.started = true → reached.highestExtSeq ∈ observed past
  keyframes : ∀ keyframe ∈ reached.keyframes, keyframe ∈ keyframesOf past
  tallied : ∀ entry ∈ reached.missing.entries, entry.2.retries ≤ (asked sent entry.1).length
  complete : ∀ first ∈ (observed past).head?, ∀ seq, first < seq → seq < reached.highestExtSeq →
    seq ∉ observed past → Accounted library start past reached sent seq

section Steps

variable {library : Library} {start reached after : NackGenerator} {past : List NackEvent}
  {sent : List Request} {seq : Int} {event : NackEvent}

theorem GivenUp.later (given : GivenUp library start past seq) (more : List NackEvent) :
    GivenUp library start (past ++ more) seq := by
  obtain ⟨earlier, event, later, rfl, raised, passed⟩ := given
  exact ⟨earlier, event, later ++ more, by simp, raised, passed⟩

theorem mem_keyframes_snoc {keyframe : Int} (known : keyframe ∈ keyframesOf past) :
    keyframe ∈ keyframesOf (past ++ [event]) := by
  rw [keyframesOf, List.filterMap_append]
  exact List.mem_append_left _ known

theorem Accounted.later (accounted : Accounted library start past reached sent seq)
    (grows : reached.highestExtSeq ≤ after.highestExtSeq) (more : List Request)
    (missing : seq ∈ reached.missing.keys →
      Accounted library start (past ++ [event]) after (sent ++ more) seq) :
    Accounted library start (past ++ [event]) after (sent ++ more) seq := by
  rcases accounted with here | often | old | ⟨keyframe, known, below⟩ | given
  · exact missing here
  · refine .inr (.inl (often.trans ?_))
    rw [asked_append, List.length_append]
    exact Nat.le_add_right _ _
  · exact .inr (.inr (.inl (old.trans_le (Int.sub_le_sub_right grows _))))
  · exact .inr (.inr (.inr (.inl ⟨keyframe, mem_keyframes_snoc known, below⟩)))
  · exact .inr (.inr (.inr (.inr (given.later [event]))))

theorem given_up_now
    (raised : Raises library (run (NackGenerator.step library) start past).1 event)
    (passed : seq < ((run (NackGenerator.step library) start past).1.step library
      event).1.highestExtSeq) : GivenUp library start (past ++ [event]) seq := by
  refine ⟨past, event, [], rfl, raised, ?_⟩
  rw [run_append]
  exact passed

theorem passed_or_revealed (seen : Seen start past reached)
    (top : reached.started = true → reached.highestExtSeq ∈ observed past) {extSeq : Int}
    {isRecovered : Bool} {first : Int} (isFirst : first ∈ (observed past ++ [extSeq]).head?)
    (low : first < seq) (high : seq < reached.reach extSeq isRecovered)
    (unseen : seq ∉ observed past) :
    reached.started = true ∧ (seq < reached.highestExtSeq ∨
      isRecovered = false ∧ reached.Revealed extSeq seq) := by
  cases running : reached.started with
  | false =>
      rw [NackGenerator.reach_idle running] at high
      rw [seen.idle running] at isFirst
      obtain rfl := Option.some.inj isFirst
      exact absurd low (not_lt.mpr high.le)
  | true =>
      apply And.intro rfl
      by_cases before : seq < reached.highestExtSeq
      · exact .inl before
      · right
        have different : seq ≠ reached.highestExtSeq := by
          intro same
          exact unseen (same ▸ top running)
        rw [NackGenerator.reach, if_neg (by rw [running]; decide)] at high
        cases isRecovered with
        | true => exact absurd high before
        | false =>
            have below : seq < extSeq := (lt_max_iff.mp high).resolve_left before
            exact ⟨rfl, lt_of_le_of_ne (not_lt.mp before) different.symm, below,
              fun covered => unseen (seen.sound seq covered)⟩

theorem Accounting.arrival (correct : library.Correct)
    (seen : Seen start past (run (NackGenerator.step library) start past).1)
    (accounting : Accounting library start past
      (run (NackGenerator.step library) start past).1 sent)
    (clock : ℚ) (extSeq : Int) (isKeyframe isRecovered : Bool) :
    Accounting library start (past ++ [.observePacket clock extSeq isKeyframe isRecovered])
      ((run (NackGenerator.step library) start past).1.observePacket library clock extSeq isKeyframe
        isRecovered) (sent ++ []) := by
  generalize reached_eq : (run (NackGenerator.step library) start past).1 = reached
    at seen accounting
  have arrival : reached.Arrival library clock extSeq isKeyframe isRecovered _ :=
    NackGenerator.observe_packet_arrival correct seen.valid clock isKeyframe isRecovered
  have known (keyframe : Int) (either : keyframe ∈ reached.keyframes ∨
      isKeyframe = true ∧ keyframe = extSeq) :
      keyframe ∈ keyframesOf (past ++ [.observePacket clock extSeq isKeyframe isRecovered]) := by
    cases either with
    | inl old => exact mem_keyframes_snoc (accounting.keyframes keyframe old)
    | inr new =>
        rw [new.1, new.2, keyframesOf, List.filterMap_append]
        exact List.mem_append_right _ List.mem_cons_self
  constructor
  case top =>
    intro _
    rw [observed_snoc, arrival.highest, NackGenerator.reach]
    split_ifs with idle direct
    · exact List.mem_append_right _ List.mem_cons_self
    · exact List.mem_append_left _ (accounting.top (Bool.eq_true_of_not_eq_false idle))
    · cases max_choice reached.highestExtSeq extSeq with
      | inl same =>
          rw [same]
          exact List.mem_append_left _ (accounting.top (Bool.eq_true_of_not_eq_false idle))
      | inr same =>
          rw [same]
          exact List.mem_append_right _ List.mem_cons_self
  case keyframes => exact fun keyframe member => known keyframe (arrival.keyframes keyframe member)
  case tallied =>
    intro entry member
    obtain ⟨_, origin⟩ := arrival.origin entry member
    rw [List.append_nil]
    cases origin with
    | inl old => exact accounting.tallied entry old
    | inr fresh =>
        rw [fresh.2.2]
        exact Nat.zero_le _
  case complete =>
    intro first isFirst seq low high unseen
    rw [observed_snoc] at isFirst unseen
    rw [List.mem_append, List.mem_singleton, not_or] at unseen
    obtain ⟨unseen, different⟩ := unseen
    have passed := high
    rw [arrival.highest] at passed
    obtain ⟨running, either⟩ :=
      passed_or_revealed seen accounting.top isFirst low passed unseen
    have missing (here : seq ∈ reached.missing.keys ∨ (reached.started = true ∧
        isRecovered = false ∧ reached.Revealed extSeq seq)) :
        Accounted library start
          (past ++ [.observePacket clock extSeq isKeyframe isRecovered])
          (reached.observePacket library clock extSeq isKeyframe isRecovered) (sent ++ []) seq := by
      rcases arrival.kept seq different here with kept | old | ⟨keyframe, isKnown, below⟩ | raised
      · exact .inl kept
      · rw [arrival.settings.maxPacketAge, seen.maxPacketAge] at old
        exact .inr (.inr (.inl old))
      · exact .inr (.inr (.inr (.inl ⟨keyframe, known keyframe isKnown, below⟩)))
      · refine .inr (.inr (.inr (.inr (given_up_now ?_ ?_))))
        · rw [reached_eq]
          exact raised false
        · rw [reached_eq]
          exact high
    cases either with
    | inl before =>
        obtain ⟨least, isLeast, _⟩ := seen.running running
        have same : first = least := by
          rw [List.head?_append, Option.mem_def.mp isLeast] at isFirst
          exact (Option.some.inj isFirst).symm
        have grows : reached.highestExtSeq ≤ (reached.observePacket library clock extSeq isKeyframe
            isRecovered).highestExtSeq := by
          rw [arrival.highest]
          exact NackGenerator.le_reach running extSeq isRecovered
        exact (accounting.complete first (same ▸ isLeast) seq low before unseen).later grows []
          fun member => missing (.inl member)
    | inr revealed => exact missing (.inr ⟨running, revealed⟩)

theorem NackGenerator.retries_touch_le (reached : NackGenerator) (now : ℚ) (info : NackInfo) :
    (reached.touch now info).retries ≤ info.retries + 1 := by
  by_cases sends : reached.turn now info = .send
  · rw [NackGenerator.touch_sent sends]
    simp only
    split_ifs
    · exact Nat.le_add_left 1 _
    · exact le_rfl
  · rw [NackGenerator.touch_waiting sends]
    exact Nat.le_succ _

theorem Accounting.drained (seen : Seen start past reached)
    (accounting : Accounting library start past reached sent) {now : ℚ}
    (drained : reached.Drained now after) :
    Accounting library start (past ++ [.buildFeedback now]) after
      (sent ++ (reached.listed now).map fun seq => ⟨seq, now, reached.rttMs⟩) := by
  have nodup : (reached.listed now).Nodup := NackGenerator.taking_nodup ..
  have same : observed (past ++ [.buildFeedback now]) = observed past := observed_silent rfl past
  constructor
  case top =>
    rw [drained.started, drained.highest, same]
    exact accounting.top
  case keyframes =>
    intro keyframe member
    exact mem_keyframes_snoc (accounting.keyframes keyframe (drained.keyframes member))
  case tallied =>
    intro entry member
    obtain ⟨info, known, lists, touched⟩ := drained.origin entry member
    rw [asked_append, asked_listed nodup, touched]
    have tallied := accounting.tallied _ known
    split_ifs with listed
    · rw [List.length_append]
      exact (reached.retries_touch_le now info).trans (Nat.succ_le_succ tallied)
    · rw [List.append_nil, NackGenerator.touch_waiting (mt lists.mpr listed)]
      exact tallied
  case complete =>
    intro first isFirst seq low high unseen
    rw [same] at isFirst unseen
    rw [drained.highest] at high
    apply (accounting.complete first isFirst seq low high unseen).later drained.highest.ge
    intro member
    rcases drained.kept seq member with kept | old | ⟨info, known, drops⟩
    · exact .inl kept
    · rw [seen.maxPacketAge, ← drained.highest] at old
      exact .inr (.inr (.inl old))
    · right
      left
      rw [asked_append, List.length_append, ← seen.maxNackRetries]
      have often := (NackGenerator.turn_drop drops).trans (accounting.tallied _ known)
      exact often.trans (Nat.le_add_right _ _)

theorem Accounting.quiet (accounting : Accounting library start past reached sent)
    (silent : observed [event] = []) (rttMs : ℚ) (needKeyframe : Bool) :
    Accounting library start (past ++ [event]) { reached with
      rttMs := rttMs
      needKeyframe := needKeyframe } (sent ++ []) := by
  have same := observed_silent silent past
  constructor
  case top =>
    rw [same]
    exact accounting.top
  case keyframes =>
    exact fun keyframe member => mem_keyframes_snoc (accounting.keyframes keyframe member)
  case tallied =>
    rw [List.append_nil]
    exact accounting.tallied
  case complete =>
    intro first isFirst seq low high unseen
    rw [same] at isFirst unseen
    exact (accounting.complete first isFirst seq low high unseen).later le_rfl [] .inl

theorem Accounting.step (correct : library.Correct)
    (seen : Seen start past (run (NackGenerator.step library) start past).1)
    (accounting : Accounting library start past
      (run (NackGenerator.step library) start past).1 sent)
    (kept : event ≠ .reset) :
    Accounting library start (past ++ [event])
      ((run (NackGenerator.step library) start past).1.step library event).1
      (sent ++ ((run (NackGenerator.step library) start past).1.step library event).2) := by
  cases event with
  | observePacket clock extSeq isKeyframe isRecovered =>
      exact accounting.arrival correct seen clock extSeq isKeyframe isRecovered
  | buildFeedback now =>
      exact accounting.drained seen (NackGenerator.build_feedback_drained _ seen.valid now)
  | updateRtt rttMs =>
      obtain ⟨rtt, updated⟩ := update_rtt_eq (run (NackGenerator.step library) start past).1 rttMs
      rw [NackGenerator.step, updated]
      exact accounting.quiet rfl rtt _
  | acknowledgeKeyframeRequested => exact accounting.quiet rfl _ false
  | reset => exact absurd rfl kept

end Steps

/-- A number between the first packet and the highest one that was never observed is missing,
or was given up for one of four reasons. The requests counted are what feedback returned. -/
theorem losses_accounted {library : Library} (correct : library.Correct) {opts : NackOptions}
    {start : NackGenerator} (built : NackGenerator.new opts = .ok start)
    {events : List NackEvent} (kept : .reset ∉ events) {first seq : Int}
    (isFirst : first ∈ (observed events).head?) (low : first < seq)
    (high : seq < (run (NackGenerator.step library) start events).1.highestExtSeq)
    (unseen : seq ∉ observed events) :
    Accounted library start events (run (NackGenerator.step library) start events).1
        (run (NackGenerator.step library) start events).2 seq ∧
      NackGenerator.returned library start events =
        (run (NackGenerator.step library) start events).2.map fun request =>
          wrapUnsigned 16 request.seq := by
  refine ⟨?_, NackGenerator.returned_eq library start events⟩
  have fresh := new_fresh built
  have initial : Accounting library start [] start [] := by
    constructor
    case top =>
      rw [fresh.started]
      exact fun running => absurd running Bool.false_ne_true
    case keyframes =>
      rw [fresh.keyframes]
      exact fun keyframe member => absurd member List.not_mem_nil
    case tallied =>
      rw [fresh.missing]
      exact fun entry member => absurd member List.not_mem_nil
    case complete => exact fun first isFirst => absurd isFirst (by simp [observed])
  have both := @run_history _ _ _ (NackGenerator.step library)
    (fun past reached => Seen start past reached.1 ∧
      Accounting library start past reached.1 reached.2)
    start (· ≠ .reset) ⟨fresh.seen, initial⟩
    (fun past event allowed inv =>
      ⟨inv.1.step correct allowed, inv.2.step correct inv.1 allowed⟩)
    events (fun event member => ne_of_mem_of_not_mem member kept)
  exact both.2.complete first isFirst seq low high unseen

/-- The first packet of a gap that was never filled. -/
theorem gap_accounted :
    Accounted reference defaultGenerator gapEvents
      (run (NackGenerator.step reference) defaultGenerator gapEvents).1
      (run (NackGenerator.step reference) defaultGenerator gapEvents).2 2 := by
  have built : NackGenerator.new ⟨none, none, none, none, none, none, none⟩ =
      .ok defaultGenerator := rfl
  have first : 1 ∈ (observed gapEvents).head? := rfl
  exact (losses_accounted reference_correct built (by decide) first (by decide)
    (by decide +kernel) (by decide)).1

end RtpPacket.Nack
