import RtpPacket.Retransmit.Arrivals

/-!
# What is asked for

Every number on a NACK list is missing, and it is asked for a bounded number of times with
a round trip between.
-/

namespace RtpPacket.Nack

open FlatRanges Run Word

set_option autoImplicit false

inductive NackEvent where
  /-- `clock` is the time that `_addMissingRange` reads. -/
  | observePacket (clock : ℚ) (extSeq : Int) (isKeyframe isRecovered : Bool)
  | buildFeedback (now : ℚ)
  | updateRtt (rttMs : Option ℚ)
  | acknowledgeKeyframeRequested
  | reset
  deriving DecidableEq

/-- A number on a NACK list, with the time of the list and the RTT in force. -/
structure Request where
  seq : Int
  now : ℚ
  rtt : ℚ
  deriving DecidableEq

namespace NackGenerator

def step (library : Library) (self : NackGenerator) :
    NackEvent → NackGenerator × List Request
  | .observePacket clock extSeq isKeyframe isRecovered =>
      (self.observePacket library clock extSeq isKeyframe isRecovered, [])
  | .buildFeedback now =>
      ((self.buildFeedback now).1, (self.listed now).map fun seq => ⟨seq, now, self.rttMs⟩)
  | .updateRtt rttMs => (self.updateRtt rttMs, [])
  | .acknowledgeKeyframeRequested => (self.acknowledgeKeyframeRequested, [])
  | .reset => (self.reset, [])

theorem build_feedback_list (library : Library) (self : NackGenerator) (now : ℚ) :
    (self.buildFeedback now).2 =
      (self.step library (.buildFeedback now)).2.map fun request =>
        wrapUnsigned 16 request.seq := by
  rw [buildFeedback, step, List.map_map]
  rfl

/-- What the feedback of a run returns, one list after another. -/
def returned (library : Library) : NackGenerator → List NackEvent → List Nat
  | _, [] => []
  | self, .buildFeedback now :: later =>
      (self.buildFeedback now).2 ++ returned library (self.buildFeedback now).1 later
  | self, event :: later => returned library (self.step library event).1 later

theorem returned_eq (library : Library) (self : NackGenerator) (events : List NackEvent) :
    returned library self events =
      (run (NackGenerator.step library) self events).2.map fun request =>
        wrapUnsigned 16 request.seq := by
  induction events generalizing self with
  | nil => rfl
  | cons event later ih =>
      rw [run, List.map_append, ← ih]
      cases event with
      | buildFeedback now => rw [returned, build_feedback_list library, step]
      | _ => rfl

theorem mem_taking {self : NackGenerator} {now : ℚ} {due : Turn} {seq : Int} :
    seq ∈ self.taking now due ↔
      ∃ info, (seq, info) ∈ self.missing.entries ∧ self.turn now info = due := by
  rw [taking, List.mem_map]
  simp only [List.mem_filter, decide_eq_true_iff]
  constructor
  · rintro ⟨entry, ⟨member, taken⟩, rfl⟩
    exact ⟨entry.2, member, taken⟩
  · rintro ⟨info, member, taken⟩
    exact ⟨(seq, info), ⟨member, taken⟩, rfl⟩

theorem taking_nodup (self : NackGenerator) (now : ℚ) (due : Turn) :
    (self.taking now due).Nodup :=
  self.missing.nodup.sublist (List.filter_sublist.map Prod.fst)

theorem evict_old_turn (self : NackGenerator) (now : ℚ) (info : NackInfo) :
    self.evictOld.turn now info = self.turn now info := by
  cases self.evict_old_cases with
  | inl same => rw [same]
  | inr trimmed => rw [trimmed, turn, turn]

/-- What feedback does to the collections. -/
structure Drained (before : NackGenerator) (now : ℚ) (after : NackGenerator) : Prop where
  settings : SameSettings before after
  started : after.started = before.started
  highest : after.highestExtSeq = before.highestExtSeq
  valid : Valid after.received
  sound : ∀ x, Covers after.received x → Covers before.received x
  recent : ∀ x, before.highestExtSeq ≤ x → Covers before.received x → Covers after.received x
  keyframes : after.keyframes ⊆ before.keyframes
  origin : ∀ entry ∈ after.missing.entries, ∃ info, (entry.1, info) ∈ before.missing.entries ∧
    (entry.1 ∈ before.listed now ↔ before.turn now info = .send) ∧ entry.2 = before.touch now info
  listed : ∀ seq ∈ before.listed now, ∃ info, (seq, info) ∈ before.missing.entries ∧
    before.turn now info = .send
  kept : ∀ seq ∈ before.missing.keys, seq ∈ after.missing.keys ∨
    seq < before.highestExtSeq - before.maxPacketAge ∨
    ∃ info, (seq, info) ∈ before.missing.entries ∧ before.turn now info = .drop

theorem mem_build_feedback {self : NackGenerator} {now : ℚ} {entry : Int × NackInfo} :
    entry ∈ (self.buildFeedback now).1.missing.entries ↔
      ∃ info, (entry.1, info) ∈ self.evictOld.missing.entries ∧ self.turn now info ≠ .drop ∧
        entry.2 = self.evictOld.touch now info := by
  rw [buildFeedback, InsertionMap.mem_erase_all, InsertionMap.mem_map_values, mem_taking]
  constructor
  · rintro ⟨⟨info, member, touched⟩, stays⟩
    refine ⟨info, member, ?_, touched⟩
    intro dropped
    exact stays ⟨info, member, (evict_old_turn self now info).trans dropped⟩
  · rintro ⟨info, member, stays, touched⟩
    refine ⟨⟨info, member, touched⟩, ?_⟩
    rintro ⟨other, known, dropped⟩
    rw [InsertionMap.value_unique known member, evict_old_turn] at dropped
    exact stays dropped

theorem build_feedback_drained (self : NackGenerator) (valid : Valid self.received) (now : ℚ) :
    Drained self now (self.buildFeedback now).1 := by
  obtain ⟨received, keyframes, missing, evicted, trimmed⟩ := self.evict_old_spec valid
  have touches (info : NackInfo) : self.evictOld.touch now info = self.touch now info := by
    rw [touch, touch, evict_old_turn]
  have entries : self.evictOld.missing = missing := by rw [evicted]
  have fields : (self.buildFeedback now).1 =
      { self.evictOld with missing := (self.buildFeedback now).1.missing } := rfl
  have lists {seq : Int} {info : NackInfo} (member : (seq, info) ∈ self.evictOld.missing.entries) :
      seq ∈ self.listed now ↔ self.turn now info = .send := by
    rw [listed, mem_taking]
    constructor
    · rintro ⟨other, known, sent⟩
      rwa [InsertionMap.value_unique known member, evict_old_turn] at sent
    · intro sent
      exact ⟨info, member, (evict_old_turn self now info).trans sent⟩
  rw [evicted] at fields
  exact {
    settings := by rw [fields]; exact ⟨rfl, rfl, rfl⟩
    started := by rw [fields]
    highest := by rw [fields]
    valid := by rw [fields]; exact trimmed.valid
    sound := by rw [fields]; exact trimmed.sound
    recent := by rw [fields]; exact trimmed.recent
    keyframes := by rw [fields]; exact trimmed.keyframes_subset
    origin := by
      intro entry member
      obtain ⟨info, known, _, touched⟩ := mem_build_feedback.mp member
      have old := trimmed.origin _ (entries ▸ known)
      exact ⟨info, old, lists known, touched.trans (touches info)⟩
    listed := by
      intro seq member
      obtain ⟨info, known, sent⟩ := mem_taking.mp member
      exact ⟨info, trimmed.origin _ (entries ▸ known), (lists known).mp member⟩
    kept := by
      intro seq member
      cases trimmed.kept seq member with
      | inr old => exact .inr (.inl old)
      | inl recent =>
          obtain ⟨info, known⟩ := InsertionMap.mem_keys_iff.mp recent
          by_cases dropped : self.turn now info = .drop
          · exact .inr (.inr ⟨info, trimmed.origin _ known, dropped⟩)
          · rw [← entries] at known
            exact .inl (InsertionMap.mem_keys_iff.mpr
              ⟨_, mem_build_feedback.mpr ⟨info, known, dropped, rfl⟩⟩) }

end NackGenerator

def observed (past : List NackEvent) : List Int :=
  past.filterMap fun
    | .observePacket _ extSeq _ _ => some extSeq
    | _ => none

/-- What the collections tell of the packets that were observed. -/
structure Seen (start : NackGenerator) (past : List NackEvent) (reached : NackGenerator) :
    Prop where
  maxPacketAge : reached.maxPacketAge = start.maxPacketAge
  maxNackRetries : reached.maxNackRetries = start.maxNackRetries
  valid : Valid reached.received
  idle : reached.started = false → observed past = []
  running : reached.started = true → ∃ first ∈ (observed past).head?, first ≤ reached.highestExtSeq
  sound : ∀ x, Covers reached.received x → x ∈ observed past
  above : ∀ x ∈ observed past, reached.highestExtSeq < x → Covers reached.received x
  missing : ∀ seq ∈ reached.missing.keys, reached.started = true ∧
    (∃ first ∈ (observed past).head?, first < seq) ∧ seq < reached.highestExtSeq ∧
    seq ∉ observed past

section Steps

variable {library : Library} {start reached after : NackGenerator} {past : List NackEvent}

theorem observed_snoc (past : List NackEvent) (clock : ℚ) (extSeq : Int)
    (isKeyframe isRecovered : Bool) :
    observed (past ++ [.observePacket clock extSeq isKeyframe isRecovered]) =
      observed past ++ [extSeq] := by
  rw [observed, List.filterMap_append]
  rfl

theorem observed_silent {event : NackEvent} (silent : observed [event] = [])
    (past : List NackEvent) : observed (past ++ [event]) = observed past := by
  rw [observed, List.filterMap_append]
  exact (congrArg _ silent).trans (List.append_nil _)

theorem NackGenerator.le_reach (running : reached.started = true) (extSeq : Int)
    (isRecovered : Bool) : reached.highestExtSeq ≤ reached.reach extSeq isRecovered := by
  rw [NackGenerator.reach, if_neg (by rw [running]; decide)]
  split_ifs
  · exact le_rfl
  · exact le_max_left _ _

theorem NackGenerator.reach_idle (idle : reached.started = false) (extSeq : Int)
    (isRecovered : Bool) : reached.reach extSeq isRecovered = extSeq := if_pos idle

theorem Seen.arrival (seen : Seen start past reached) {clock : ℚ} {extSeq : Int}
    {isKeyframe isRecovered : Bool}
    (arrival : reached.Arrival library clock extSeq isKeyframe isRecovered after) :
    Seen start (past ++ [.observePacket clock extSeq isKeyframe isRecovered]) after := by
  have first : ∀ first ∈ (observed past).head?, first ∈ (observed past ++ [extSeq]).head? := by
    intro first isFirst
    rw [List.head?_append, Option.mem_def.mp isFirst]
    rfl
  have grows : reached.started = true → reached.highestExtSeq ≤ after.highestExtSeq := by
    intro running
    rw [arrival.highest]
    exact NackGenerator.le_reach running extSeq isRecovered
  constructor
  case maxPacketAge => exact arrival.settings.maxPacketAge.trans seen.maxPacketAge
  case maxNackRetries => exact arrival.settings.maxNackRetries.trans seen.maxNackRetries
  case valid => exact arrival.valid
  case idle =>
    intro idle
    rw [arrival.started] at idle
    cases idle
  case running =>
    intro _
    rw [observed_snoc]
    by_cases running : reached.started = true
    · obtain ⟨least, isFirst, low⟩ := seen.running running
      exact ⟨least, first least isFirst, low.trans (grows running)⟩
    · have idle := Bool.eq_false_iff.mpr running
      rw [seen.idle idle, arrival.highest, NackGenerator.reach_idle idle]
      exact ⟨extSeq, rfl, le_rfl⟩
  case sound =>
    intro x covered
    rw [observed_snoc, List.mem_append, List.mem_singleton]
    exact (arrival.sound x covered).imp_left (seen.sound x)
  case above =>
    intro x member high
    rw [observed_snoc, List.mem_append, List.mem_singleton] at member
    apply arrival.recent x high.le
    apply member.imp_left
    intro old
    by_cases running : reached.started = true
    · exact seen.above x old ((grows running).trans_lt high)
    · rw [seen.idle (Bool.eq_false_iff.mpr running)] at old
      cases old
  case missing =>
    intro seq member
    obtain ⟨info, inside⟩ := InsertionMap.mem_keys_iff.mp member
    obtain ⟨different, origin⟩ := arrival.origin _ inside
    rw [observed_snoc]
    cases origin with
    | inl old =>
        obtain ⟨running, ⟨least, isFirst, above⟩, below, unseen⟩ :=
          seen.missing seq (InsertionMap.mem_keys_iff.mpr ⟨info, old⟩)
        refine ⟨arrival.started, ⟨least, first least isFirst, above⟩,
          below.trans_le (grows running), ?_⟩
        rw [List.mem_append, List.mem_singleton, not_or]
        exact ⟨unseen, different⟩
    | inr fresh =>
        obtain ⟨⟨running, direct, revealed⟩, _⟩ := fresh
        obtain ⟨least, isFirst, low⟩ := seen.running running
        refine ⟨arrival.started, ⟨least, first least isFirst, low.trans_lt revealed.above⟩, ?_, ?_⟩
        · rw [arrival.highest, NackGenerator.reach, if_neg (by rw [running]; decide), direct]
          exact revealed.below.trans_le (le_max_right _ _)
        · rw [List.mem_append, List.mem_singleton, not_or]
          exact ⟨fun old => revealed.absent (seen.above _ old revealed.above), different⟩

theorem Seen.drained (seen : Seen start past reached) {now : ℚ}
    (drained : reached.Drained now after) : Seen start (past ++ [.buildFeedback now]) after := by
  have same : observed (past ++ [.buildFeedback now]) = observed past := observed_silent rfl past
  constructor
  case maxPacketAge => exact drained.settings.maxPacketAge.trans seen.maxPacketAge
  case maxNackRetries => exact drained.settings.maxNackRetries.trans seen.maxNackRetries
  case valid => exact drained.valid
  case idle =>
    rw [drained.started, same]
    exact seen.idle
  case running =>
    rw [drained.started, drained.highest, same]
    exact seen.running
  case sound =>
    rw [same]
    exact fun x covered => seen.sound x (drained.sound x covered)
  case above =>
    intro x member high
    rw [same] at member
    rw [drained.highest] at high
    exact drained.recent x high.le (seen.above x member high)
  case missing =>
    intro seq member
    obtain ⟨_, inside⟩ := InsertionMap.mem_keys_iff.mp member
    obtain ⟨info, known, _⟩ := drained.origin _ inside
    rw [drained.started, drained.highest, same]
    exact seen.missing seq (InsertionMap.mem_keys_iff.mpr ⟨info, known⟩)

theorem Seen.quiet (seen : Seen start past reached) {event : NackEvent}
    (silent : observed [event] = []) (rttMs : ℚ) (needKeyframe : Bool) :
    Seen start (past ++ [event]) { reached with
      rttMs := rttMs
      needKeyframe := needKeyframe } := by
  have same := observed_silent silent past
  constructor
  case maxPacketAge => exact seen.maxPacketAge
  case maxNackRetries => exact seen.maxNackRetries
  case valid => exact seen.valid
  case idle => rw [same]; exact seen.idle
  case running => rw [same]; exact seen.running
  case sound => rw [same]; exact seen.sound
  case above => rw [same]; exact seen.above
  case missing => rw [same]; exact seen.missing

theorem update_rtt_eq (reached : NackGenerator) (rttMs : Option ℚ) :
    ∃ rtt, reached.updateRtt rttMs = { reached with rttMs := rtt } := by
  cases rttMs with
  | none => exact ⟨reached.rttMs, rfl⟩
  | some rttMs => exact ⟨max 20 rttMs, rfl⟩

theorem Seen.step (correct : library.Correct) (seen : Seen start past reached) {event : NackEvent}
    (kept : event ≠ .reset) : Seen start (past ++ [event]) (reached.step library event).1 := by
  cases event with
  | observePacket clock extSeq isKeyframe isRecovered =>
      exact seen.arrival
        (NackGenerator.observe_packet_arrival correct seen.valid clock isKeyframe isRecovered)
  | buildFeedback now => exact seen.drained (reached.build_feedback_drained seen.valid now)
  | updateRtt rttMs =>
      obtain ⟨rtt, updated⟩ := update_rtt_eq reached rttMs
      rw [NackGenerator.step, updated]
      exact seen.quiet rfl rtt reached.needKeyframe
  | acknowledgeKeyframeRequested => exact seen.quiet rfl reached.rttMs false
  | reset => exact absurd rfl kept

end Steps

structure Fresh (start : NackGenerator) : Prop where
  received : start.received = []
  missing : start.missing = .empty
  keyframes : start.keyframes = []
  started : start.started = false

theorem new_eq {opts : NackOptions} {start : NackGenerator}
    (built : NackGenerator.new opts = .ok start) :
    Fresh start ∧ start.highestExtSeq = -1 ∧ start.needKeyframe = false ∧
      start.maxNackEntries = opts.maxNackEntries.getD 1000 := by
  unfold NackGenerator.new at built
  cases made : Histogram.new (opts.reorderBuckets.getD 10) (opts.reorderValues.getD 128) with
  | error message =>
      rw [made] at built
      cases built
  | ok histogram =>
      rw [made] at built
      cases built
      exact ⟨⟨rfl, rfl, rfl, rfl⟩, rfl, rfl, rfl⟩

theorem new_fresh {opts : NackOptions} {start : NackGenerator}
    (built : NackGenerator.new opts = .ok start) : Fresh start := (new_eq built).1

theorem Fresh.seen {start : NackGenerator} (fresh : Fresh start) : Seen start [] start := by
  constructor
  case maxPacketAge => rfl
  case maxNackRetries => rfl
  case valid =>
    rw [fresh.received]
    exact valid_nil
  case idle => exact fun _ => rfl
  case running =>
    rw [fresh.started]
    exact fun running => absurd running Bool.false_ne_true
  case sound =>
    rw [fresh.received]
    exact fun x covered => covered.elim
  case above => exact fun x member => absurd member List.not_mem_nil
  case missing =>
    rw [fresh.missing]
    exact fun seq member => absurd member List.not_mem_nil

def asked (sent : List Request) (seq : Int) : List Request := sent.filter (·.seq = seq)

def Apart (earlier later : Request) : Prop := later.rtt ≤ later.now - earlier.now

structure Tally (asked : List Request) (info : NackInfo) : Prop where
  retries : info.retries = asked.length
  unsent : info.sentAt = 0 → asked = []
  last : ∀ last ∈ asked.getLast?, last.now = info.sentAt

structure Paced (retries : Nat) (reached : NackGenerator) (sent : List Request) : Prop where
  low : ∀ request ∈ sent, reached.started = true ∧ request.seq < reached.highestExtSeq
  few : ∀ seq, (asked sent seq).length ≤ retries
  spaced : ∀ seq, (asked sent seq).IsChain Apart
  tally : ∀ entry ∈ reached.missing.entries, Tally (asked sent entry.1) entry.2

theorem asked_nil_of_high {retries : Nat} {reached : NackGenerator} {sent : List Request}
    (paced : Paced retries reached sent) {seq : Int} (high : reached.highestExtSeq ≤ seq) :
    asked sent seq = [] := by
  apply List.filter_eq_nil_iff.mpr
  intro request member same
  have below := (paced.low request member).2
  rw [of_decide_eq_true same] at below
  exact absurd high (not_le.mpr below)

theorem asked_append (earlier later : List Request) (seq : Int) :
    asked (earlier ++ later) seq = asked earlier seq ++ asked later seq := List.filter_append ..

theorem asked_listed {seqs : List Int} (nodup : seqs.Nodup) (now rtt : ℚ) (seq : Int) :
    asked (seqs.map fun seq => ⟨seq, now, rtt⟩) seq =
      if seq ∈ seqs then [⟨seq, now, rtt⟩] else [] := by
  have here : seqs.filter ((fun request : Request => decide (request.seq = seq)) ∘
      fun seq => ⟨seq, now, rtt⟩) = List.replicate (seqs.count seq) seq := List.filter_eq seq
  rw [asked, List.filter_map, here, nodup.count]
  split_ifs <;> rfl

namespace NackGenerator

variable {self : NackGenerator} {now : ℚ} {info : NackInfo}

theorem turn_send (sends : self.turn now info = .send) :
    info.sentAt = 0 ∨ self.rttMs ≤ now - info.sentAt ∧ info.retries < self.maxNackRetries := by
  unfold turn at sends
  split_ifs at sends with unsent early low recent exhausted
  · exact .inl unsent
  · exact .inr ⟨not_lt.mp recent, not_le.mp exhausted⟩

theorem turn_drop (drops : self.turn now info = .drop) :
    self.maxNackRetries ≤ info.retries := by
  unfold turn at drops
  split_ifs at drops with unsent early low recent exhausted
  exact exhausted

theorem touch_waiting (waits : self.turn now info ≠ .send) : self.touch now info = info :=
  if_neg waits

theorem touch_sent (sends : self.turn now info = .send) :
    self.touch now info = { info with
      sentAt := now
      retries := if info.sentAt = 0 then 1 else info.retries + 1 } := if_pos sends

end NackGenerator

section Pace

variable {library : Library} {retries : Nat} {reached after : NackGenerator}
  {sent : List Request} {now : ℚ}

/-- An entry that was never sent may be sent, and another one while it has retries left. -/
theorem Tally.room {requests : List Request} {info : NackInfo} (tally : Tally requests info)
    (some : 1 ≤ reached.maxNackRetries) (sends : reached.turn now info = .send) :
    requests.length + 1 ≤ reached.maxNackRetries := by
  cases NackGenerator.turn_send sends with
  | inl unsent =>
      rw [tally.unsent unsent]
      exact some
  | inr again =>
      rw [← tally.retries]
      exact again.2

theorem Tally.apart {requests : List Request} {info : NackInfo} (tally : Tally requests info)
    (seq : Int) (sends : reached.turn now info = .send) :
    ∀ last ∈ requests.getLast?, Apart last ⟨seq, now, reached.rttMs⟩ := by
  intro last isLast
  cases NackGenerator.turn_send sends with
  | inl unsent =>
      rw [tally.unsent unsent] at isLast
      cases isLast
  | inr again =>
      rw [Apart, tally.last last isLast]
      exact again.1

theorem Tally.add {requests : List Request} {info : NackInfo} (tally : Tally requests info)
    (seq : Int) (sends : reached.turn now info = .send) (positive : now ≠ 0) :
    Tally (requests ++ [⟨seq, now, reached.rttMs⟩]) (reached.touch now info) := by
  rw [NackGenerator.touch_sent sends]
  constructor
  case retries =>
    rw [List.length_append, List.length_singleton]
    by_cases unsent : info.sentAt = 0
    · simp [unsent, tally.unsent unsent]
    · simp [unsent, tally.retries]
  case unsent => exact fun zero => absurd zero positive
  case last =>
    intro last isLast
    rw [List.getLast?_concat] at isLast
    rw [← Option.some.inj isLast]

theorem Paced.arrival (paced : Paced retries reached sent) {clock : ℚ} {extSeq : Int}
    {isKeyframe isRecovered : Bool}
    (arrival : reached.Arrival library clock extSeq isKeyframe isRecovered after) :
    Paced retries after sent where
  low := by
    intro request member
    obtain ⟨running, below⟩ := paced.low request member
    rw [arrival.highest]
    exact ⟨arrival.started, below.trans_le (NackGenerator.le_reach running extSeq isRecovered)⟩
  few := paced.few
  spaced := paced.spaced
  tally := by
    intro entry member
    obtain ⟨_, origin⟩ := arrival.origin entry member
    cases origin with
    | inl old => exact paced.tally entry old
    | inr fresh =>
        obtain ⟨⟨_, _, revealed⟩, unsent, unasked⟩ := fresh
        have none := asked_nil_of_high paced revealed.above.le
        rw [none]
        exact ⟨unasked, fun _ => rfl, fun last isLast => by cases isLast⟩

theorem Paced.drained {start : NackGenerator} {past : List NackEvent}
    (seen : Seen start past reached) (paced : Paced reached.maxNackRetries reached sent)
    (some : 1 ≤ reached.maxNackRetries) (positive : now ≠ 0)
    (drained : reached.Drained now after) :
    Paced reached.maxNackRetries after
      (sent ++ (reached.listed now).map fun seq => ⟨seq, now, reached.rttMs⟩) := by
  have nodup : (reached.listed now).Nodup := NackGenerator.taking_nodup ..
  constructor
  case low =>
    intro request member
    rw [drained.started, drained.highest]
    cases List.mem_append.mp member with
    | inl old => exact paced.low request old
    | inr new =>
        obtain ⟨seq, listed, rfl⟩ := List.mem_map.mp new
        obtain ⟨info, known, _⟩ := drained.listed seq listed
        obtain ⟨running, _, below, _⟩ :=
          seen.missing seq (InsertionMap.mem_keys_iff.mpr ⟨info, known⟩)
        exact ⟨running, below⟩
  case few =>
    intro seq
    rw [asked_append, asked_listed nodup, List.length_append]
    split_ifs with listed
    · obtain ⟨info, known, sends⟩ := drained.listed seq listed
      exact (paced.tally _ known).room some sends
    · exact paced.few seq
  case spaced =>
    intro seq
    rw [asked_append, asked_listed nodup]
    split_ifs with listed
    · obtain ⟨info, known, sends⟩ := drained.listed seq listed
      apply (paced.spaced seq).append (List.isChain_singleton _)
      intro last isLast request isNext
      rw [← Option.some.inj isNext]
      exact (paced.tally _ known).apart seq sends last isLast
    · rw [List.append_nil]
      exact paced.spaced seq
  case tally =>
    intro entry member
    obtain ⟨info, known, lists, touched⟩ := drained.origin entry member
    rw [asked_append, asked_listed nodup, touched]
    split_ifs with listed
    · exact (paced.tally _ known).add entry.1 (lists.mp listed) positive
    · rw [List.append_nil, NackGenerator.touch_waiting (mt lists.mpr listed)]
      exact paced.tally _ known

theorem Paced.quiet (paced : Paced retries reached sent) (rttMs : ℚ) (needKeyframe : Bool) :
    Paced retries { reached with
      rttMs := rttMs
      needKeyframe := needKeyframe } (sent ++ []) := by
  rw [List.append_nil]
  exact ⟨paced.low, paced.few, paced.spaced, paced.tally⟩

/-- An event that the pace of the requests is kept by. -/
structure Timed (event : NackEvent) : Prop where
  kept : event ≠ .reset
  /-- A time of 0 would stand for "never sent". -/
  sent : ∀ now, event = .buildFeedback now → now ≠ 0

theorem Paced.step (correct : library.Correct) {start : NackGenerator} {past : List NackEvent}
    (seen : Seen start past reached) (paced : Paced start.maxNackRetries reached sent)
    (some : 1 ≤ start.maxNackRetries) {event : NackEvent} (timed : Timed event) :
    Paced start.maxNackRetries (reached.step library event).1
      (sent ++ (reached.step library event).2) := by
  cases event with
  | observePacket clock extSeq isKeyframe isRecovered =>
      have arrival : reached.Arrival library clock extSeq isKeyframe isRecovered _ :=
        NackGenerator.observe_packet_arrival correct seen.valid clock isKeyframe isRecovered
      have kept := paced.arrival arrival
      rwa [← List.append_nil sent] at kept
  | buildFeedback now =>
      rw [← seen.maxNackRetries] at paced some ⊢
      exact paced.drained seen some (timed.sent now rfl)
        (reached.build_feedback_drained seen.valid now)
  | updateRtt rttMs =>
      obtain ⟨rtt, updated⟩ := update_rtt_eq reached rttMs
      rw [NackGenerator.step, updated]
      exact paced.quiet rtt reached.needKeyframe
  | acknowledgeKeyframeRequested => exact paced.quiet reached.rttMs false
  | reset => exact absurd rfl timed.kept

end Pace

section Runs

variable {library : Library} (correct : library.Correct) {start : NackGenerator}
  {events : List NackEvent}

include correct

theorem run_seen (fresh : Fresh start) (kept : NackEvent.reset ∉ events) :
    Seen start events (run (NackGenerator.step library) start events).1 := by
  apply @run_history _ _ _ (NackGenerator.step library)
    (fun past reached => Seen start past reached.1)
    start (· ≠ .reset) fresh.seen
  · intro past event allowed seen
    exact seen.step correct allowed
  · intro event member
    exact ne_of_mem_of_not_mem member kept

theorem run_paced (fresh : Fresh start) (some : 1 ≤ start.maxNackRetries)
    (timed : ∀ event ∈ events, Timed event) :
    Paced start.maxNackRetries (run (NackGenerator.step library) start events).1
      (run (NackGenerator.step library) start events).2 := by
  have initial : Paced start.maxNackRetries start [] := by
    constructor
    case low => exact fun request member => absurd member List.not_mem_nil
    case few => exact fun seq => Nat.zero_le _
    case spaced => exact fun seq => .nil
    case tally =>
      intro entry member
      rw [fresh.missing] at member
      cases member
  have both := @run_history _ _ _ (NackGenerator.step library)
    (fun past reached => Seen start past reached.1 ∧ Paced start.maxNackRetries reached.1 reached.2)
    start Timed ⟨fresh.seen, initial⟩
    (fun past event allowed inv =>
      ⟨inv.1.step correct allowed.kept, inv.2.step correct inv.1 some allowed⟩)
    events timed
  exact both.2

end Runs

/-- Every number that feedback lists lies between the first packet and the highest one and was
not observed before, and it is listed a bounded number of times, at least an RTT apart. What
feedback returns are the sixteen bits of these numbers. -/
theorem nacks_sound {library : Library} (correct : library.Correct) {opts : NackOptions}
    {start : NackGenerator} (built : NackGenerator.new opts = .ok start)
    (some : 1 ≤ start.maxNackRetries) {events : List NackEvent} (kept : .reset ∉ events)
    (timed : ∀ now, .buildFeedback now ∈ events → now ≠ 0) :
    (∀ earlier event later, events = earlier ++ event :: later →
      ∀ request ∈ ((run (NackGenerator.step library) start earlier).1.step library event).2,
        (∃ first ∈ (observed earlier).head?, first < request.seq) ∧
        request.seq < (run (NackGenerator.step library) start earlier).1.highestExtSeq ∧
        request.seq ∉ observed earlier) ∧
    (∀ earlier now later, events = earlier ++ .buildFeedback now :: later →
      ∀ number ∈ ((run (NackGenerator.step library) start earlier).1.buildFeedback now).2,
        ∃ seq, number = wrapUnsigned 16 seq ∧ (∃ first ∈ (observed earlier).head?, first < seq) ∧
          seq < (run (NackGenerator.step library) start earlier).1.highestExtSeq ∧
          seq ∉ observed earlier) ∧
    ∀ seq, (asked (run (NackGenerator.step library) start events).2 seq).length ≤
        start.maxNackRetries ∧
      (asked (run (NackGenerator.step library) start events).2 seq).IsChain Apart := by
  have fresh := new_fresh built
  have sound : ∀ earlier event later, events = earlier ++ event :: later →
      ∀ request ∈ ((run (NackGenerator.step library) start earlier).1.step library event).2,
        (∃ first ∈ (observed earlier).head?, first < request.seq) ∧
        request.seq < (run (NackGenerator.step library) start earlier).1.highestExtSeq ∧
        request.seq ∉ observed earlier := by
    intro earlier event later split request member
    have before : NackEvent.reset ∉ earlier := by
      intro inside
      rw [split] at kept
      exact kept (List.mem_append_left _ inside)
    have seen := run_seen correct fresh before
    cases event with
    | buildFeedback now =>
        obtain ⟨seq, listed, rfl⟩ := List.mem_map.mp member
        have drained := NackGenerator.build_feedback_drained _ seen.valid now
        obtain ⟨info, known, _⟩ := drained.listed seq listed
        exact (seen.missing seq (InsertionMap.mem_keys_iff.mpr ⟨info, known⟩)).2
    | _ => cases member
  refine ⟨sound, ?_, ?_⟩
  · intro earlier now later split number member
    rw [NackGenerator.build_feedback_list library] at member
    obtain ⟨request, listed, rfl⟩ := List.mem_map.mp member
    exact ⟨request.seq, rfl, sound earlier _ later split request listed⟩
  · intro seq
    have paced := run_paced correct fresh some fun event member =>
      ⟨ne_of_mem_of_not_mem member kept, fun now same => timed now (same ▸ member)⟩
    exact ⟨paced.few seq, paced.spaced seq⟩

def defaultGenerator : NackGenerator where
  maxPacketAge := 10000
  maxNackEntries := 1000
  maxNackRetries := 10
  rttMs := 100
  sendNackDelayMs := 0
  received := []
  missing := .empty
  keyframes := []
  reorderHistogram := ⟨List.replicate 10 0, [], 128, 0⟩
  highestExtSeq := -1
  started := false
  needKeyframe := false

def gapEvents : List NackEvent :=
  [.observePacket 0 1 false false, .observePacket 0 4 false false, .buildFeedback 10,
    .buildFeedback 60, .buildFeedback 110]

theorem gap_listed_twice :
    (run (NackGenerator.step reference) defaultGenerator gapEvents).2.map (·.seq) = [2, 3, 2, 3] ∧
      (asked (run (NackGenerator.step reference) defaultGenerator gapEvents).2 2).length ≤ 10 := by
  apply And.intro
  · decide +kernel
  · have built : NackGenerator.new ⟨none, none, none, none, none, none, none⟩ =
        .ok defaultGenerator := rfl
    have timed : ∀ now, NackEvent.buildFeedback now ∈ gapEvents → now ≠ 0 := by simp [gapEvents]
    exact ((nacks_sound reference_correct built (by decide) (by decide) timed).2.2 2).1

end RtpPacket.Nack
