import RtpPacket.Retransmit.Backlog

/-!
# Recovered packets beside the stream

A run with recovered packets inserted is compared with the run without them. They fill what is
missing and leave the rest alone, unless one of them is the first packet of all, which the
generator then counts from.
-/

namespace RtpPacket.Nack

open FlatRanges Run

set_option autoImplicit false

/-- A packet of a run without keyframes, or a recovered one that is inserted into it. -/
inductive Arrived where
  | original (clock : ℚ) (extSeq : Int) (isRecovered : Bool)
  | inserted (clock : ℚ) (extSeq : Int) (isKeyframe : Bool)

def Arrived.event : Arrived → NackEvent
  | .original clock extSeq isRecovered => .observePacket clock extSeq false isRecovered
  | .inserted clock extSeq isKeyframe => .observePacket clock extSeq isKeyframe true

def Arrived.isOriginal : Arrived → Bool
  | .original .. => true
  | .inserted .. => false

def insertedSeqs (arrivals : List Arrived) : List Int :=
  arrivals.filterMap fun
    | .inserted _ extSeq _ => some extSeq
    | .original .. => none

def fullRun (arrivals : List Arrived) : List NackEvent := arrivals.map Arrived.event

def baseRun (arrivals : List Arrived) : List NackEvent :=
  (arrivals.filter Arrived.isOriginal).map Arrived.event

def Fits (library : Library) (reached : NackGenerator) : NackEvent → Prop
  | .observePacket _ extSeq _ false =>
      reached.started = true → reached.highestExtSeq + 1 < extSeq →
        (reached.arrive library extSeq).missing.size +
          ((reached.arrive library extSeq).lost library (reached.highestExtSeq + 1) extSeq).length ≤
            reached.maxNackEntries
  | _ => True

instance (library : Library) (reached : NackGenerator) (event : NackEvent) :
    Decidable (Fits library reached event) := by
  unfold Fits
  split
  · infer_instance
  · infer_instance

structure Unaffected (library : Library) (start : NackGenerator) (arrivals : List Arrived) :
    Prop where
  highest : (run (NackGenerator.step library) start (fullRun arrivals)).1.highestExtSeq =
    (run (NackGenerator.step library) start (baseRun arrivals)).1.highestExtSeq
  histogram : (run (NackGenerator.step library) start (fullRun arrivals)).1.reorderHistogram =
    (run (NackGenerator.step library) start (baseRun arrivals)).1.reorderHistogram
  missing : (run (NackGenerator.step library) start (fullRun arrivals)).1.missing.entries =
    (run (NackGenerator.step library) start (baseRun arrivals)).1.missing.entries.filter
      fun entry => entry.1 ∉ insertedSeqs arrivals

/-- Nothing is inserted before the first packet of the run. -/
def FirstOriginal (arrivals : List Arrived) : Prop :=
  ∀ first ∈ arrivals.head?, first.isOriginal = true

instance (arrivals : List Arrived) : Decidable (FirstOriginal arrivals) :=
  inferInstanceAs (Decidable (∀ first ∈ arrivals.head?, _))

/-- A state that differs by inserted packets only. -/
structure Mirrors (inserted : List Int) (base full : NackGenerator) : Prop where
  maxPacketAge : full.maxPacketAge = base.maxPacketAge
  maxNackEntries : full.maxNackEntries = base.maxNackEntries
  started : full.started = base.started
  highest : full.highestExtSeq = base.highestExtSeq
  histogram : full.reorderHistogram = base.reorderHistogram
  missing : full.missing.entries = base.missing.entries.filter fun entry => entry.1 ∉ inserted
  ahead : ∀ x, base.highestExtSeq < x →
    (Covers full.received x ↔ Covers base.received x ∨ x ∈ inserted)

namespace NackGenerator

variable {library : Library} {self : NackGenerator} {clock : ℚ} {extSeq : Int}

theorem observe_packet_recovered (running : self.started = true) (isKeyframe : Bool) :
    self.observePacket library clock extSeq isKeyframe true =
      (self.arrive library extSeq).noteKeyframe extSeq isKeyframe := by
  rw [observePacket, running]
  rfl

theorem observe_packet_low (running : self.started = true) (low : extSeq ≤ self.highestExtSeq) :
    self.observePacket library clock extSeq false false =
      { self.arrive library extSeq with
        reorderHistogram := if extSeq < self.highestExtSeq then
            self.reorderHistogram.add (self.highestExtSeq - extSeq)
          else self.reorderHistogram } := by
  have branch : self.observePacket library clock extSeq false false =
      if extSeq < self.highestExtSeq then
        { self.arrive library extSeq with
          reorderHistogram := self.reorderHistogram.add (self.highestExtSeq - extSeq) }
      else self.arrive library extSeq := by
    rw [observePacket, running]
    exact if_pos low
  rw [branch]
  split_ifs
  · rfl
  · rfl

theorem reveal_gap_fits (gap : self.highestExtSeq + 1 < extSeq)
    (room : self.missing.size + (self.lost library (self.highestExtSeq + 1) extSeq).length ≤
      self.maxNackEntries) :
    self.revealGap library clock extSeq false =
      self.insertMissing clock (self.lost library (self.highestExtSeq + 1) extSeq) := by
  have entered : self.revealGap library clock extSeq false =
      self.addMissingRange library clock (self.highestExtSeq + 1) extSeq := if_pos gap
  rw [entered]
  exact if_neg (not_lt.mpr room)

theorem observe_packet_high (running : self.started = true) (high : self.highestExtSeq < extSeq) :
    self.observePacket library clock extSeq false false =
      evictOld { (self.arrive library extSeq).revealGap library clock extSeq false with
        highestExtSeq := extSeq } := by
  rw [observePacket, running]
  exact if_neg (not_le.mpr high)

end NackGenerator

namespace Mirrors

variable {library : Library} {inserted : List Int} {base full : NackGenerator} {limit : Nat}

theorem arrive (correct : library.Correct) (mirrors : Mirrors inserted base full)
    (baseValid : Valid base.received) (fullValid : Valid full.received) (extSeq : Int) :
    Mirrors inserted (base.arrive library extSeq) (full.arrive library extSeq) where
  maxPacketAge := mirrors.maxPacketAge
  maxNackEntries := mirrors.maxNackEntries
  started := mirrors.started
  highest := mirrors.highest
  histogram := mirrors.histogram
  missing := by
    change full.missing.entries.filter _ = (base.missing.entries.filter _).filter _
    rw [mirrors.missing, List.filter_comm]
  ahead := by
    intro x high
    rw [NackGenerator.covers_arrive correct fullValid, NackGenerator.covers_arrive correct baseValid,
      mirrors.ahead x high, or_right_comm]

theorem insert (correct : library.Correct) (mirrors : Mirrors inserted base full)
    (fullValid : Valid full.received) (running : base.started = true) (clock : ℚ) (extSeq : Int)
    (isKeyframe : Bool) :
    Mirrors (inserted ++ [extSeq]) base
      (full.observePacket library clock extSeq isKeyframe true) := by
  obtain ⟨keyframes, marked, _⟩ :=
    (full.arrive library extSeq).note_keyframe_eq extSeq isKeyframe
  rw [NackGenerator.observe_packet_recovered (mirrors.started.trans running), marked]
  constructor
  case maxPacketAge => exact mirrors.maxPacketAge
  case maxNackEntries => exact mirrors.maxNackEntries
  case started => exact mirrors.started
  case highest => exact mirrors.highest
  case histogram => exact mirrors.histogram
  case missing =>
    change full.missing.entries.filter _ = _
    rw [mirrors.missing, List.filter_filter]
    apply List.filter_congr
    intro entry _
    simp [and_comm, not_or]
  case ahead =>
    intro x high
    change Covers (full.arrive library extSeq).received x ↔ _
    rw [NackGenerator.covers_arrive correct fullValid, mirrors.ahead x high, List.mem_append,
      List.mem_singleton, or_assoc]

theorem evict_old (mirrors : Mirrors inserted base full) (baseValid : Valid base.received)
    (fullValid : Valid full.received) (baseOrder : base.missing.keys.Pairwise (· < ·))
    (fullOrder : full.missing.keys.Pairwise (· < ·)) :
    Mirrors inserted base.evictOld full.evictOld := by
  rw [NackGenerator.evict_old_eq, NackGenerator.evict_old_eq, mirrors.highest,
    mirrors.maxPacketAge]
  split_ifs with late
  · obtain ⟨_, baseLeft⟩ :=
      NackGenerator.trim_received_spec baseValid (base.highestExtSeq - base.maxPacketAge)
    obtain ⟨_, fullLeft⟩ :=
      NackGenerator.trim_received_spec fullValid (base.highestExtSeq - base.maxPacketAge)
    constructor
    case maxPacketAge => rfl
    case maxNackEntries => exact mirrors.maxNackEntries
    case started => exact mirrors.started
    case highest => rfl
    case histogram => exact mirrors.histogram
    case missing =>
      rw [InsertionMap.drop_while_ascending baseOrder, InsertionMap.drop_while_ascending fullOrder,
        mirrors.missing, List.filter_comm]
    case ahead =>
      intro x high
      change base.highestExtSeq < x at high
      have inside : base.highestExtSeq - base.maxPacketAge ≤ x := by omega
      rw [baseLeft, fullLeft, mirrors.ahead x high, and_iff_left inside, and_iff_left inside]
  · exact mirrors

theorem lost (correct : library.Correct) (mirrors : Mirrors inserted base full)
    (baseValid : Valid base.received) (fullValid : Valid full.received) (stop : Int) :
    full.lost library (full.highestExtSeq + 1) stop =
      (base.lost library (base.highestExtSeq + 1) stop).filter (· ∉ inserted) := by
  rw [mirrors.highest, NackGenerator.lost, NackGenerator.lost, List.filter_filter]
  apply List.filter_congr
  intro seq member
  obtain ⟨i, _, rfl⟩ := List.mem_map.mp member
  have ahead := mirrors.ahead (base.highestExtSeq + 1 + i) (by omega)
  rw [← correct.contains_iff baseValid, ← correct.contains_iff fullValid] at ahead
  rw [Bool.eq_iff_iff]
  simp only [Bool.not_eq_true', Bool.and_eq_true, decide_eq_true_iff, ← Bool.not_eq_true, ahead,
    not_or, and_comm]

theorem room (correct : library.Correct) (mirrors : Mirrors inserted base full)
    (baseValid : Valid base.received) (fullValid : Valid full.received) {stop : Int}
    (room : base.missing.size + (base.lost library (base.highestExtSeq + 1) stop).length ≤
      base.maxNackEntries) :
    full.missing.size + (full.lost library (full.highestExtSeq + 1) stop).length ≤
      full.maxNackEntries := by
  rw [mirrors.lost correct baseValid fullValid, mirrors.maxNackEntries, InsertionMap.size,
    mirrors.missing]
  have fewer := List.length_filter_le (fun entry : Int × NackInfo => decide (entry.1 ∉ inserted))
    base.missing.entries
  have less := List.length_filter_le (fun seq : Int => decide (seq ∉ inserted))
    (base.lost library (base.highestExtSeq + 1) stop)
  rw [InsertionMap.size] at room
  omega

theorem reveal_gap (correct : library.Correct) (mirrors : Mirrors inserted base full)
    (baseOrderly : Orderly limit base) (fullOrderly : Orderly limit full) (clock : ℚ)
    {extSeq : Int} (high : base.highestExtSeq < extSeq)
    (fits : base.highestExtSeq + 1 < extSeq → base.missing.size +
      (base.lost library (base.highestExtSeq + 1) extSeq).length ≤ base.maxNackEntries) :
    Mirrors inserted
      { base.revealGap library clock extSeq false with highestExtSeq := extSeq }
      { full.revealGap library clock extSeq false with highestExtSeq := extSeq } := by
  by_cases gap : base.highestExtSeq + 1 < extSeq
  · have fullGap : full.highestExtSeq + 1 < extSeq := mirrors.highest ▸ gap
    rw [NackGenerator.reveal_gap_fits gap (fits gap), NackGenerator.reveal_gap_fits fullGap
      (mirrors.room correct baseOrderly.valid fullOrderly.valid (fits gap))]
    constructor
    case maxPacketAge => exact mirrors.maxPacketAge
    case maxNackEntries => exact mirrors.maxNackEntries
    case started => exact mirrors.started
    case highest => rfl
    case histogram => exact mirrors.histogram
    case missing =>
      have wait : full.waitNumberOfPackets (1 / 2) = base.waitNumberOfPackets (1 / 2) := by
        rw [NackGenerator.waitNumberOfPackets, NackGenerator.waitNumberOfPackets,
          mirrors.histogram]
      refine (NackGenerator.insert_missing_entries fullOrderly.backlog.below).trans ?_
      rw [mirrors.lost correct baseOrderly.valid fullOrderly.valid, mirrors.missing, wait]
      refine Eq.trans ?_ (congrArg (List.filter _)
        (NackGenerator.insert_missing_entries baseOrderly.backlog.below)).symm
      rw [List.filter_append, List.filter_map]
      rfl
    case ahead =>
      intro x above
      exact mirrors.ahead x (high.trans above)
  · have fullClose : ¬full.highestExtSeq + 1 < extSeq := mirrors.highest ▸ gap
    rw [NackGenerator.revealGap, NackGenerator.revealGap, if_neg gap, if_neg fullClose]
    exact ⟨mirrors.maxPacketAge, mirrors.maxNackEntries, mirrors.started, rfl, mirrors.histogram,
      mirrors.missing, fun x above => mirrors.ahead x (high.trans above)⟩

theorem refl (self : NackGenerator) : Mirrors [] self self where
  maxPacketAge := rfl
  maxNackEntries := rfl
  started := rfl
  highest := rfl
  histogram := rfl
  missing := by simp
  ahead := fun x _ => by simp

theorem original (correct : library.Correct) (mirrors : Mirrors inserted base full)
    (baseOrderly : Orderly limit base) (fullOrderly : Orderly limit full)
    (running : base.started = true) {clock : ℚ} {extSeq : Int} {isRecovered : Bool}
    (fits : Fits library base (.observePacket clock extSeq false isRecovered)) :
    Mirrors inserted (base.observePacket library clock extSeq false isRecovered)
      (full.observePacket library clock extSeq false isRecovered) := by
  have fullRunning := mirrors.started.trans running
  have arrived := mirrors.arrive correct baseOrderly.valid fullOrderly.valid extSeq
  cases isRecovered with
  | true =>
      rw [NackGenerator.observe_packet_recovered running,
        NackGenerator.observe_packet_recovered fullRunning]
      exact arrived
  | false =>
      by_cases high : base.highestExtSeq < extSeq
      · have fullHigh : full.highestExtSeq < extSeq := mirrors.highest ▸ high
        rw [NackGenerator.observe_packet_high running high,
          NackGenerator.observe_packet_high fullRunning fullHigh]
        have baseArrived := baseOrderly.arrive correct extSeq
        have fullArrived := fullOrderly.arrive correct extSeq
        obtain ⟨baseMissing, baseNeed, baseGap, baseBacklog⟩ :=
          NackGenerator.reveal_gap_backlog correct baseArrived.valid baseArrived.entries
            baseArrived.backlog clock high false
        obtain ⟨fullMissing, fullNeed, fullGap, fullBacklog⟩ :=
          NackGenerator.reveal_gap_backlog correct fullArrived.valid fullArrived.entries
            fullArrived.backlog clock fullHigh false
        have jumped := arrived.reveal_gap correct baseArrived fullArrived clock high (fits running)
        rw [baseGap, fullGap] at jumped ⊢
        exact jumped.evict_old baseArrived.valid fullArrived.valid baseBacklog.ascending
          fullBacklog.ascending
      · have low := not_lt.mp high
        rw [NackGenerator.observe_packet_low running low,
          NackGenerator.observe_packet_low fullRunning (mirrors.highest ▸ low)]
        refine ⟨arrived.maxPacketAge, arrived.maxNackEntries, arrived.started, arrived.highest, ?_,
          arrived.missing, arrived.ahead⟩
        change (if extSeq < full.highestExtSeq then _ else _) = _
        rw [mirrors.highest, mirrors.histogram]

end Mirrors

section Runs

variable {library : Library} (correct : library.Correct) {limit : Nat}

include correct

/-- Behind the first packet the two runs mirror each other step by step. -/
theorem run_mirrors {arrivals : List Arrived} {inserted : List Int} {base full : NackGenerator}
    (mirrors : Mirrors inserted base full) (baseOrderly : Orderly limit base)
    (fullOrderly : Orderly limit full) (running : base.started = true)
    (fits : Always (NackGenerator.step library) (Fits library) base (baseRun arrivals)) :
    Mirrors (inserted ++ insertedSeqs arrivals)
      (run (NackGenerator.step library) base (baseRun arrivals)).1
      (run (NackGenerator.step library) full (fullRun arrivals)).1 := by
  induction arrivals generalizing inserted base full with
  | nil =>
      rw [insertedSeqs, List.filterMap_nil, List.append_nil]
      exact mirrors
  | cons arrival rest ih =>
      cases arrival with
      | original clock extSeq isRecovered =>
          obtain ⟨now, later⟩ := fits
          have arrived : base.Arrival library clock extSeq false isRecovered _ :=
            NackGenerator.observe_packet_arrival correct baseOrderly.valid clock false isRecovered
          exact ih (mirrors.original correct baseOrderly fullOrderly running now)
            (baseOrderly.observe_packet correct clock extSeq false isRecovered)
            (fullOrderly.observe_packet correct clock extSeq false isRecovered)
            arrived.started later
      | inserted clock extSeq isKeyframe =>
          have step := ih (mirrors.insert correct fullOrderly.valid running clock extSeq isKeyframe)
            baseOrderly (fullOrderly.observe_packet correct clock extSeq isKeyframe true) running fits
          rw [List.append_assoc] at step
          exact step

/-- Recovered packets leave the run alone when none of them is the first packet of all. -/
theorem unaffected_of_first_original {opts : NackOptions} {start : NackGenerator}
    (built : NackGenerator.new opts = .ok start) {arrivals : List Arrived}
    (fits : Always (NackGenerator.step library) (Fits library) start (baseRun arrivals))
    (first : FirstOriginal arrivals) : Unaffected library start arrivals := by
  cases arrivals with
  | nil => exact ⟨rfl, rfl, by simp [insertedSeqs, fullRun, baseRun]⟩
  | cons arrival rest =>
      cases arrival with
      | inserted clock extSeq isKeyframe => exact absurd (first _ rfl) (by simp [Arrived.isOriginal])
      | original clock extSeq isRecovered =>
          have orderly := (new_fresh built).orderly.observe_packet correct clock extSeq false isRecovered
          have arrived : start.Arrival library clock extSeq false isRecovered _ :=
            NackGenerator.observe_packet_arrival correct (new_fresh built).orderly.valid clock false
              isRecovered
          have mirrors := run_mirrors correct (.refl _) orderly orderly arrived.started fits.2
          exact ⟨mirrors.highest, mirrors.histogram, mirrors.missing⟩

end Runs

theorem always_initial {library : Library} {start : NackGenerator} {earlier later : List Arrived}
    (fits : Always (NackGenerator.step library) (Fits library) start (baseRun (earlier ++ later))) :
    Always (NackGenerator.step library) (Fits library) start (baseRun earlier) := by
  rw [baseRun, List.filter_append, List.map_append, always_append] at fits
  exact fits.1

/-- At every point of a run without overflow, recovered packets that are inserted behind its first
packet change nothing but that they are no longer missing. A recovered packet before it shows at
once. -/
theorem recovered_apart {library : Library} (correct : library.Correct) {opts : NackOptions}
    {start : NackGenerator} (built : NackGenerator.new opts = .ok start) {arrivals : List Arrived}
    (fits : Always (NackGenerator.step library) (Fits library) start (baseRun arrivals)) :
    (FirstOriginal arrivals →
      ∀ earlier later, arrivals = earlier ++ later → Unaffected library start earlier) ∧
    ((∀ seq ∈ insertedSeqs arrivals, 0 ≤ seq) →
      (∀ earlier later, arrivals = earlier ++ later → Unaffected library start earlier) →
      FirstOriginal arrivals) := by
  constructor
  · intro first earlier later split
    rw [split] at fits first
    apply unaffected_of_first_original correct built (always_initial fits)
    intro arrival here
    apply first
    rw [List.head?_append, Option.mem_def.mp here]
    rfl
  · intro nonneg unaffected first here
    cases arrivals with
    | nil => cases here
    | cons arrival rest =>
        cases here
        cases first with
        | original clock extSeq isRecovered => rfl
        | inserted clock extSeq isKeyframe =>
            obtain ⟨fresh, initial, _⟩ := new_eq built
            have highest := (unaffected [.inserted clock extSeq isKeyframe] rest rfl).highest
            have anchored : (start.observePacket library clock extSeq isKeyframe
                true).highestExtSeq = extSeq := by
              have arrival : start.Arrival library clock extSeq isKeyframe true _ :=
                NackGenerator.observe_packet_arrival correct (new_fresh built).orderly.valid clock
                  isKeyframe true
              rw [arrival.highest, NackGenerator.reach_idle fresh.started]
            have below := highest.symm.trans anchored
            change start.highestExtSeq = extSeq at below
            have positive := nonneg extSeq List.mem_cons_self
            omega

def recoveredBehindFirst : List Arrived :=
  [.original 0 1 false, .original 0 4 false, .inserted 0 3 false, .inserted 0 6 false,
    .original 0 8 false]

theorem recovered_apart_behind_first :
    Unaffected reference defaultGenerator recoveredBehindFirst :=
  (recovered_apart reference_correct
    (show NackGenerator.new ⟨none, none, none, none, none, none, none⟩ = .ok defaultGenerator
      from rfl) (by decide +kernel)).1 (by decide) _ [] rfl

/-- The first packet is a recovered one, and then a gap below it is not seen. -/
theorem recovered_not_always_apart :
    ¬ ∀ (opts : NackOptions) (start : NackGenerator), NackGenerator.new opts = .ok start →
      ∀ arrivals : List Arrived,
        Always (NackGenerator.step reference) (Fits reference) start (baseRun arrivals) →
        Unaffected reference start arrivals := by
  intro always
  have unaffected := always ⟨none, none, none, none, none, none, none⟩ defaultGenerator rfl
    [.inserted 0 10 false, .original 0 5 false, .original 0 7 false] (by decide +kernel)
  exact absurd unaffected.missing (by decide +kernel)

end RtpPacket.Nack
