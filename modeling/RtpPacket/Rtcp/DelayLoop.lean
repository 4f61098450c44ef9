import RtpPacket.Rtcp.Measurement

/-!
# The delay loop

The sender numbers its packets, records when each one left, and reads the feedback that the
receiver builds from their arrivals. A controller that sees sendings and arrivals itself
says what the loop comes to: of a window of arrivals only the growth of the delay from its
first packet to its last counts, spread over the arrivals, and what was sent from one to
the other bounds the probing. Times are whole milliseconds at the receiver, and sums and
quotients are exact.
-/

namespace RtpPacket.Rtcp

open Run Word

set_option autoImplicit false

namespace FeedbackGenerator

def pending (self : FeedbackGenerator) : Nat := self.arrivalMap.length

def setMediaSsrc (self : FeedbackGenerator) (ssrc : Int) : FeedbackGenerator :=
  { self with mediaSsrc := wrapUnsigned 32 ssrc }

def reset (self : FeedbackGenerator) : FeedbackGenerator :=
  { self with
    arrivalMap := []
    fbPktCount := 0 }

end FeedbackGenerator

structure DelayLoop where
  sender : BandwidthEstimator
  receiver : FeedbackGenerator
  /-- How many packets were sent. -/
  count : Nat

inductive LoopEvent where
  | send (sendTimeMs sizeBytes : ℚ)
  | observeRemb (bitrateBps : ℚ)
  /-- The packet with this index arrives, maybe not for the first time. -/
  | arrive (index : Nat) (timeMs : Int)
  | feedback
  | setMediaSsrc (ssrc : Int)
  | reset

structure Reading where
  estimate : ℚ
  delayTrendMs : ℚ
  pending : Nat
  deriving DecidableEq

namespace DelayLoop

def new (opts : EstimatorOptions) (senderSsrc mediaSsrc : Option Nat) : DelayLoop where
  sender := .new opts
  receiver := .new senderSsrc mediaSsrc
  count := 0

def report (self : DelayLoop) : Option TransportCCReport :=
  self.receiver.buildFeedback.2.bind fun packet => parseTransportCC (packet.drop 12)

def call (start : Nat) (self : DelayLoop) : LoopEvent → DelayLoop
  | .send sendTimeMs sizeBytes =>
      { self with
        sender := self.sender.recordSend 0 (some (numberOf start self.count)) (some sendTimeMs)
          (some sizeBytes)
        count := self.count + 1 }
  | .observeRemb bitrateBps => { self with sender := self.sender.observeRemb bitrateBps }
  | .arrive index timeMs =>
      { self with receiver := self.receiver.recordArrival (numberOf start index) timeMs }
  | .feedback =>
      { self with
        sender := self.sender.observeTransportCC self.report
        receiver := self.receiver.buildFeedback.1 }
  | .setMediaSsrc ssrc => { self with receiver := self.receiver.setMediaSsrc ssrc }
  | .reset => { self with receiver := self.receiver.reset }

def reading (self : DelayLoop) : Reading where
  estimate := self.sender.getEstimate
  delayTrendMs := self.sender.delayTrendMs
  pending := self.receiver.pending

def step (start : Nat) (self : DelayLoop) (event : LoopEvent) : DelayLoop × List Reading :=
  (self.call start event, [(self.call start event).reading])

end DelayLoop

structure Controller where
  /-- Bounds, ceiling, estimate and trend; it keeps no history. -/
  rate : BandwidthEstimator
  sent : List SendRecord
  /-- The first arrival of each packet since the last feedback, by index. -/
  seen : List Arrival

namespace Controller

def new (opts : EstimatorOptions) : Controller where
  rate := .new opts
  sent := []
  seen := []

def leftAt (sent : List SendRecord) (arrival : Arrival) : ℚ :=
  (sent[arrival.seq]?.map (·.sendTimeMs)).getD 0

/-- How much longer one packet was on its way than another. -/
def growth (sent : List SendRecord) (first last : Arrival) : ℚ :=
  (last.timeMs - first.timeMs) - (leftAt sent last - leftAt sent first)

def between (sent : List SendRecord) (first last : Arrival) : List SendRecord :=
  (sent.drop first.seq).take (last.seq - first.seq + 1)

def observe (self : Controller) (first : Arrival) (later : List Arrival) : BandwidthEstimator :=
  let last := (first :: later).getLast (List.cons_ne_nil _ _)
  let delayTrendMs := 6 / 10 * self.rate.delayTrendMs +
    4 / 10 * (growth self.sent first last / later.length)
  { self.rate with
    delayTrendMs := delayTrendMs
    estimate := round
      (self.rate.probe delayTrendMs (throughput (between self.sent first last))) }

def call (self : Controller) : LoopEvent → Controller
  | .send sendTimeMs sizeBytes => { self with sent := self.sent ++ [⟨sendTimeMs, sizeBytes⟩] }
  | .observeRemb bitrateBps => { self with rate := self.rate.observeRemb bitrateBps }
  | .arrive index timeMs =>
      if self.seen.any (·.seq = index) then self
      else { self with seen := self.seen ++ [⟨index, timeMs⟩] }
  | .feedback =>
      match sortBySeq self.seen with
      | first :: second :: later =>
          { self with rate := self.observe first (second :: later), seen := [] }
      | _ => { self with seen := [] }
  | .setMediaSsrc _ => self
  | .reset => { self with seen := [] }

def reading (self : Controller) : Reading where
  estimate := self.rate.estimate
  delayTrendMs := self.rate.delayTrendMs
  pending := self.seen.length

def step (self : Controller) (event : LoopEvent) : Controller × List Reading :=
  (self.call event, [(self.call event).reading])

/-- The sender's clock does not run backwards, a packet arrives and is reported before
2048 more are sent, and neighbours of a window arrive at most 8191 ms apart. -/
def Admits (self : Controller) : LoopEvent → Prop
  | .send sendTimeMs _ =>
      0 ≤ sendTimeMs ∧ (∀ rec ∈ self.sent, rec.sendTimeMs ≤ sendTimeMs) ∧
        ∀ arrival ∈ self.seen, self.sent.length < arrival.seq + 2048
  | .observeRemb _ => True
  | .arrive index timeMs =>
      index < self.sent.length ∧ self.sent.length ≤ index + 2048 ∧ 0 ≤ timeMs
  | .feedback => Paced ((sortBySeq self.seen).map (·.timeMs))
  | .setMediaSsrc _ => True
  | .reset => True

end Controller

def Arrival.numbered (start : Nat) (arrival : Arrival) : Arrival :=
  { arrival with seq := numberOf start arrival.seq }

/-- The arrival counted up from the number of the first one of its window. -/
def Arrival.placed (start : Nat) (arrival first : Arrival) : Arrival :=
  { arrival with seq := numberOf start first.seq + (arrival.seq - first.seq) }

section Report

open BandwidthEstimator (trend)

variable {start : Nat} {sent : List SendRecord} {sender : BandwidthEstimator}

theorem placed_wrapped {first arrival : Arrival} (after : first.seq ≤ arrival.seq) :
    (arrival.placed start first).wrapped = arrival.numbered start := by
  rw [Arrival.placed, Arrival.wrapped, Arrival.numbered]
  congr 1
  simp only [numberOf]
  omega

theorem sort_by_seq_ascending {arrs : List Arrival} (distinct : (arrs.map (·.seq)).Nodup) :
    (sortBySeq arrs).Pairwise (·.seq < ·.seq) := by
  have total : Std.Total fun left right : Arrival => left.seq ≤ right.seq :=
    ⟨fun left right => Nat.le_total left.seq right.seq⟩
  have transitive : IsTrans Arrival fun left right => left.seq ≤ right.seq :=
    ⟨fun _ _ _ => Nat.le_trans⟩
  have ordered : (sortBySeq arrs).Pairwise fun left right => left.seq ≤ right.seq :=
    List.pairwise_insertionSort _ arrs
  have apart : (sortBySeq arrs).Pairwise fun left right => left.seq ≠ right.seq :=
    List.pairwise_map.mp (((List.perm_insertionSort _ arrs).map _).nodup_iff.mpr distinct)
  exact (ordered.and apart).imp fun both => lt_of_le_of_ne both.1 both.2

/-- A window of arrivals by index, of packets that the sender still remembers. -/
structure Seen (sent : List SendRecord) (first : Arrival) (later : List Arrival) : Prop where
  ascending : (first :: later).Pairwise (·.seq < ·.seq)
  recent : sent.length ≤ first.seq + 2048
  inside : ∀ arrival ∈ first :: later, arrival.seq < sent.length
  times : ∀ arrival ∈ first :: later, 0 ≤ arrival.timeMs
  paced : Paced ((first :: later).map (·.timeMs))

variable {first : Arrival} {later : List Arrival}

theorem Seen.after (seen : Seen sent first later) {arrival : Arrival}
    (member : arrival ∈ first :: later) : first.seq ≤ arrival.seq := by
  cases List.mem_cons.mp member with
  | inl same => rw [same]
  | inr behind => exact ((List.pairwise_cons.mp seen.ascending).1 arrival behind).le

theorem Seen.window (seen : Seen sent first later) (start : Nat) :
    Window (first.placed start first) (later.map (·.placed start first)) := by
  constructor
  · simp only [Arrival.placed, numberOf]
    omega
  · rw [← List.map_cons (f := fun arrival : Arrival => arrival.placed start first),
      List.pairwise_map]
    apply seen.ascending.imp_of_mem
    intro left right leftMember rightMember less
    have before := seen.after leftMember
    simp only [Arrival.placed]
    omega
  · intro placed member
    obtain ⟨arrival, behind, rfl⟩ := List.mem_map.mp member
    have small := seen.inside arrival (List.mem_cons_of_mem _ behind)
    have recent := seen.recent
    simp only [Arrival.placed]
    omega
  · intro placed member
    rw [← List.map_cons (f := fun arrival : Arrival => arrival.placed start first)] at member
    obtain ⟨arrival, behind, rfl⟩ := List.mem_map.mp member
    exact seen.times arrival behind
  · rw [← List.map_cons (f := fun arrival : Arrival => arrival.placed start first),
      List.isChain_map]
    exact (List.isChain_map _).mp seen.paced

def statusesOf (start : Nat) (first : Arrival) (later : List Arrival) : List PacketStatus :=
  statusesFrom (first.placed start first).seq
    (spanOf (first.placed start first) (later.map (·.placed start first)))
    (first.timeMs / 64 * 64) (first.placed start first :: later.map (·.placed start first))

theorem last_placed (start : Nat) (first : Arrival) (later : List Arrival) :
    (first.placed start first :: later.map (·.placed start first)).getLast
        (List.cons_ne_nil _ _) =
      ((first :: later).getLast (List.cons_ne_nil _ _)).placed start first :=
  @List.getLast_map _ _ (fun arrival => Arrival.placed start arrival first) (first :: later)
    (List.cons_ne_nil _ _)

theorem span_placed (seen : Seen sent first later) (start : Nat) :
    spanOf (first.placed start first) (later.map (·.placed start first)) =
      ((first :: later).getLast (List.cons_ne_nil _ _)).seq - first.seq + 1 := by
  have after := seen.after (List.getLast_mem (List.cons_ne_nil first later))
  rw [spanOf, last_placed]
  simp only [Arrival.placed]
  omega

/-- The report that the sender reads of a window, whatever order the arrivals came in. -/
theorem Seen.reads (seen : Seen sent first later) {receiver : FeedbackGenerator}
    {arrs : List Arrival} (stored : receiver.arrivalMap = arrs.map (·.numbered start))
    (same : arrs.Perm (first :: later)) :
    ∃ report : TransportCCReport,
      (receiver.buildFeedback.2.bind fun packet => parseTransportCC (packet.drop 12)) =
          some report ∧
        report.packets =
          reportedFrom (first.placed start first).seq (statusesOf start first later) := by
  have wrapped : (arrs.map (·.placed start first)).map (·.wrapped) =
      arrs.map (·.numbered start) := by
    rw [List.map_map]
    apply List.map_congr_left
    intro arrival member
    exact placed_wrapped (seen.after (same.subset member))
  have window := seen.window start
  have permuted : ((arrs.map (·.placed start first)).map (·.wrapped)).Perm
      ((first.placed start first :: later.map (·.placed start first)).map (·.wrapped)) :=
    (same.map _).map _
  have kept : recordAll { receiver with arrivalMap := [] } (arrs.map (·.placed start first)) =
      receiver := by
    rw [record_all_distinct, wrapped, List.nil_append, ← stored]
    rw [List.nil_append]
    exact (permuted.map _).nodup_iff.mpr (window_distinct window)
  have parsed := @parse_window_feedback _ _ window { receiver with arrivalMap := [] } _ rfl permuted
  rw [kept] at parsed
  exact ⟨_, parsed, rfl⟩

/-- A report of at least two packets tells what a controller at both ends would see. -/
theorem Seen.observed (seen : Seen sent first later) (recorded : Recorded start sent sender)
    (several : later ≠ []) (ordered : (sent.map (·.sendTimeMs)).Pairwise (· ≤ ·))
    (nonneg : ∀ rec ∈ sent, 0 ≤ rec.sendTimeMs) {report : TransportCCReport}
    (packets : report.packets =
      reportedFrom (first.placed start first).seq (statusesOf start first later))
    (arrivals : List Arrival) :
    (sender.observeTransportCC (some report)).withoutHistory =
      Controller.observe ⟨sender.withoutHistory, sent, arrivals⟩ first later := by
  obtain ⟨last, isLast⟩ :
      ∃ last, (first :: later).getLast (List.cons_ne_nil _ _) = last := ⟨_, rfl⟩
  have lastMember : last ∈ first :: later := isLast ▸ List.getLast_mem (List.cons_ne_nil _ _)
  have lastAfter := seen.after lastMember
  have lastInside := seen.inside last lastMember
  have recent := seen.recent
  have span := span_placed seen start
  rw [isLast] at span
  have number : (first.placed start first).seq % 0x10000 = numberOf start first.seq := by
    simp only [Arrival.placed, numberOf]
    omega
  have count : (statusesOf start first later).length = last.seq - first.seq + 1 := by
    rw [statusesOf, statuses_from_length, span]
  have window := seen.window start
  -- What was received, and the sendings that the deltas are held against.
  have got : report.packets.filter (·.received) = received (first.timeMs / 64 * 64)
      (first.placed start first :: later.map (·.placed start first)) := by
    rw [packets]
    have paced := window_paced window
    exact received_from window.ascending (fun _ member => (window_bounds window member).1)
      (span_bounds window).2 paced
  let record (placed : Arrival) : SendRecord :=
    (sender.sendHistory.get (placed.seq % 0x10000)).getD ⟨0, 0⟩
  have looked {arrival : Arrival} (member : arrival ∈ first :: later) :
      sender.sendHistory.get ((arrival.placed start first).seq % 0x10000) =
          some (record (arrival.placed start first)) ∧
        (record (arrival.placed start first)).sendTimeMs = Controller.leftAt sent arrival := by
    have inside := seen.inside arrival member
    have after := seen.after member
    have named : (arrival.placed start first).seq % 0x10000 = numberOf start arrival.seq :=
      congrArg Arrival.seq (placed_wrapped after)
    have found := recorded.history _ _ (List.getElem?_eq_getElem inside) (by omega)
    simp only [record, named, found, Controller.leftAt, List.getElem?_eq_getElem inside,
      Option.getD_some, Option.map_some, and_self]
  have remembered : ∀ placed ∈ first.placed start first :: later.map (·.placed start first),
      sender.sendHistory.get (placed.seq % 0x10000) = some (record placed) := by
    intro placed member
    rw [← List.map_cons (f := fun arrival : Arrival => arrival.placed start first)] at member
    obtain ⟨arrival, there, rfl⟩ := List.mem_map.mp member
    exact (looked there).1
  obtain ⟨pairs, total⟩ := gradient_of_received remembered got
  rw [last_placed, isLast, (looked lastMember).2, (looked List.mem_cons_self).2] at total
  have remembers : Remembers sender.sendHistory report.packets
      (Controller.between sent first last) := by
    have covered := recorded.remembers (statusesOf start first later) number (by omega) recent
    rw [count] at covered
    rw [packets]
    exact covered
  have short : (Controller.between sent first last).Sublist sent :=
    (List.take_sublist _ _).trans (List.drop_sublist _ _)
  have passed := actual_bps_eq remembers (ordered.sublist (short.map _))
    fun rec member => nonneg rec (short.subset member)
  have enough : ¬ report.packets.length < 2 := by
    have ascending := seen.ascending
    obtain ⟨second, rest, rfl⟩ := List.exists_cons_of_ne_nil several
    have apart := (List.pairwise_cons.mp ascending).1 last (by
      rw [← isLast, List.getLast_cons_cons]
      exact List.getLast_mem _)
    rw [remembers.length_eq, Controller.between, List.length_take, List.length_drop]
    omega
  rw [List.length_map] at pairs
  have paired :
      ¬ (BandwidthEstimator.gradient sender.sendHistory report.packets).pairCount = 0 := by
    rw [pairs]
    exact fun none => several (List.length_eq_zero_iff.mp none)
  have grown : trend sender.delayTrendMs
      ((BandwidthEstimator.gradient sender.sendHistory report.packets).totalGradientUs /
        (BandwidthEstimator.gradient sender.sendHistory report.packets).pairCount) =
      6 / 10 * sender.delayTrendMs +
        4 / 10 * (Controller.growth sent first last / later.length) := by
    rw [trend, total, pairs, Controller.growth]
    simp only [Arrival.placed]
    ring
  simp only [BandwidthEstimator.observeTransportCC, if_neg enough, if_neg paired, grown, passed]
  simp only [BandwidthEstimator.withoutHistory, Controller.observe, isLast]
  rfl

theorem Seen.alone (seen : Seen sent first []) {report : TransportCCReport}
    (packets : report.packets = reportedFrom (first.placed start first).seq
      (statusesOf start first [])) : sender.observeTransportCC (some report) = sender := by
  have span := span_placed seen start
  have one : report.packets.length < 2 := by
    rw [packets, reportedFrom, List.length_map, List.length_zipIdx, statusesOf,
      statuses_from_length, span, List.getLast_singleton]
    omega
  simp only [BandwidthEstimator.observeTransportCC, if_pos one]

end Report

theorem build_feedback_clears (receiver : FeedbackGenerator) :
    receiver.buildFeedback.1.arrivalMap = [] := by
  have length : (unwrapArrivals (sortBySeq receiver.arrivalMap)).length =
      receiver.arrivalMap.length := by
    rw [unwrapArrivals]
    dsimp only
    split_ifs
    · simp only [sortBySeq, List.length_insertionSort, List.length_append, List.length_drop,
        List.length_map, List.length_take]
      omega
    · rw [sortBySeq, List.length_insertionSort]
  rw [FeedbackGenerator.buildFeedback]
  cases shape : unwrapArrivals (sortBySeq receiver.arrivalMap) with
  | nil =>
      rw [shape] at length
      exact List.length_eq_zero_iff.mp length.symm
  | cons first arrs => rfl

/-- What the sender has measured is what a controller would that sees both ends. -/
structure Simulates (start : Nat) (controller : Controller) (loop : DelayLoop) : Prop where
  rate : loop.sender.withoutHistory = controller.rate
  recorded : Recorded start controller.sent loop.sender
  count : loop.count = controller.sent.length
  arrivals : loop.receiver.arrivalMap = controller.seen.map (·.numbered start)
  distinct : (controller.seen.map (·.seq)).Nodup
  fresh : ∀ arrival ∈ controller.seen, arrival.seq < controller.sent.length ∧
    controller.sent.length ≤ arrival.seq + 2048 ∧ 0 ≤ arrival.timeMs
  ordered : (controller.sent.map (·.sendTimeMs)).Pairwise (· ≤ ·)
  nonneg : ∀ rec ∈ controller.sent, 0 ≤ rec.sendTimeMs

namespace Simulates

variable {start : Nat} {controller : Controller} {loop : DelayLoop}

theorem initial (start : Nat) (opts : EstimatorOptions) (senderSsrc mediaSsrc : Option Nat) :
    Simulates start (.new opts) (.new opts senderSsrc mediaSsrc) where
  rate := rfl
  recorded := ⟨(congrArg (List.map _) (List.rtake_nil _)).symm,
    fun _ _ there => nomatch there⟩
  count := rfl
  arrivals := rfl
  distinct := .nil
  fresh := fun _ none => absurd none List.not_mem_nil
  ordered := .nil
  nonneg := fun _ none => absurd none List.not_mem_nil

theorem send (simulates : Simulates start controller loop) {sendTimeMs sizeBytes : ℚ}
    (admits : controller.Admits (.send sendTimeMs sizeBytes)) :
    Simulates start (controller.call (.send sendTimeMs sizeBytes))
      (loop.call start (.send sendTimeMs sizeBytes)) := by
  obtain ⟨positive, latest, recent⟩ := admits
  have written := simulates.recorded.send sendTimeMs sizeBytes
  rw [← simulates.count] at written
  constructor
  · exact (record_send_rate _ _ _ _ _).trans simulates.rate
  · exact written
  · simp only [DelayLoop.call, Controller.call, simulates.count, List.length_append,
      List.length_singleton]
  · exact simulates.arrivals
  · exact simulates.distinct
  · intro arrival member
    have known := simulates.fresh arrival member
    have near := recent arrival member
    simp only [Controller.call, List.length_append, List.length_singleton]
    omega
  · simp only [Controller.call, List.map_append, List.map_singleton]
    rw [List.pairwise_append]
    refine ⟨simulates.ordered, List.pairwise_singleton _ _, ?_⟩
    intro earlier member last isLast
    obtain ⟨rec, there, rfl⟩ := List.mem_map.mp member
    rw [List.mem_singleton.mp isLast]
    exact latest rec there
  · intro rec member
    cases List.mem_append.mp member with
    | inl earlier => exact simulates.nonneg rec earlier
    | inr last =>
        rw [List.mem_singleton.mp last]
        exact positive

theorem remb (simulates : Simulates start controller loop) (bitrateBps : ℚ) :
    Simulates start (controller.call (.observeRemb bitrateBps))
      (loop.call start (.observeRemb bitrateBps)) := by
  obtain ⟨history, order, rate⟩ := observe_remb_history loop.sender bitrateBps
  exact
    { rate := rate.trans (congrArg (·.observeRemb bitrateBps) simulates.rate)
      recorded := simulates.recorded.of_same order history
      count := simulates.count
      arrivals := simulates.arrivals
      distinct := simulates.distinct
      fresh := simulates.fresh
      ordered := simulates.ordered
      nonneg := simulates.nonneg }

theorem arrive (simulates : Simulates start controller loop) {index : Nat} {timeMs : Int}
    (admits : controller.Admits (.arrive index timeMs)) :
    Simulates start (controller.call (.arrive index timeMs))
      (loop.call start (.arrive index timeMs)) := by
  obtain ⟨inside, recent, positive⟩ := admits
  have wrapped : numberOf start index % 0x10000 = numberOf start index := Nat.mod_mod _ _
  have same {arrival : Arrival} (member : arrival ∈ controller.seen) :
      numberOf start arrival.seq = numberOf start index ↔ arrival.seq = index := by
    have near := simulates.fresh arrival member
    simp only [numberOf]
    omega
  have known : loop.receiver.arrivalMap.any (·.seq = numberOf start index) =
      controller.seen.any (·.seq = index) := by
    rw [simulates.arrivals, List.any_map, Bool.eq_iff_iff, List.any_eq_true, List.any_eq_true]
    constructor
    · rintro ⟨arrival, member, equal⟩
      exact ⟨arrival, member, decide_eq_true ((same member).mp (of_decide_eq_true equal))⟩
    · rintro ⟨arrival, member, equal⟩
      exact ⟨arrival, member, decide_eq_true ((same member).mpr (of_decide_eq_true equal))⟩
  rw [Controller.call, DelayLoop.call, FeedbackGenerator.recordArrival]
  rw [wrapped, known]
  split_ifs with repeated
  · exact simulates
  · exact
    { simulates with
      arrivals := by
        dsimp only
        rw [simulates.arrivals, List.map_append]
        rfl
      distinct := by
        rw [List.map_append, List.nodup_append]
        refine ⟨simulates.distinct, List.nodup_singleton _, ?_⟩
        rintro seq member other last rfl
        obtain ⟨arrival, there, equal⟩ := List.mem_map.mp member
        apply repeated
        rw [List.any_eq_true]
        exact ⟨arrival, there, decide_eq_true (equal.trans (List.mem_singleton.mp last))⟩
      fresh := by
        intro arrival member
        cases List.mem_append.mp member with
        | inl earlier => exact simulates.fresh arrival earlier
        | inr last =>
            rw [List.mem_singleton.mp last]
            exact ⟨inside, recent, positive⟩ }

theorem feedback (simulates : Simulates start controller loop)
    (admits : controller.Admits .feedback) :
    Simulates start (controller.call .feedback) (loop.call start .feedback) := by
  obtain ⟨history, order⟩ := observe_transport_cc_history loop.sender loop.report
  have recorded := simulates.recorded
  have rate : (loop.sender.observeTransportCC loop.report).withoutHistory =
      (controller.call .feedback).rate := by
    have same : controller.seen.Perm (sortBySeq controller.seen) :=
      (List.perm_insertionSort _ _).symm
    have ascending := sort_by_seq_ascending simulates.distinct
    rw [Controller.call]
    cases sorted : sortBySeq controller.seen with
    | nil =>
        rw [sorted] at same
        have empty : loop.receiver.arrivalMap = [] := by
          rw [simulates.arrivals, List.perm_nil.mp same]
          rfl
        have silent : loop.report = none := by
          rw [DelayLoop.report, FeedbackGenerator.buildFeedback, empty]
          rfl
        rw [silent]
        exact simulates.rate
    | cons first later =>
        rw [sorted] at same ascending
        have fresh := fun arrival member => simulates.fresh arrival (same.symm.subset member)
        have seen : Seen controller.sent first later :=
          { ascending := ascending
            recent := (fresh first List.mem_cons_self).2.1
            inside := fun arrival member => (fresh arrival member).1
            times := fun arrival member => (fresh arrival member).2.2
            paced := sorted ▸ admits }
        obtain ⟨report, reads, packets⟩ := seen.reads simulates.arrivals same
        rw [DelayLoop.report, reads]
        cases later with
        | nil =>
            rw [seen.alone packets]
            exact simulates.rate
        | cons second later =>
            rw [seen.observed recorded (List.cons_ne_nil _ _) simulates.ordered simulates.nonneg
              packets controller.seen, simulates.rate]
  have sent : (controller.call .feedback).sent = controller.sent := by
    rw [Controller.call]
    split
    · rfl
    · rfl
  have seen : (controller.call .feedback).seen = [] := by
    rw [Controller.call]
    split
    · rfl
    · rfl
  constructor
  · exact rate
  · rw [sent]
    exact recorded.of_same order history
  · rw [sent]
    exact simulates.count
  · rw [seen]
    exact build_feedback_clears loop.receiver
  · rw [seen]
    exact .nil
  · rw [seen]
    exact fun _ none => absurd none List.not_mem_nil
  · rw [sent]
    exact simulates.ordered
  · rw [sent]
    exact simulates.nonneg

theorem set_media_ssrc (simulates : Simulates start controller loop) (ssrc : Int) :
    Simulates start (controller.call (.setMediaSsrc ssrc))
      (loop.call start (.setMediaSsrc ssrc)) :=
  { simulates with arrivals := simulates.arrivals }

theorem reset (simulates : Simulates start controller loop) :
    Simulates start (controller.call .reset) (loop.call start .reset) :=
  { simulates with
    arrivals := rfl
    distinct := .nil
    fresh := fun _ none => absurd none List.not_mem_nil }

theorem reading (simulates : Simulates start controller loop) :
    loop.reading = controller.reading := by
  have pending : loop.receiver.pending = controller.seen.length := by
    rw [FeedbackGenerator.pending, simulates.arrivals, List.length_map]
  rw [DelayLoop.reading, Controller.reading, pending, ← simulates.rate]
  rfl

theorem call (simulates : Simulates start controller loop) {event : LoopEvent}
    (admits : controller.Admits event) :
    Simulates start (controller.call event) (loop.call start event) := by
  cases event with
  | send sendTimeMs sizeBytes => exact simulates.send admits
  | observeRemb bitrateBps => exact simulates.remb bitrateBps
  | arrive index timeMs => exact simulates.arrive admits
  | feedback => exact simulates.feedback admits
  | setMediaSsrc ssrc => exact simulates.set_media_ssrc ssrc
  | reset => exact simulates.reset

theorem run (simulates : Simulates start controller loop) {events : List LoopEvent}
    (admitted : Always Controller.step Controller.Admits controller events) :
    Simulates start (Run.run Controller.step controller events).1
        (Run.run (DelayLoop.step start) loop events).1 ∧
      (Run.run (DelayLoop.step start) loop events).2 =
        (Run.run Controller.step controller events).2 := by
  induction events generalizing controller loop with
  | nil => exact ⟨simulates, rfl⟩
  | cons event rest ih =>
      obtain ⟨now, later⟩ := admitted
      have next := simulates.call now
      obtain ⟨reached, outputs⟩ := ih next later
      refine ⟨reached, ?_⟩
      rw [Run.run, Run.run, DelayLoop.step, Controller.step, outputs, next.reading]

end Simulates

def Arrival.delayed (offset : Int) (arrival : Arrival) : Arrival :=
  { arrival with timeMs := arrival.timeMs + offset }

/-- The event as a receiver sees it whose clock is ahead. -/
def LoopEvent.shifted (offset : Int) : LoopEvent → LoopEvent
  | .arrive index timeMs => .arrive index (timeMs + offset)
  | event => event

def LoopEvent.NotBefore (time : Int) : LoopEvent → Prop
  | .arrive _ timeMs => time ≤ timeMs
  | _ => True

namespace Controller

def shifted (offset : Int) (self : Controller) : Controller :=
  { self with seen := self.seen.map (·.delayed offset) }

theorem sort_by_seq_delayed (offset : Int) (arrs : List Arrival) :
    sortBySeq (arrs.map (·.delayed offset)) = (sortBySeq arrs).map (·.delayed offset) :=
  (List.map_insertionSort _ _ (Arrival.delayed offset) arrs fun _ _ _ _ => Iff.rfl).symm

theorem observe_delayed (self : Controller) (offset : Int) (first : Arrival)
    (later : List Arrival) :
    (self.shifted offset).observe (first.delayed offset) (later.map (·.delayed offset)) =
      self.observe first later := by
  have last : (first.delayed offset :: later.map (·.delayed offset)).getLast
      (List.cons_ne_nil _ _) =
        ((first :: later).getLast (List.cons_ne_nil _ _)).delayed offset :=
    @List.getLast_map _ _ (Arrival.delayed offset) (first :: later) (List.cons_ne_nil _ _)
  have grown (one other : Arrival) :
      growth self.sent (one.delayed offset) (other.delayed offset) =
        growth self.sent one other := by
    simp only [growth, leftAt, Arrival.delayed, Int.cast_add]
    ring
  simp only [observe, last, List.length_map, shifted, grown]
  rfl

theorem call_shifted (self : Controller) (offset : Int) (event : LoopEvent) :
    (self.shifted offset).call (event.shifted offset) = (self.call event).shifted offset := by
  cases event with
  | send sendTimeMs sizeBytes => rfl
  | observeRemb bitrateBps => rfl
  | arrive index timeMs =>
      have known : (self.seen.map (·.delayed offset)).any (·.seq = index) =
          self.seen.any (·.seq = index) := List.any_map
      rw [LoopEvent.shifted, call, call]
      simp only [shifted, known]
      split_ifs
      · rfl
      · simp only [List.map_append]
        rfl
  | feedback =>
      simp only [LoopEvent.shifted, call, shifted, sort_by_seq_delayed]
      cases sortBySeq self.seen with
      | nil => rfl
      | cons first later =>
          cases later with
          | nil => rfl
          | cons second later =>
              have same := self.observe_delayed offset first (second :: later)
              simp only [List.map_cons, shifted] at same ⊢
              rw [same]
              rfl
  | setMediaSsrc ssrc => rfl
  | reset => rfl

theorem admits_shifted {self : Controller} {event : LoopEvent} (admits : self.Admits event)
    {offset : Int} (early : event.NotBefore (-offset)) :
    (self.shifted offset).Admits (event.shifted offset) := by
  cases event with
  | send sendTimeMs sizeBytes =>
      obtain ⟨positive, latest, recent⟩ := admits
      refine ⟨positive, latest, ?_⟩
      intro delayed member
      obtain ⟨arrival, there, rfl⟩ := List.mem_map.mp member
      exact recent arrival there
  | observeRemb bitrateBps => trivial
  | arrive index timeMs =>
      obtain ⟨inside, recent, positive⟩ := admits
      have start : -offset ≤ timeMs := early
      exact ⟨inside, recent, by omega⟩
  | feedback =>
      have paced : Paced ((sortBySeq self.seen).map (·.timeMs)) := admits
      rw [Paced, List.isChain_map] at paced
      change Paced ((sortBySeq (self.seen.map (·.delayed offset))).map (·.timeMs))
      rw [Paced, sort_by_seq_delayed, List.map_map, List.isChain_map]
      apply paced.imp
      intro left right near
      simp only [Function.comp_apply, Arrival.delayed]
      omega
  | setMediaSsrc ssrc => trivial
  | reset => trivial

theorem run_shifted {self : Controller} {offset : Int} {events : List LoopEvent}
    (admitted : Always step Admits self events)
    (early : ∀ event ∈ events, event.NotBefore (-offset)) :
    Always step Admits (self.shifted offset) (events.map (.shifted offset)) ∧
      (run step (self.shifted offset) (events.map (.shifted offset))).2 =
        (run step self events).2 := by
  induction events generalizing self with
  | nil => exact ⟨trivial, rfl⟩
  | cons event rest ih =>
      obtain ⟨now, later⟩ := admitted
      obtain ⟨always, outputs⟩ := ih later fun other member =>
        early other (List.mem_cons_of_mem _ member)
      have next := self.call_shifted offset event
      constructor
      · refine ⟨admits_shifted now (early event List.mem_cons_self), ?_⟩
        rw [step, next]
        exact always
      · have shown : ((self.call event).shifted offset).reading = (self.call event).reading := by
          simp only [reading, shifted, List.length_map]
        rw [List.map_cons, run, run, step, next]
        exact congrArg₂ List.cons shown outputs

end Controller

/-- The loop adjusts the rate as a controller would that sees sendings and arrivals itself,
and where the receiver's clock starts makes no difference. -/
theorem delay_loop_follows (opts : EstimatorOptions) (senderSsrc mediaSsrc : Option Nat)
    (start : Nat) {events : List LoopEvent}
    (admitted : Always Controller.step Controller.Admits (.new opts) events) :
    (run (DelayLoop.step start) (.new opts senderSsrc mediaSsrc) events).2 =
        (run Controller.step (.new opts) events).2 ∧
      ∀ offset, (∀ event ∈ events, event.NotBefore (-offset)) →
        (run (DelayLoop.step start) (.new opts senderSsrc mediaSsrc)
          (events.map (.shifted offset))).2 = (run Controller.step (.new opts) events).2 := by
  constructor
  · exact ((Simulates.initial start opts senderSsrc mediaSsrc).run admitted).2
  · intro offset early
    obtain ⟨always, outputs⟩ := Controller.run_shifted admitted early
    exact ((Simulates.initial start opts senderSsrc mediaSsrc).run always).2.trans outputs

instance (controller : Controller) (event : LoopEvent) : Decidable (controller.Admits event) :=
  match event with
  | .send _ _ => inferInstanceAs (Decidable (_ ∧ _))
  | .observeRemb _ => inferInstanceAs (Decidable True)
  | .arrive _ _ => inferInstanceAs (Decidable (_ ∧ _))
  | .feedback => inferInstanceAs (Decidable (List.IsChain _ _))
  | .setMediaSsrc _ => inferInstanceAs (Decidable True)
  | .reset => inferInstanceAs (Decidable True)

instance (time : Int) (event : LoopEvent) : Decidable (event.NotBefore time) :=
  match event with
  | .send _ _ => inferInstanceAs (Decidable True)
  | .observeRemb _ => inferInstanceAs (Decidable True)
  | .arrive _ timeMs => inferInstanceAs (Decidable (time ≤ timeMs))
  | .feedback => inferInstanceAs (Decidable True)
  | .setMediaSsrc _ => inferInstanceAs (Decidable True)
  | .reset => inferInstanceAs (Decidable True)

def growingDelay : List LoopEvent :=
  [.send 0 1200, .send 20 1200, .send 40 1200, .arrive 0 1000, .arrive 2 1090, .arrive 1 1030,
    .arrive 2 1095, .feedback]

theorem delay_loop_follows_growing :
    (run (DelayLoop.step 65534) (.new ⟨none, none, none⟩ none none) growingDelay).2.getLast? =
        some ⟨475000, 10, 0⟩ ∧
      (run (DelayLoop.step 65534) (.new ⟨none, none, none⟩ none none)
        (growingDelay.map (.shifted 1700000000000))).2.getLast? = some ⟨475000, 10, 0⟩ := by
  obtain ⟨follows, anyClock⟩ :=
    @delay_loop_follows ⟨none, none, none⟩ none none 65534 growingDelay (by decide +kernel)
  have seen : (run Controller.step (.new ⟨none, none, none⟩) growingDelay).2.getLast? =
      some ⟨475000, 10, 0⟩ := by decide +kernel
  constructor
  · rw [follows, seen]
  · rw [anyClock 1700000000000 (by decide), seen]

end RtpPacket.Rtcp
