import RtpPacket.Lib.InsertionMap
import RtpPacket.Lib.Rounding
import RtpPacket.Lib.Run
import RtpPacket.Rtcp.TransportCC

/-!
# The bandwidth estimator

A sender's estimate moves toward the bitrate that the receiver reports, and up or down with
the trend of the delays in its feedback. Both clamp what they compute; the estimate that the
sender starts from is taken as it is given. Arithmetic is exact, where the source has doubles:
right at a threshold the two may part.
-/

namespace RtpPacket.Rtcp

open Rounding Run

set_option autoImplicit false

structure EstimatorOptions where
  minBps : Option ℚ
  maxBps : Option ℚ
  startBps : Option ℚ

structure SendRecord where
  sendTimeMs : ℚ
  sizeBytes : ℚ
  deriving DecidableEq

structure BandwidthEstimator where
  minBps : ℚ
  maxBps : ℚ
  startBps : ℚ
  /-- The last REMB seen, 0 before the first. -/
  remoteRembBps : ℚ
  estimate : ℚ
  sendHistory : InsertionMap Nat SendRecord
  sendHistoryOrder : List Nat
  delayTrendMs : ℚ

/-- `given || fallback`. -/
def orDefault (given : Option ℚ) (fallback : ℚ) : ℚ :=
  match given with
  | some value => if value = 0 then fallback else value
  | none => fallback

namespace BandwidthEstimator

def sendHistoryMax : Nat := 2048

def new (opts : EstimatorOptions) : BandwidthEstimator where
  minBps := orDefault opts.minBps 50000
  maxBps := orDefault opts.maxBps 100000000
  startBps := orDefault opts.startBps 500000
  remoteRembBps := 0
  estimate := orDefault opts.startBps 500000
  sendHistory := .empty
  sendHistoryOrder := []
  delayTrendMs := 0

/-- `clock` is the time that is read for a missing send time. -/
def recordSend (self : BandwidthEstimator) (clock : ℚ) (transportSeq : Option Nat)
    (sendTimeMs sizeBytes : Option ℚ) : BandwidthEstimator :=
  match transportSeq with
  | none => self
  | some transportSeq =>
      let history := self.sendHistory.set transportSeq
        { sendTimeMs := sendTimeMs.getD clock
          sizeBytes := sizeBytes.getD 0 }
      let order := self.sendHistoryOrder ++ [transportSeq]
      if order.length > sendHistoryMax then
        { self with
          sendHistory := (order.take 1).foldl .erase history
          sendHistoryOrder := order.drop 1 }
      else
        { self with
          sendHistory := history
          sendHistoryOrder := order }

def observeRemb (self : BandwidthEstimator) (bitrateBps : ℚ) : BandwidthEstimator :=
  if bitrateBps ≤ 0 then self
  else if bitrateBps < 10000 then self
  else
    let target := min bitrateBps self.maxBps
    let target := max target self.minBps
    { self with
      remoteRembBps := bitrateBps
      estimate := round ((self.estimate + target) / 2) }

structure Gradient where
  totalGradientUs : ℚ
  pairCount : Nat
  prevSeq : Option Nat
  prevSendMs : ℚ

def gradientStep (history : InsertionMap Nat SendRecord) (scan : Gradient) (p : ReportedPacket) :
    Gradient :=
  match p.received, p.deltaUs with
  | true, some deltaUs =>
      match history.get p.seq with
      | none => { scan with prevSeq := some p.seq }
      | some rec =>
          let sendDeltaMs := rec.sendTimeMs - scan.prevSendMs
          let paired := (scan.prevSeq.bind history.get).isSome
          { totalGradientUs :=
              if paired then scan.totalGradientUs + (deltaUs - sendDeltaMs * 1000)
              else scan.totalGradientUs
            pairCount := if paired then scan.pairCount + 1 else scan.pairCount
            prevSeq := some p.seq
            prevSendMs := rec.sendTimeMs }
  | _, _ => scan

def gradient (history : InsertionMap Nat SendRecord) (packets : List ReportedPacket) : Gradient :=
  packets.foldl (gradientStep history)
    { totalGradientUs := 0
      pairCount := 0
      prevSeq := none
      prevSendMs := 0 }

/-- What was sent of the reported packets; no first time stands for infinity. -/
structure SentWindow where
  bytesInWindow : ℚ
  firstSendMs : Option ℚ
  lastSendMs : ℚ

def windowStep (history : InsertionMap Nat SendRecord) (window : SentWindow)
    (p : ReportedPacket) : SentWindow :=
  match history.get p.seq with
  | none => window
  | some rec =>
      { bytesInWindow := window.bytesInWindow + rec.sizeBytes
        firstSendMs :=
          match window.firstSendMs with
          | none => some rec.sendTimeMs
          | some first => if rec.sendTimeMs < first then some rec.sendTimeMs else some first
        lastSendMs :=
          if rec.sendTimeMs > window.lastSendMs then rec.sendTimeMs else window.lastSendMs }

/-- 0 where the window is too short to tell. -/
def actualBps (history : InsertionMap Nat SendRecord) (packets : List ReportedPacket) : ℚ :=
  let window := packets.foldl (windowStep history)
    { bytesInWindow := 0
      firstSendMs := none
      lastSendMs := 0 }
  let windowMs :=
    match window.firstSendMs with
    | none => 0
    | some first => if window.lastSendMs > first then window.lastSendMs - first else 0
  if windowMs > 10 then window.bytesInWindow * 8 * 1000 / windowMs else 0

def trend (delayTrendMs avgGradientUs : ℚ) : ℚ :=
  (1 - 4 / 10) * delayTrendMs + 4 / 10 * (avgGradientUs / 1000)

def probe (self : BandwidthEstimator) (delayTrendMs actualBps : ℚ) : ℚ :=
  let next :=
    if delayTrendMs > 5 then self.estimate * (95 / 100)
    else if delayTrendMs < -3 then self.estimate * (102 / 100)
    else self.estimate * (101 / 100)
  let next := if actualBps > 0 then min next (max self.estimate (actualBps * 2)) else next
  let next := if self.remoteRembBps > 0 then min next self.remoteRembBps else next
  let next := max next self.minBps
  min next self.maxBps

/-- `none` stands for no report. -/
def observeTransportCC (self : BandwidthEstimator) (report : Option TransportCCReport) :
    BandwidthEstimator :=
  match report with
  | none => self
  | some report =>
      if report.packets.length < 2 then self
      else
        let scan := gradient self.sendHistory report.packets
        if scan.pairCount = 0 then self
        else
          let delayTrendMs := trend self.delayTrendMs (scan.totalGradientUs / scan.pairCount)
          { self with
            delayTrendMs := delayTrendMs
            estimate := round
              (self.probe delayTrendMs (actualBps self.sendHistory report.packets)) }

def getEstimate (self : BandwidthEstimator) : ℚ := self.estimate

def getRemoteRembEstimate (self : BandwidthEstimator) : ℚ := self.remoteRembBps

def reset (self : BandwidthEstimator) : BandwidthEstimator :=
  { self with
    estimate := self.startBps
    remoteRembBps := 0
    delayTrendMs := 0
    sendHistory := .empty
    sendHistoryOrder := [] }

end BandwidthEstimator

inductive EstimatorEvent where
  | recordSend (clock : ℚ) (transportSeq : Option Nat) (sendTimeMs sizeBytes : Option ℚ)
  | observeRemb (bitrateBps : ℚ)
  | observeTransportCC (report : Option TransportCCReport)
  | reset

namespace BandwidthEstimator

def call (self : BandwidthEstimator) : EstimatorEvent → BandwidthEstimator
  | .recordSend clock transportSeq sendTimeMs sizeBytes =>
      self.recordSend clock transportSeq sendTimeMs sizeBytes
  | .observeRemb bitrateBps => self.observeRemb bitrateBps
  | .observeTransportCC report => self.observeTransportCC report
  | .reset => self.reset

def step (self : BandwidthEstimator) (event : EstimatorEvent) : BandwidthEstimator × List ℚ :=
  (self.call event, [(self.call event).getEstimate])

def InBounds (low high : Int) (estimate : ℚ) : Prop := low ≤ estimate ∧ estimate ≤ high

/-- An estimator between whole bounds whose start is between them too. -/
structure Bounded (low high : Int) (reached : BandwidthEstimator) : Prop where
  minBps : reached.minBps = low
  maxBps : reached.maxBps = high
  start : InBounds low high reached.startBps
  estimate : InBounds low high reached.estimate

variable {low high : Int} {self : BandwidthEstimator}

theorem round_in_bounds {next : ℚ} (inside : InBounds low high next) :
    InBounds low high (round next : Int) :=
  ⟨Int.cast_le.mpr (le_round inside.1), Int.cast_le.mpr (round_le inside.2)⟩

theorem Bounded.observe_remb (bounded : self.Bounded low high) (order : low ≤ high)
    (bitrateBps : ℚ) : (self.observeRemb bitrateBps).Bounded low high := by
  rw [BandwidthEstimator.observeRemb]
  split_ifs
  · exact bounded
  · exact bounded
  · have bounds : (low : ℚ) ≤ high := Int.cast_le.mpr order
    have above : (low : ℚ) ≤ max (min bitrateBps self.maxBps) self.minBps := by
      rw [bounded.minBps]
      exact le_max_right _ _
    have below : max (min bitrateBps self.maxBps) self.minBps ≤ high := by
      rw [bounded.minBps, bounded.maxBps]
      exact max_le (min_le_right _ _) bounds
    have estimate := bounded.estimate
    refine { bounded with estimate := round_in_bounds ⟨?_, ?_⟩ }
    · linarith [estimate.1]
    · linarith [estimate.2]

theorem probe_in_bounds (minBps : self.minBps = low) (maxBps : self.maxBps = high)
    (order : low ≤ high) (delayTrendMs actualBps : ℚ) :
    InBounds low high (self.probe delayTrendMs actualBps) := by
  have bounds : (low : ℚ) ≤ high := Int.cast_le.mpr order
  rw [probe]
  constructor
  · rw [minBps, maxBps]
    exact le_min (le_max_right _ _) bounds
  · rw [maxBps]
    exact min_le_right _ _

theorem Bounded.observe_transport_cc (bounded : self.Bounded low high) (order : low ≤ high)
    (report : Option TransportCCReport) : (self.observeTransportCC report).Bounded low high := by
  cases report with
  | none => exact bounded
  | some report =>
      rw [BandwidthEstimator.observeTransportCC]
      dsimp only
      split_ifs
      · exact bounded
      · exact bounded
      · exact { bounded with
          estimate := round_in_bounds (probe_in_bounds bounded.minBps bounded.maxBps order _ _) }

theorem Bounded.call (bounded : self.Bounded low high) (order : low ≤ high)
    (event : EstimatorEvent) : (self.call event).Bounded low high := by
  cases event with
  | recordSend clock transportSeq sendTimeMs sizeBytes =>
      cases transportSeq with
      | none => exact bounded
      | some transportSeq =>
          rw [BandwidthEstimator.call, BandwidthEstimator.recordSend]
          split_ifs
          · exact { bounded with }
          · exact { bounded with }
  | observeRemb bitrateBps => exact bounded.observe_remb order bitrateBps
  | observeTransportCC report => exact bounded.observe_transport_cc order report
  | reset => exact { bounded with estimate := bounded.start }

theorem run_bounded (bounded : self.Bounded low high) (order : low ≤ high)
    (events : List EstimatorEvent) :
    ∀ estimate ∈ (run step self events).2, InBounds low high estimate := by
  induction events generalizing self with
  | nil => exact fun _ none => absurd none List.not_mem_nil
  | cons event rest ih =>
      have next := bounded.call order event
      intro estimate member
      rw [run, step] at member
      cases List.mem_cons.mp member with
      | inl now => exact now ▸ next.estimate
      | inr later => exact ih next estimate later

/-- The estimate stays between the bounds in every run exactly when it starts there. -/
theorem estimate_in_bounds_iff {opts : EstimatorOptions}
    (minBps : (new opts).minBps = low) (maxBps : (new opts).maxBps = high) (order : low ≤ high)
    (events : List EstimatorEvent) :
    (∀ estimate ∈ (new opts).getEstimate :: (run step (new opts) events).2,
      InBounds low high estimate) ↔ InBounds low high (orDefault opts.startBps 500000) := by
  constructor
  · intro always
    exact always _ List.mem_cons_self
  · intro start estimate member
    have bounded : (new opts).Bounded low high := ⟨minBps, maxBps, start, start⟩
    cases List.mem_cons.mp member with
    | inl constructed => exact constructed ▸ start
    | inr later => exact run_bounded bounded order events estimate later

def highFloor : EstimatorOptions where
  minBps := some 1000000
  maxBps := some 2000000
  startBps := none

/-- The default start is below the floor, and a reset goes back there. -/
theorem start_below_floor :
    (new highFloor).minBps = (1000000 : Int) ∧ (new highFloor).maxBps = (2000000 : Int) ∧
      (new highFloor).getEstimate = 500000 ∧
      (run step (new highFloor) [.observeRemb 1900000, .reset]).2 = [1200000, 500000] ∧
      ¬ ∀ estimate ∈ (new highFloor).getEstimate ::
        (run step (new highFloor) [.observeRemb 1900000, .reset]).2,
          InBounds 1000000 2000000 estimate := by
  have start : (new highFloor).getEstimate = 500000 := by decide +kernel
  refine ⟨by decide +kernel, by decide +kernel, start, by decide +kernel, ?_⟩
  intro always
  have low := (always _ List.mem_cons_self).1
  rw [start] at low
  norm_num at low

theorem estimate_in_bounds_between :
    InBounds 1000000 2000000 1500000 ∧
      ∀ estimate ∈ (new { highFloor with startBps := some 1500000 }).getEstimate ::
        (run step (new { highFloor with startBps := some 1500000 })
          [.observeRemb 90000000, .observeRemb 20000, .reset]).2,
        InBounds 1000000 2000000 estimate := by
  have start : InBounds 1000000 2000000 1500000 := ⟨by decide +kernel, by decide +kernel⟩
  exact ⟨start, (estimate_in_bounds_iff (by decide +kernel) (by decide +kernel) (by decide) _).mpr
    start⟩

end BandwidthEstimator

end RtpPacket.Rtcp
