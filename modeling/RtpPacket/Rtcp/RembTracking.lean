import RtpPacket.Rtcp.BandwidthEstimator

/-!
# Following a reported bitrate

While the receiver keeps reporting one bitrate, every report halves the distance to it, rounded
up at the half: from below the estimate arrives, from above it stops one short. With feedback
between the reports the estimate stays at most at the target once it is there, and until then
at most at what the reports alone would make of a start from above.
-/

namespace RtpPacket.Rtcp

open Rounding Run

set_option autoImplicit false

namespace BandwidthEstimator

variable {self : BandwidthEstimator} {target : Int} {bitrateBps : ℚ}

def clamped (self : BandwidthEstimator) (bitrateBps : ℚ) : ℚ :=
  max (min bitrateBps self.maxBps) self.minBps

/-- After `reports` reports on the way from `start`. -/
def halfway (target start : Int) (reports : Nat) : Int := target - (target - start) / 2 ^ reports

theorem halfway_succ (target start : Int) (reports : Nat) :
    halfway target (halfway target start 1) reports = halfway target start (reports + 1) := by
  rw [halfway, halfway, pow_one]
  exact toward_succ start target reports

/-- The bitrate that is reported, and the whole number that it is clamped to. -/
structure Reported (bitrateBps : ℚ) (target : Int) (sender : BandwidthEstimator) : Prop where
  sane : 10000 ≤ bitrateBps
  clamped : sender.clamped bitrateBps = target

theorem observe_remb_halves (reported : Reported bitrateBps target self) {start : Int}
    (estimate : self.estimate = start) :
    (self.observeRemb bitrateBps).estimate = halfway target start 1 := by
  have sane := reported.sane
  have clamped := reported.clamped
  rw [BandwidthEstimator.clamped] at clamped
  rw [observeRemb, if_neg (by linarith), if_neg (by linarith)]
  dsimp only
  rw [clamped, estimate, round_midpoint, halfway, pow_one]

end BandwidthEstimator

/-- No other bitrate is reported, and the estimator is not reset. -/
def EstimatorEvent.Steady (bitrateBps : ℚ) : EstimatorEvent → Prop
  | .observeRemb other => other = bitrateBps
  | .reset => False
  | _ => True

def EstimatorEvent.isRemb : EstimatorEvent → Bool
  | .observeRemb _ => true
  | _ => false

def EstimatorEvent.isFeedback : EstimatorEvent → Bool
  | .observeTransportCC _ => true
  | _ => false

namespace BandwidthEstimator

variable {self : BandwidthEstimator} {target : Int} {bitrateBps : ℚ}

theorem record_send_keeps (self : BandwidthEstimator) (clock : ℚ) (transportSeq : Option Nat)
    (sendTimeMs sizeBytes : Option ℚ) :
    (self.recordSend clock transportSeq sendTimeMs sizeBytes).estimate = self.estimate ∧
      (self.recordSend clock transportSeq sendTimeMs sizeBytes).remoteRembBps =
        self.remoteRembBps := by
  cases transportSeq with
  | none => exact ⟨rfl, rfl⟩
  | some transportSeq =>
      rw [recordSend]
      split_ifs <;> exact ⟨rfl, rfl⟩

theorem call_bounds (self : BandwidthEstimator) (event : EstimatorEvent) :
    (self.call event).minBps = self.minBps ∧ (self.call event).maxBps = self.maxBps := by
  cases event with
  | recordSend clock transportSeq sendTimeMs sizeBytes =>
      cases transportSeq with
      | none => exact ⟨rfl, rfl⟩
      | some transportSeq =>
          rw [call, recordSend]
          split_ifs <;> exact ⟨rfl, rfl⟩
  | observeRemb bitrateBps =>
      rw [call, observeRemb]
      split_ifs <;> exact ⟨rfl, rfl⟩
  | observeTransportCC report =>
      cases report with
      | none => exact ⟨rfl, rfl⟩
      | some report =>
          rw [call, observeTransportCC]
          dsimp only
          split_ifs <;> exact ⟨rfl, rfl⟩
  | reset => exact ⟨rfl, rfl⟩

theorem Reported.call (reported : Reported bitrateBps target self) (event : EstimatorEvent) :
    Reported bitrateBps target (self.call event) := by
  obtain ⟨low, high⟩ := self.call_bounds event
  refine ⟨reported.sane, ?_⟩
  rw [BandwidthEstimator.clamped, low, high]
  exact reported.clamped

theorem run_halves (reported : Reported bitrateBps target self) {start : Int}
    (estimate : self.estimate = start) {events : List EstimatorEvent}
    (steady : ∀ event ∈ events, event.Steady bitrateBps)
    (alone : ∀ event ∈ events, event.isFeedback = false) :
    (run step self events).1.estimate =
      halfway target start (events.countP EstimatorEvent.isRemb) := by
  induction events generalizing self start with
  | nil => simp [run, halfway, estimate]
  | cons event rest ih =>
      obtain ⟨here, later⟩ := List.forall_mem_cons.mp steady
      obtain ⟨own, others⟩ := List.forall_mem_cons.mp alone
      have further {next : Int} (found : (self.call event).estimate = next) :=
        ih (reported.call event) found later others
      cases event with
      | recordSend clock transportSeq sendTimeMs sizeBytes =>
          have kept := (self.record_send_keeps clock transportSeq sendTimeMs sizeBytes).1
          exact further (kept.trans estimate)
      | observeRemb other =>
          cases here
          rw [List.countP_cons_of_pos rfl, ← halfway_succ]
          exact further (observe_remb_halves reported estimate)
      | observeTransportCC report => cases own
      | reset => cases here

theorem halfway_mono (target : Int) {low high : Int} (order : low ≤ high) (reports : Nat) :
    halfway target low reports ≤ halfway target high reports := by
  have less : (target - high) / 2 ^ reports ≤ (target - low) / 2 ^ reports :=
    Int.ediv_le_ediv (by positivity) (by omega)
  rw [halfway, halfway]
  omega

theorem le_halfway {target bound : Int} (above : target ≤ bound) (reports : Nat) :
    target ≤ halfway target bound reports := by
  have least := halfway_mono target above reports
  rwa [halfway, sub_self, Int.zero_ediv, sub_zero] at least

theorem probe_le (reported : Reported bitrateBps target self)
    (heard : self.remoteRembBps = bitrateBps) (delayTrendMs actualBps : ℚ) :
    self.probe delayTrendMs actualBps ≤ target := by
  have positive : self.remoteRembBps > 0 := by
    rw [heard]
    linarith [reported.sane]
  rw [← reported.clamped, clamped, probe, ← heard, if_pos positive]
  generalize (if actualBps > 0 then _ else _) = next
  cases le_total (min next self.remoteRembBps) self.minBps with
  | inl low =>
      rw [max_eq_right low]
      exact (min_le_left _ _).trans (le_max_right _ _)
  | inr high =>
      rw [max_eq_left high]
      exact (min_le_min_right _ (min_le_right _ _)).trans (le_max_left _ _)

/-- The last bitrate heard is the one reported, and the estimate is a whole number up to a bound. -/
structure Follows (bitrateBps : ℚ) (target bound : Int) (sender : BandwidthEstimator) : Prop where
  reported : Reported bitrateBps target sender
  heard : sender.remoteRembBps = bitrateBps
  estimate : ∃ value : Int, sender.estimate = value ∧ value ≤ bound

theorem Follows.of_le {bound : Int} {next : BandwidthEstimator}
    (follows : Follows bitrateBps target bound self) (above : target ≤ bound)
    (reported : Reported bitrateBps target next)
    (heard : next.remoteRembBps = self.remoteRembBps)
    (estimate : next.estimate = self.estimate ∨
      ∃ value : Int, next.estimate = value ∧ value ≤ target) :
    Follows bitrateBps target bound next := by
  refine ⟨reported, heard.trans follows.heard, ?_⟩
  cases estimate with
  | inl same => exact same ▸ follows.estimate
  | inr fallen =>
      obtain ⟨value, same, small⟩ := fallen
      exact ⟨value, same, small.trans above⟩

theorem Follows.observe_transport_cc {bound : Int}
    (follows : Follows bitrateBps target bound self) (above : target ≤ bound)
    (report : Option TransportCCReport) :
    Follows bitrateBps target bound (self.observeTransportCC report) := by
  have reported := follows.reported.call (.observeTransportCC report)
  rw [BandwidthEstimator.call] at reported
  apply follows.of_le above reported
  · cases report with
    | none => rfl
    | some report =>
        rw [observeTransportCC]
        dsimp only
        split_ifs <;> rfl
  · cases report with
    | none => exact .inl rfl
    | some report =>
        rw [observeTransportCC]
        dsimp only
        split_ifs
        · exact .inl rfl
        · exact .inl rfl
        · exact .inr ⟨_, rfl, round_le (probe_le follows.reported follows.heard _ _)⟩

theorem observe_remb_follows (reported : Reported bitrateBps target self) {value bound : Int}
    (estimate : self.estimate = value) (small : value ≤ bound) :
    Follows bitrateBps target (halfway target bound 1) (self.observeRemb bitrateBps) := by
  have sane := reported.sane
  refine ⟨reported.call (.observeRemb bitrateBps), ?_, _, observe_remb_halves reported estimate,
    halfway_mono target small 1⟩
  rw [observeRemb, if_neg (by linarith), if_neg (by linarith)]

/-- Whatever feedback comes between them, the reports bring the estimate down. -/
theorem Follows.run {bound : Int} (follows : Follows bitrateBps target bound self)
    (above : target ≤ bound) {events : List EstimatorEvent}
    (steady : ∀ event ∈ events, event.Steady bitrateBps) :
    Follows bitrateBps target (halfway target bound (events.countP EstimatorEvent.isRemb))
      (Run.run step self events).1 := by
  induction events generalizing self bound with
  | nil => simpa [Run.run, halfway] using follows
  | cons event rest ih =>
      obtain ⟨here, later⟩ := List.forall_mem_cons.mp steady
      cases event with
      | recordSend clock transportSeq sendTimeMs sizeBytes =>
          obtain ⟨estimate, heard⟩ := self.record_send_keeps clock transportSeq sendTimeMs sizeBytes
          have reported := follows.reported.call
            (.recordSend clock transportSeq sendTimeMs sizeBytes)
          exact ih (follows.of_le above reported heard (.inl estimate)) above later
      | observeRemb other =>
          cases here
          rw [List.countP_cons_of_pos rfl, ← halfway_succ]
          obtain ⟨value, estimate, small⟩ := follows.estimate
          exact ih (observe_remb_follows follows.reported estimate small) (le_halfway above 1) later
      | observeTransportCC report =>
          exact ih (follows.observe_transport_cc above report) above later
      | reset => cases here

/-- Where the halving ends: at the target from below, and one above it from above. -/
theorem halfway_ends {start : Int} {reports : Nat} :
    (start ≤ target → target - start < 2 ^ reports → halfway target start reports = target) ∧
      (target < start → start - target ≤ 2 ^ reports →
        halfway target start reports = target + 1) := by
  have positive : (0 : Int) < 2 ^ reports := by positivity
  constructor
  · intro below close
    rw [halfway, Int.ediv_eq_zero_of_lt (by omega) close, sub_zero]
  · intro above close
    have short : (target - start) / 2 ^ reports = -1 := by
      rw [Int.ediv_eq_iff_of_pos positive]
      constructor
      · omega
      · omega
    rw [halfway, short, sub_neg_eq_add]

/-- The estimate under one reported bitrate: exactly halfway with every report while there is no
feedback, and where it ends. With feedback it is from the first report on at most halfway from
above, and at most the target when it starts at or below it. -/
theorem remb_followed (reported : Reported bitrateBps target self) {start : Int}
    (estimate : self.estimate = start) {events : List EstimatorEvent}
    (steady : ∀ event ∈ events, event.Steady bitrateBps) :
    ((∀ event ∈ events, event.isFeedback = false) →
      (run step self events).1.getEstimate =
          halfway target start (events.countP EstimatorEvent.isRemb) ∧
        (start ≤ target → target - start < 2 ^ events.countP EstimatorEvent.isRemb →
          (run step self events).1.getEstimate = target) ∧
        (target < start → start - target ≤ 2 ^ events.countP EstimatorEvent.isRemb →
          (run step self events).1.getEstimate = (target + 1 : Int))) ∧
    (∃ value : Int,
      (run step self (.observeRemb bitrateBps :: events)).1.getEstimate = value ∧
        value ≤ halfway target (max target start)
          (events.countP EstimatorEvent.isRemb + 1)) := by
  constructor
  · intro alone
    have halves := run_halves reported estimate steady alone
    rw [getEstimate, halves]
    exact ⟨rfl, fun below close => congrArg _ (halfway_ends.1 below close),
      fun above close => congrArg _ (halfway_ends.2 above close)⟩
  · have first := observe_remb_follows reported estimate (le_max_right target start)
    have follows := first.run (le_halfway (le_max_left target start) 1) steady
    rw [halfway_succ] at follows
    exact follows.estimate

/-- Three reports from a little above. -/
theorem remb_followed_to_one_above :
    (run step { new ⟨none, none, none⟩ with estimate := 500005 }
      (List.replicate 3 (.observeRemb 500000))).1.getEstimate = (500000 + 1 : Int) := by
  have reported : Reported 500000 500000 { new ⟨none, none, none⟩ with estimate := 500005 } :=
    ⟨by norm_num, by decide +kernel⟩
  have steady : ∀ event ∈ List.replicate 3 (EstimatorEvent.observeRemb 500000),
      event.Steady 500000 := by
    intro event member
    rw [List.eq_of_mem_replicate member]
    exact rfl
  refine ((@remb_followed _ _ _ reported 500005 (by norm_num) _ steady).1 ?_).2.2 (by decide)
    (by decide)
  intro event member
  rw [List.eq_of_mem_replicate member]
  rfl

end BandwidthEstimator

end RtpPacket.Rtcp
