import RtpPacket.Retransmit.Histogram
import RtpPacket.Retransmit.Nacks

/-!
# How long a gap waits

Of all that happens to the generator, its histogram sees the distances of late packets and
the resets. A gap then waits for a quantile of the last distances before it is asked for.
-/

namespace RtpPacket.Nack

open FlatRanges Histogram Run

set_option autoImplicit false

namespace NackGenerator

/-- What an event does to the histogram: a packet behind the highest one adds its distance. -/
def reordering (self : NackGenerator) : NackEvent → List Histogram.Call
  | .observePacket _ extSeq _ isRecovered =>
      if self.started = true ∧ isRecovered = false ∧ extSeq < self.highestExtSeq then
        [.add (self.highestExtSeq - extSeq)]
      else []
  | .reset => [.reset]
  | _ => []

def reorderings (library : Library) : NackGenerator → List NackEvent → List Histogram.Call
  | _, [] => []
  | self, event :: rest =>
      self.reordering event ++ reorderings library (self.step library event).1 rest

variable {library : Library} (self : NackGenerator) (clock : ℚ) (extSeq : Int)
  (isKeyframe isRecovered : Bool)

theorem note_keyframe_histogram :
    (self.noteKeyframe extSeq isKeyframe).reorderHistogram = self.reorderHistogram := by
  cases isKeyframe with
  | false => rfl
  | true => rfl

theorem evict_old_histogram : self.evictOld.reorderHistogram = self.reorderHistogram := by
  cases self.evict_old_cases with
  | inl same => rw [same]
  | inr trimmed => rw [trimmed]

theorem evict_superseded_histogram :
    self.evictSuperseded.reorderHistogram = self.reorderHistogram := by
  rw [evictSuperseded]
  cases self.keyframes.getLast? with
  | none => rfl
  | some latestKf => rfl

theorem add_missing_range_histogram (start stop : Int) :
    (self.addMissingRange library clock start stop).reorderHistogram = self.reorderHistogram := by
  have evicted := self.evict_superseded_histogram
  rw [addMissingRange]
  dsimp only
  split_ifs
  · exact evicted
  · exact evicted
  · rfl

theorem reveal_gap_histogram :
    (self.revealGap library clock extSeq isKeyframe).reorderHistogram = self.reorderHistogram := by
  rw [revealGap]
  split_ifs
  · rfl
  · exact self.add_missing_range_histogram clock _ _
  · rfl

theorem observe_packet_histogram :
    (self.observePacket library clock extSeq isKeyframe isRecovered).reorderHistogram =
      (self.reordering (.observePacket clock extSeq isKeyframe isRecovered)).foldl
        Histogram.apply self.reorderHistogram := by
  rw [observePacket, reordering]
  dsimp only
  by_cases running : self.started = true
  · cases isRecovered with
    | true =>
        simp only [running]
        exact note_keyframe_histogram _ _ _
    | false =>
        by_cases late : extSeq < self.highestExtSeq
        · simp only [running, late, late.le]
          exact note_keyframe_histogram _ _ _
        · by_cases low : extSeq ≤ self.highestExtSeq
          · simp only [running, late, low]
            exact note_keyframe_histogram _ _ _
          · simp only [running, late, low]
            apply (evict_old_histogram _).trans
            apply (note_keyframe_histogram _ _ _).trans
            exact reveal_gap_histogram _ _ _ _
  · simp only [running]
    exact note_keyframe_histogram _ _ _

theorem step_histogram (event : NackEvent) :
    (self.step library event).1.reorderHistogram =
      (self.reordering event).foldl Histogram.apply self.reorderHistogram := by
  cases event with
  | observePacket clock extSeq isKeyframe isRecovered =>
      exact self.observe_packet_histogram clock extSeq isKeyframe isRecovered
  | buildFeedback now => exact self.evict_old_histogram
  | updateRtt rttMs =>
      cases rttMs with
      | none => rfl
      | some rttMs => rfl
  | acknowledgeKeyframeRequested => rfl
  | reset => rfl

theorem run_histogram (events : List NackEvent) :
    (run (step library) self events).1.reorderHistogram =
      (reorderings library self events).foldl Histogram.apply self.reorderHistogram := by
  induction events generalizing self with
  | nil => rfl
  | cons event rest ih =>
      rw [run, reorderings, List.foldl_append, ← self.step_histogram event]
      exact ih _

theorem new_histogram_tracks {opts : NackOptions} {start : NackGenerator}
    (built : NackGenerator.new opts = .ok start) :
    0 < (opts.reorderBuckets.getD 10).toNat ∧ 0 < (opts.reorderValues.getD 128).toNat ∧
      Tracks (opts.reorderBuckets.getD 10).toNat (opts.reorderValues.getD 128).toNat []
        start.reorderHistogram := by
  by_cases allowed : 1 ≤ opts.reorderBuckets.getD 10 ∧ 1 ≤ opts.reorderValues.getD 128
  · obtain ⟨histogram, made, fresh⟩ := new_tracks allowed.1 allowed.2
    rw [NackGenerator.new, made] at built
    cases built
    exact ⟨by omega, by omega, fresh⟩
  · have refused : ¬opts.reorderBuckets.getD 10 > 0 ∨ ¬opts.reorderValues.getD 128 > 0 := by omega
    rw [NackGenerator.new, Histogram.new, if_pos refused] at built
    cases built

/-- After any events a gap waits for a quantile of the last distances of late packets. -/
theorem wait_is_quantile {opts : NackOptions} {start : NackGenerator}
    (built : NackGenerator.new opts = .ok start) (events : List NackEvent) {probability : ℚ}
    (nonneg : 0 ≤ probability) (atMost : probability ≤ 1) :
    let window := ((samples (reorderings library start events)).rtake
      (opts.reorderValues.getD 128).toNat).map (clamp (opts.reorderBuckets.getD 10).toNat)
    (window = [] → (run (step library) start events).1.waitNumberOfPackets probability = 0) ∧
      (window ≠ [] → IsLeast {bucket | probability ≤ share window bucket}
        ((run (step library) start events).1.waitNumberOfPackets probability)) := by
  intro window
  obtain ⟨wide, room, fresh⟩ := new_histogram_tracks built
  have tracks := fresh.foldl wide room (reorderings library start events)
  rw [← start.run_histogram events] at tracks
  have perm : (run (step library) start events).1.reorderHistogram.values.Perm window :=
    tracks.values_perm
  have counted : (run (step library) start events).1.reorderHistogram.numValues =
      window.length := perm.length_eq
  rw [waitNumberOfPackets]
  constructor
  · intro none
    rw [none, List.length_nil] at counted
    exact if_pos counted
  · intro some
    have positive := counted.trans_ne (List.length_pos_of_ne_nil some).ne'
    have least := tracks.inverse_cdf_least wide (Nat.pos_of_ne_zero positive) nonneg atMost
    rw [if_neg positive, ← share_perm perm]
    exact least

end NackGenerator

end RtpPacket.Nack
