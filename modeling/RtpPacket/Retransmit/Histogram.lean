import RtpPacket.Lib.RecentValues
import RtpPacket.Lib.Tallies
import RtpPacket.Retransmit.NackGenerator

/-!
# The reordering histogram

The values are a ring of the last samples, and the buckets are the tally of that ring.
So the buckets count the samples of a sliding window, and the inverse of their cumulative
distribution is a quantile of the window.
-/

namespace RtpPacket.Nack.Histogram

open RecentValues Tallies

set_option autoImplicit false

inductive Call where
  | add (value : Int)
  | reset
  deriving DecidableEq, Repr

def apply (self : Histogram) : Call → Histogram
  | .add value => self.add value
  | .reset => self.reset

def samples (calls : List Call) : List Int :=
  calls.foldl (fun past call => match call with
    | .add value => past ++ [value]
    | .reset => []) []

def clamp (width : Nat) (value : Int) : Int := min (max value 0) (width - 1)

variable {width capacity : Nat} {histogram : Histogram} {value : Int} {past : List Int}

theorem clamp_nonneg (wide : 0 < width) : 0 ≤ clamp width value := by
  rw [clamp]
  omega

theorem clamp_lt : clamp width value < width := by
  rw [clamp]
  omega

structure Tracks (width capacity : Nat) (past : List Int) (histogram : Histogram) : Prop where
  ring : Ring capacity (past.map (clamp width)) histogram.values histogram.index
  buckets : histogram.buckets = tally width histogram.values
  capacity : histogram.maxNumValues = capacity

theorem Tracks.values_perm (tracks : Tracks width capacity past histogram) :
    histogram.values.Perm ((past.rtake capacity).map (clamp width)) := by
  have perm := tracks.ring.perm
  rwa [List.rtake, List.length_map, ← List.map_drop] at perm

theorem Tracks.mem_values (tracks : Tracks width capacity past histogram) (wide : 0 < width)
    (member : value ∈ histogram.values) : 0 ≤ value ∧ value < width := by
  obtain ⟨sample, _, rfl⟩ := List.mem_map.mp (tracks.values_perm.mem_iff.mp member)
  exact ⟨clamp_nonneg wide, clamp_lt⟩

theorem add_eq (tracks : Tracks width capacity past histogram) (wide : 0 < width) (value : Int) :
    histogram.add value = { histogram with
      buckets := tally width (write histogram.values histogram.index (clamp width value))
      values := write histogram.values histogram.index (clamp width value)
      index := (histogram.index + 1) % capacity } := by
  have last : (histogram.buckets.length : Int) - 1 = width - 1 := by
    rw [tracks.buckets, length_tally]
  have clamped : (if (if value < 0 then 0 else value) > (width : Int) - 1 then (width : Int) - 1
      else if value < 0 then 0 else value) = clamp width value := by
    rw [clamp]
    omega
  rw [Histogram.add, last, clamped, tracks.capacity, Int.toNat_natCast, write]
  cases found : histogram.values[histogram.index]? with
  | some overwritten =>
      have member := List.mem_of_getElem? found
      have old := (tracks.mem_values wide member).1
      have inside := (List.getElem?_eq_some_iff.mp found).1
      rw [if_pos inside, tally_set found old (clamp_nonneg wide), tracks.buckets]
  | none =>
      have outside := not_lt.mpr (List.getElem?_eq_none_iff.mp found)
      rw [if_neg outside, tally_append (clamp_nonneg wide), tracks.buckets]

theorem Tracks.add (tracks : Tracks width capacity past histogram) (wide : 0 < width)
    (room : 0 < capacity) (value : Int) :
    Tracks width capacity (past ++ [value]) (histogram.add value) := by
  rw [add_eq tracks wide value]
  refine ⟨?_, rfl, tracks.capacity⟩
  rw [List.map_append, List.map_singleton]
  exact tracks.ring.write_next room _

theorem Tracks.reset (tracks : Tracks width capacity past histogram) :
    Tracks width capacity [] histogram.reset where
  ring := ring_nil capacity
  buckets := by
    rw [Histogram.reset]
    simp only
    rw [tally_nil, List.map_const', tracks.buckets, length_tally]
  capacity := tracks.capacity

theorem Tracks.foldl (tracks : Tracks width capacity [] histogram) (wide : 0 < width)
    (room : 0 < capacity) (calls : List Call) :
    Tracks width capacity (samples calls) (calls.foldl apply histogram) := by
  induction calls using List.reverseRecOn with
  | nil => exact tracks
  | append_singleton earlier call ih =>
      rw [samples, List.foldl_concat, List.foldl_concat]
      cases call with
      | add value => exact ih.add wide room value
      | reset => exact ih.reset

theorem new_tracks {numBuckets maxNumValues : Int} (wide : 1 ≤ numBuckets)
    (room : 1 ≤ maxNumValues) :
    ∃ start, Histogram.new numBuckets maxNumValues = .ok start ∧
      Tracks numBuckets.toNat maxNumValues.toNat [] start := by
  have allowed : ¬(¬numBuckets > 0 ∨ ¬maxNumValues > 0) := by omega
  have capacity : maxNumValues = maxNumValues.toNat := (Int.toNat_of_nonneg (by omega)).symm
  exact ⟨_, if_neg allowed, ring_nil _, tally_nil.symm, capacity⟩

/-- The loop stops at the first bucket whose cumulative share is enough. -/
theorem inverse_cdf_from_least (share : Nat → ℚ) {probability : ℚ} {n : Nat} {counts : List Int}
    {bucket : Nat} {accumulated : ℚ} (reached : accumulated = share bucket)
    (adds : ∀ i (inside : i < counts.length),
      share (bucket + i + 1) = share (bucket + i) + counts[i] / n)
    (before : ∀ earlier < bucket, share earlier < probability)
    (enough : probability ≤ share (bucket + counts.length)) :
    IsLeast {bound | probability ≤ share bound}
      (inverseCdfFrom probability n counts accumulated bucket) := by
  induction counts generalizing bucket accumulated with
  | nil =>
      apply And.intro enough
      intro bound satisfied
      by_contra earlier
      exact absurd (before bound (not_le.mp earlier)) (not_lt.mpr satisfied)
  | cons count rest ih =>
      rw [inverseCdfFrom]
      split_ifs with short
      · have first := adds 0 (Nat.zero_lt_succ _)
        apply ih
        · rw [reached]
          exact first.symm
        · intro i inside
          have later := adds (i + 1) (Nat.succ_lt_succ inside)
          rwa [List.getElem_cons_succ, ← Nat.add_assoc, Nat.add_right_comm bucket i 1] at later
        · intro earlier below
          cases Nat.lt_succ_iff_lt_or_eq.mp below with
          | inl older => exact before earlier older
          | inr last => rwa [last, ← reached]
        · rwa [List.length_cons, ← Nat.add_assoc, Nat.add_right_comm] at enough
      · constructor
        · rwa [Set.mem_ofPred_eq, ← reached, ← not_lt]
        · intro bound satisfied
          by_contra earlier
          exact absurd (before bound (not_le.mp earlier)) (not_lt.mpr satisfied)

/-- The part of the samples that lie below a bucket. -/
def share (window : List Int) (bucket : Nat) : ℚ := below bucket window / window.length

theorem share_perm {window others : List Int} (same : window.Perm others) :
    share window = share others := by
  funext bucket
  rw [share, share, below, below, same.countP_eq, same.length_eq]

theorem Tracks.inverse_cdf_least (tracks : Tracks width capacity past histogram) (wide : 0 < width)
    (nonempty : 0 < histogram.numValues) {probability : ℚ} (nonneg : 0 ≤ probability)
    (atMost : probability ≤ 1) :
    IsLeast {bucket | probability ≤ share histogram.values bucket}
      (histogram.inverseCdf probability) := by
  have some : histogram.numValues ≠ 0 := nonempty.ne'
  have bounded (value : Int) (member : value ∈ histogram.values) := tracks.mem_values wide member
  rw [inverseCdf]
  simp only [if_neg (not_lt.mpr nonneg), if_neg (not_lt.mpr atMost), if_neg some]
  apply inverse_cdf_from_least (share histogram.values)
  · rw [share, below_zero fun value member => (bounded value member).1, Nat.cast_zero, zero_div]
  · intro i inside
    rw [Nat.zero_add, share, share, below_succ, Nat.cast_add, add_div]
    simp only [tracks.buckets, getElem_tally, Int.cast_natCast, numValues]
  · exact fun earlier none => absurd none (Nat.not_lt_zero _)
  · rw [Nat.zero_add, tracks.buckets, length_tally, share,
      below_of_forall_lt fun value member => (bounded value member).2]
    rwa [div_self (Nat.cast_ne_zero.mpr some)]

/-- The buckets count the last samples since a reset, and the inverse distribution reads the
quantiles of these. -/
theorem histogram_window {numBuckets maxNumValues : Int} (wide : 1 ≤ numBuckets)
    (room : 1 ≤ maxNumValues) (calls : List Call) :
    ∃ start, Histogram.new numBuckets maxNumValues = .ok start ∧
      let reached := calls.foldl apply start
      let window := ((samples calls).rtake maxNumValues.toNat).map (clamp numBuckets.toNat)
      window.length = min (samples calls).length maxNumValues.toNat ∧
        reached.buckets.length = numBuckets ∧
        (∀ bucket (inside : bucket < reached.buckets.length),
          reached.buckets[bucket] = window.count (bucket : Int)) ∧
        reached.numValues = window.length ∧
        reached.buckets.sum = reached.numValues ∧
        ∀ probability : ℚ, 0 ≤ probability → probability ≤ 1 → 0 < reached.numValues →
          IsLeast {bucket | probability ≤ share window bucket}
            (reached.inverseCdf probability) := by
  obtain ⟨start, built, fresh⟩ := new_tracks wide room
  have width : 0 < numBuckets.toNat := by omega
  have tracks := fresh.foldl width (by omega) calls
  have perm := tracks.values_perm
  have bounded (value : Int) (member : value ∈ (calls.foldl apply start).values) :=
    tracks.mem_values width member
  refine ⟨start, built, ?_, ?_, ?_, perm.length_eq, ?_, ?_⟩
  · rw [List.length_map, length_rtake]
  · rw [tracks.buckets, length_tally]
    omega
  · intro bucket inside
    simp only [tracks.buckets, getElem_tally, perm.count_eq]
  · rw [tracks.buckets, sum_tally fun value member => (bounded value member).1,
      below_of_forall_lt fun value member => (bounded value member).2, numValues]
  · intro probability nonneg atMost nonempty
    have least := tracks.inverse_cdf_least width nonempty nonneg atMost
    rwa [share_perm perm] at least

def overwritingCalls : List Call := [.add 5, .reset, .add (-4), .add 1, .add 7]

theorem histogram_window_overwritten :
    ∃ start, Histogram.new 3 2 = .ok start ∧
      (overwritingCalls.foldl apply start).buckets = [0, 1, 1] ∧
      (overwritingCalls.foldl apply start).buckets.sum =
        (overwritingCalls.foldl apply start).numValues ∧
      (overwritingCalls.foldl apply start).inverseCdf (1 / 2) = 2 ∧
      IsLeast {bucket | 1 / 2 ≤ share [1, 2] bucket}
        ((overwritingCalls.foldl apply start).inverseCdf (1 / 2)) := by
  obtain ⟨start, built, _, _, _, _, total, least⟩ :=
    @histogram_window 3 2 (by decide) (by decide) overwritingCalls
  have window : ((samples overwritingCalls).rtake (2 : Int).toNat).map (clamp (3 : Int).toNat) =
      [1, 2] := by decide
  cases built
  rw [window] at least
  exact ⟨_, rfl, by decide +kernel, total, by decide +kernel,
    least (1 / 2) (by norm_num) (by norm_num) (by decide)⟩

end RtpPacket.Nack.Histogram
