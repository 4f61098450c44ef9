import Mathlib.Data.List.Sort
import RtpPacket.Rtcp.TransportCC

/-!
# The feedback generator

Arrivals are kept by 16-bit sequence number, first one wins, and put in order
only when a feedback packet is built: sorted by raw number and, where the widest
gap shows that the run crosses zero, with the low part moved up by `2^16`.
Times are whole milliseconds.
-/

namespace RtpPacket.Rtcp

open ByteCodec Word

set_option autoImplicit false

structure Arrival where
  seq : Nat
  timeMs : Int
  deriving DecidableEq, Repr

structure FeedbackGenerator where
  senderSsrc : Nat
  mediaSsrc : Nat
  fbPktCount : Nat
  /-- In insertion order. -/
  arrivalMap : List Arrival

def FeedbackGenerator.new (senderSsrc mediaSsrc : Option Nat) : FeedbackGenerator where
  senderSsrc := (senderSsrc.getD 1) % 2 ^ 32
  mediaSsrc := (mediaSsrc.getD 0) % 2 ^ 32
  fbPktCount := 0
  arrivalMap := []

def FeedbackGenerator.recordArrival (generator : FeedbackGenerator) (seq : Nat) (timeMs : Int) :
    FeedbackGenerator :=
  let s := seq % 0x10000
  if generator.arrivalMap.any (·.seq = s) then generator
  else { generator with arrivalMap := generator.arrivalMap ++ [⟨s, timeMs⟩] }

def sortBySeq (arrs : List Arrival) : List Arrival :=
  arrs.insertionSort fun left right => left.seq ≤ right.seq

/-- The widest gap between neighbours and the index after it; the first of equals. -/
def widestGapLoop : Nat → Nat × Nat → List Arrival → Nat × Nat
  | i, (maxGap, gapAt), left :: right :: rest =>
      let g := right.seq - left.seq
      widestGapLoop (i + 1) (if g > maxGap then (g, i) else (maxGap, gapAt)) (right :: rest)
  | _, best, _ => best

def widestGap (arrs : List Arrival) : Nat × Nat := widestGapLoop 1 (0, 0) arrs

def Arrival.shift (arrival : Arrival) (offset : Nat) : Arrival :=
  { arrival with seq := arrival.seq + offset }

def unwrapArrivals (arrs : List Arrival) : List Arrival :=
  let (maxGap, gapAt) := widestGap arrs
  if arrs.length ≥ 2 ∧ maxGap > 32768 then
    sortBySeq (arrs.drop gapAt ++ (arrs.take gapAt).map (·.shift 65536))
  else arrs

/-- The status of each sequence number from `seqI` on, deltas in microseconds. -/
def statusesFrom : Nat → Nat → Int → List Arrival → List PacketStatus
  | _, 0, _, _ => []
  | seqI, count + 1, prevArrivalMs, arrival :: arrs =>
      if arrival.seq = seqI then
        ⟨true, some ((arrival.timeMs - prevArrivalMs) * 1000)⟩ ::
          statusesFrom (seqI + 1) count arrival.timeMs arrs
      else .missing :: statusesFrom (seqI + 1) count prevArrivalMs (arrival :: arrs)
  | seqI, count + 1, prevArrivalMs, [] =>
      .missing :: statusesFrom (seqI + 1) count prevArrivalMs []

def feedbackOptions (generator : FeedbackGenerator) (first : Arrival) (arrs : List Arrival) :
    TransportCCOptions :=
  let highestSeq := ((first :: arrs).getLast (List.cons_ne_nil _ _)).seq
  let packetCount := min (highestSeq - first.seq + 1) 0xFFFF
  let refTimeMs := first.timeMs / 64 * 64
  { senderSsrc := generator.senderSsrc
    mediaSsrc := generator.mediaSsrc
    baseSeq := first.seq % 0x10000
    packetCount := packetCount
    referenceTimeMs := refTimeMs
    fbPktCount := generator.fbPktCount
    packets := statusesFrom first.seq packetCount refTimeMs (first :: arrs) }

def FeedbackGenerator.buildFeedback (generator : FeedbackGenerator) :
    FeedbackGenerator × Option Bytes :=
  match unwrapArrivals (sortBySeq generator.arrivalMap) with
  | [] => (generator, none)
  | first :: arrs =>
      ({ generator with fbPktCount := (generator.fbPktCount + 1) % 256, arrivalMap := [] },
        some (buildTransportCC (feedbackOptions generator first arrs)))

def recordAll (generator : FeedbackGenerator) (arrivals : List Arrival) : FeedbackGenerator :=
  arrivals.foldl (fun generator arrival => generator.recordArrival arrival.seq arrival.timeMs)
    generator

/-- A feedback window in wrap-aware order, counted up from the 16-bit number of its
first arrival: ascending, less than half the 16-bit space long, with neighbouring
times at most 8191 ms apart. -/
structure Window (first : Arrival) (arrivals : List Arrival) : Prop where
  base : first.seq < 0x10000
  ascending : (first :: arrivals).Pairwise (·.seq < ·.seq)
  span : ∀ arrival ∈ arrivals, arrival.seq < first.seq + 32768
  times : ∀ arrival ∈ first :: arrivals, 0 ≤ arrival.timeMs
  steps : (first :: arrivals).IsChain fun left right =>
    right.timeMs - left.timeMs ≤ 8191 ∧ left.timeMs - right.timeMs ≤ 8191

/-- The received packets of a report with their reconstructed times: the running
sum of the deltas over a start time, in microseconds. -/
def reconstruct : Int → List ReportedPacket → List (Nat × Int)
  | _, [] => []
  | timeUs, packet :: rest =>
      match packet.deltaUs with
      | some deltaUs => (packet.seq, timeUs + deltaUs) :: reconstruct (timeUs + deltaUs) rest
      | none => reconstruct timeUs rest

def spanOf (first : Arrival) (arrivals : List Arrival) : Nat :=
  ((first :: arrivals).getLast (List.cons_ne_nil _ _)).seq - first.seq + 1

/-- The marks and, congruent modulo `2^24` units of 64 ms, the times of a window. -/
structure Reconstructs (report : TransportCCReport) (first : Arrival) (arrivals : List Arrival) :
    Prop where
  marks : report.packets.map (fun packet => (packet.seq, packet.received)) =
    (List.range (spanOf first arrivals)).map fun i =>
      ((first.seq + i) % 0x10000,
        decide (∃ arrival ∈ first :: arrivals, arrival.seq = first.seq + i))
  times : (reconstruct (report.referenceTimeMs * 1000) report.packets).map
      (fun rebuilt => (rebuilt.1, rebuilt.2 % (2 ^ 24 * 64 * 1000))) =
    (first :: arrivals).map fun arrival =>
      (arrival.seq % 0x10000, arrival.timeMs * 1000 % (2 ^ 24 * 64 * 1000))

instance (report : TransportCCReport) (first : Arrival) (arrivals : List Arrival) :
    Decidable (Reconstructs report first arrivals) :=
  decidable_of_iff (_ ∧ _)
    ⟨fun both => Reconstructs.mk both.1 both.2, fun whole => ⟨whole.marks, whole.times⟩⟩

def Arrival.wrapped (arrival : Arrival) : Arrival :=
  { arrival with seq := arrival.seq % 0x10000 }

theorem record_all_distinct (generator : FeedbackGenerator) (arrivals : List Arrival)
    (distinct : ((generator.arrivalMap ++ arrivals.map (·.wrapped)).map (·.seq)).Nodup) :
    recordAll generator arrivals =
      { generator with arrivalMap := generator.arrivalMap ++ arrivals.map (·.wrapped) } := by
  induction arrivals generalizing generator with
  | nil => simp [recordAll]
  | cons arrival rest ih =>
      have fresh : generator.arrivalMap.any (·.seq = arrival.seq % 0x10000) = false := by
        rw [List.any_eq_false]
        intro other member same
        have sameSeq : other.seq = arrival.seq % 0x10000 := by simpa using same
        rw [List.map_append, List.nodup_append] at distinct
        refine distinct.2.2 other.seq (List.mem_map_of_mem member) (arrival.seq % 0x10000) ?_
          sameSeq
        simp [Arrival.wrapped]
      have recorded : generator.recordArrival arrival.seq arrival.timeMs =
          { generator with arrivalMap := generator.arrivalMap ++ [arrival.wrapped] } := by
        simp [FeedbackGenerator.recordArrival, fresh, Arrival.wrapped]
      have later := ih { generator with arrivalMap := generator.arrivalMap ++ [arrival.wrapped] }
        (by simpa using distinct)
      rw [recordAll, List.foldl_cons, recorded]
      simpa [recordAll] using later

theorem sort_by_seq_eq {arrs sorted : List Arrival}
    (ascending : sorted.Pairwise (·.seq < ·.seq)) (same : arrs.Perm sorted) :
    sortBySeq arrs = sorted := by
  have total : Std.Total fun left right : Arrival => left.seq ≤ right.seq :=
    ⟨fun left right => Nat.le_total left.seq right.seq⟩
  have transitive : IsTrans Arrival fun left right => left.seq ≤ right.seq :=
    ⟨fun _ _ _ => Nat.le_trans⟩
  have permuted : (sortBySeq arrs).Perm sorted := (List.perm_insertionSort _ arrs).trans same
  have ordered : (sortBySeq arrs).Pairwise fun left right => left.seq ≤ right.seq :=
    List.pairwise_insertionSort _ arrs
  refine permuted.eq_of_pairwise ?_ ordered (ascending.imp fun less => less.le)
  intro left right member other forward backward
  have seqs : left.seq = right.seq := Nat.le_antisymm forward backward
  by_contra different
  have apart : sorted.Pairwise fun a b => a.seq ≠ b.seq := ascending.imp fun less => less.ne
  have symmetric : Std.Symm fun a b : Arrival => a.seq ≠ b.seq := ⟨fun _ _ ne => ne.symm⟩
  exact apart.forall (permuted.subset member) other different seqs

theorem widest_gap_bounded {bound : Nat} (i : Nat) {best : Nat × Nat} {arrs : List Arrival}
    (gaps : arrs.IsChain fun left right => right.seq - left.seq ≤ bound)
    (start : best.1 ≤ bound) : (widestGapLoop i best arrs).1 ≤ bound := by
  induction arrs generalizing i best with
  | nil => exact start
  | cons left rest ih =>
      cases rest with
      | nil => exact start
      | cons right rest =>
          rw [List.isChain_cons_cons] at gaps
          obtain ⟨maxGap, gapAt⟩ := best
          rw [widestGapLoop]
          apply ih _ gaps.2
          split_ifs
          · exact gaps.1
          · exact start

theorem widest_gap_kept {i : Nat} {best : Nat × Nat} {arrs : List Arrival}
    (gaps : arrs.IsChain fun left right => right.seq - left.seq ≤ best.1) :
    widestGapLoop i best arrs = best := by
  induction arrs generalizing i with
  | nil => rfl
  | cons left rest ih =>
      cases rest with
      | nil => rfl
      | cons right rest =>
          rw [List.isChain_cons_cons] at gaps
          obtain ⟨maxGap, gapAt⟩ := best
          have narrow : ¬ right.seq - left.seq > maxGap := Nat.not_lt.mpr gaps.1
          rw [widestGapLoop, if_neg narrow]
          exact ih gaps.2

theorem widest_gap_found {front back : List Arrival} {left right : Arrival}
    (before : (front ++ [left]).IsChain fun a b => b.seq - a.seq < right.seq - left.seq)
    (after : (right :: back).IsChain fun a b => b.seq - a.seq ≤ right.seq - left.seq)
    (i : Nat) {best : Nat × Nat} (start : best.1 < right.seq - left.seq) :
    widestGapLoop i best (front ++ left :: right :: back) =
      (right.seq - left.seq, i + front.length) := by
  induction front generalizing i best with
  | nil =>
      obtain ⟨maxGap, gapAt⟩ := best
      rw [List.nil_append, widestGapLoop, if_pos start]
      exact widest_gap_kept after
  | cons head front ih =>
      obtain ⟨next, tail, shape⟩ : ∃ next tail, front ++ left :: right :: back = next :: tail :=
        List.exists_cons_of_ne_nil (by simp)
      obtain ⟨maxGap, gapAt⟩ := best
      have gap : next.seq - head.seq < right.seq - left.seq := by
        cases front with
        | nil =>
            rw [List.nil_append, List.cons.injEq] at shape
            rw [← shape.1]
            exact (List.isChain_cons_cons.mp before).1
        | cons other front =>
            rw [List.cons_append, List.cons.injEq] at shape
            rw [← shape.1]
            exact (List.isChain_cons_cons.mp before).1
      rw [List.cons_append, shape, widestGapLoop, ← shape, ih (List.IsChain.tail before)]
      · rw [List.length_cons]
        congr 1
        omega
      · split_ifs
        · exact gap
        · exact start

theorem split_at_wrap {arrs : List Arrival} (ascending : arrs.Pairwise (·.seq < ·.seq)) :
    ∃ high low, arrs = high ++ low ∧ (∀ arrival ∈ high, arrival.seq < 0x10000) ∧
      ∀ arrival ∈ low, 0x10000 ≤ arrival.seq := by
  induction arrs with
  | nil => exact ⟨[], [], rfl, by simp, by simp⟩
  | cons arrival rest ih =>
      obtain ⟨above, restAscending⟩ := List.pairwise_cons.mp ascending
      by_cases inside : arrival.seq < 0x10000
      · obtain ⟨high, low, rfl, highBound, lowBound⟩ := ih restAscending
        refine ⟨arrival :: high, low, rfl, ?_, lowBound⟩
        intro other member
        rcases List.mem_cons.mp member with rfl | later
        · exact inside
        · exact highBound other later
      · refine ⟨[], arrival :: rest, rfl, by simp, ?_⟩
        intro other member
        rcases List.mem_cons.mp member with rfl | later
        · omega
        · have beyond := above other later
          omega

theorem gaps_within {start : Nat} {arrs : List Arrival}
    (inside : ∀ arrival ∈ arrs, start ≤ arrival.seq ∧ arrival.seq < start + 32768) :
    arrs.IsChain fun left right => right.seq - left.seq ≤ 32767 := by
  apply List.Pairwise.isChain
  apply List.pairwise_of_forall_mem_list
  intro left leftMember right rightMember
  have leftBound := inside left leftMember
  have rightBound := inside right rightMember
  omega

/-- Both halves of a window, and the low one once more as it was stored. -/
structure Halves (first : Arrival) (arrivals high low : List Arrival) : Prop where
  whole : first :: arrivals = high ++ low
  high_lt : ∀ arrival ∈ high, arrival.seq < 0x10000
  low_ge : ∀ arrival ∈ low, 0x10000 ≤ arrival.seq

section Halves

variable {first : Arrival} {arrivals high low : List Arrival}
  (window : Window first arrivals) (halves : Halves first arrivals high low)

include window in
theorem window_bounds {arrival : Arrival} (member : arrival ∈ first :: arrivals) :
    first.seq ≤ arrival.seq ∧ arrival.seq < first.seq + 32768 := by
  rcases List.mem_cons.mp member with rfl | later
  · omega
  · exact ⟨((List.pairwise_cons.mp window.ascending).1 arrival later).le,
      window.span arrival later⟩

include window halves

theorem halves_high_cons : ∃ rest, high = first :: rest := by
  cases high with
  | nil =>
      have whole := halves.whole
      have member : first ∈ low := by
        rw [List.nil_append] at whole
        rw [← whole]
        exact List.mem_cons_self
      have beyond := halves.low_ge first member
      have base := window.base
      omega
  | cons head rest =>
      have whole := halves.whole
      rw [List.cons_append, List.cons.injEq] at whole
      exact ⟨rest, by rw [whole.1]⟩

theorem halves_bounds {arrival : Arrival} (member : arrival ∈ high ++ low) :
    first.seq ≤ arrival.seq ∧ arrival.seq < first.seq + 32768 :=
  window_bounds window (halves.whole ▸ member)

omit window in
theorem wrapped_high : high.map (·.wrapped) = high := by
  rw [List.map_congr_left (g := id), List.map_id]
  intro arrival member
  have bounded := halves.high_lt arrival member
  simp [Arrival.wrapped, Nat.mod_eq_of_lt bounded]

theorem wrapped_low_seq {arrival : Arrival} (member : arrival ∈ low) :
    arrival.seq % 0x10000 + 65536 = arrival.seq := by
  have base := window.base
  have beyond := halves.low_ge arrival member
  have bounded := (halves_bounds window halves (List.mem_append_right high member)).2
  omega

theorem shift_wrapped_low : (low.map (·.wrapped)).map (·.shift 65536) = low := by
  rw [List.map_map, List.map_congr_left (g := id), List.map_id]
  intro arrival member
  have place := wrapped_low_seq window halves member
  simp [Arrival.wrapped, Arrival.shift, place]

theorem stored_ascending :
    (low.map (·.wrapped) ++ high).Pairwise (·.seq < ·.seq) := by
  have ascending := window.ascending
  rw [halves.whole, List.pairwise_append] at ascending
  obtain ⟨highAscending, lowAscending, _⟩ := ascending
  rw [List.pairwise_append]
  refine ⟨?_, highAscending, ?_⟩
  · rw [List.pairwise_map]
    refine lowAscending.imp_of_mem ?_
    intro left right leftMember rightMember less
    have leftSeq := wrapped_low_seq window halves leftMember
    have rightSeq := wrapped_low_seq window halves rightMember
    simp only [Arrival.wrapped]
    omega
  · intro left leftMember right rightMember
    obtain ⟨arrival, member, rfl⟩ := List.mem_map.mp leftMember
    have place := wrapped_low_seq window halves member
    have lowBound := (halves_bounds window halves (List.mem_append_right high member)).2
    have highBound := (halves_bounds window halves (List.mem_append_left low rightMember)).1
    simp only [Arrival.wrapped]
    omega

/-- Inside either half no gap reaches half the space; between them the gap does. -/
theorem unwrap_stored : unwrapArrivals (low.map (·.wrapped) ++ high) = high ++ low := by
  obtain ⟨rest, highShape⟩ := halves_high_cons window halves
  have highGaps : high.IsChain fun left right => right.seq - left.seq ≤ 32767 :=
    gaps_within fun arrival member =>
      halves_bounds window halves (List.mem_append_left low member)
  rcases List.eq_nil_or_concat low with empty | ⟨front, last, lowShape⟩
  · rw [empty, List.map_nil, List.nil_append, List.append_nil, unwrapArrivals]
    have narrow := widest_gap_bounded 1 highGaps (show ((0, 0) : Nat × Nat).1 ≤ 32767 by simp)
    have unwrapped : ¬ (high.length ≥ 2 ∧ (widestGap high).1 > 32768) := by
      rw [widestGap]
      omega
    exact if_neg unwrapped
  · have lastMember : last ∈ low := by simp [lowShape]
    have lastSeq := wrapped_low_seq window halves lastMember
    have lastBound := (halves_bounds window halves (List.mem_append_right high lastMember)).2
    have lowGaps : (low.map (·.wrapped)).IsChain fun left right =>
        right.seq - left.seq ≤ 32767 := by
      apply @gaps_within 0
      intro arrival member
      obtain ⟨stored, storedMember, rfl⟩ := List.mem_map.mp member
      have place := wrapped_low_seq window halves storedMember
      have bounded := (halves_bounds window halves (List.mem_append_right high storedMember)).2
      have base := window.base
      simp only [Arrival.wrapped]
      omega
    have found : widestGap (low.map (·.wrapped) ++ high) =
        (first.seq - last.seq % 0x10000, low.length) := by
      have wide : 32767 < first.seq - last.seq % 0x10000 := by omega
      have before : (front.map (·.wrapped) ++ [last.wrapped]).IsChain fun a b =>
          b.seq - a.seq < first.seq - last.wrapped.seq := by
        rw [lowShape, List.concat_eq_append, List.map_append] at lowGaps
        exact lowGaps.imp fun _ _ small => by simp only [Arrival.wrapped]; omega
      have after : (first :: rest).IsChain fun a b =>
          b.seq - a.seq ≤ first.seq - last.wrapped.seq := by
        rw [← highShape]
        exact highGaps.imp fun _ _ small => by simp only [Arrival.wrapped]; omega
      have start : ((0, 0) : Nat × Nat).1 < first.seq - last.wrapped.seq := by
        simp only [Arrival.wrapped]
        omega
      have located := widest_gap_found before after 1 start
      rw [widestGap, lowShape, highShape]
      simp only [List.concat_eq_append, List.map_append, List.map_cons, List.map_nil,
        List.append_assoc, List.cons_append, List.nil_append, List.length_append,
        List.length_singleton]
      rw [located]
      simp only [List.length_map, Arrival.wrapped, Nat.add_comm]
    have long : (low.map (·.wrapped) ++ high).length ≥ 2 := by
      rw [List.length_append, List.length_map, highShape, lowShape]
      simp only [List.concat_eq_append, List.length_append, List.length_cons, List.length_nil]
      omega
    have crosses : first.seq - last.seq % 0x10000 > 32768 := by omega
    have lowLength : (low.map (·.wrapped)).length = low.length := List.length_map _
    rw [unwrapArrivals, found]
    simp only [long, crosses, and_self, if_true]
    rw [List.drop_left' lowLength, List.take_left' lowLength, shift_wrapped_low window halves]
    exact sort_by_seq_eq (halves.whole ▸ window.ascending) (List.Perm.refl _)

end Halves

theorem unwrap_window {first : Arrival} {arrivals recorded : List Arrival}
    (window : Window first arrivals)
    (same : recorded.Perm ((first :: arrivals).map (·.wrapped))) :
    unwrapArrivals (sortBySeq recorded) = first :: arrivals := by
  obtain ⟨high, low, whole, highBound, lowBound⟩ := split_at_wrap window.ascending
  have halves : Halves first arrivals high low := ⟨whole, highBound, lowBound⟩
  have stored : recorded.Perm (low.map (·.wrapped) ++ high) := by
    refine same.trans ?_
    rw [whole, List.map_append, wrapped_high halves]
    exact List.perm_append_comm
  rw [sort_by_seq_eq (stored_ascending window halves) stored, unwrap_stored window halves, whole]

/-- Neighbouring times at most 8191 ms apart. -/
def Paced (times : List Int) : Prop :=
  times.IsChain fun left right => right - left ≤ 8191 ∧ left - right ≤ 8191

/-- A whole number of milliseconds is a whole number of 250 µs units, and up to
8191 of them fit the two signed bytes of a large delta. -/
theorem reported_arrival {gap : Int} (later : gap ≤ 8191) (earlier : -8191 ≤ gap) (seq : Nat) :
    PacketStatus.reported ⟨true, some (gap * 1000)⟩ seq =
      { seq := seq % 0x10000, received := true, deltaUs := some (gap * 1000) } := by
  have whole : toInt32 (gap * 1000) = gap * 1000 := by
    rw [toInt32, Int.bmod_eq_of_le] <;> omega
  have units : PacketStatus.deltaQ ⟨true, some (gap * 1000)⟩ = 4 * gap := by
    simp only [PacketStatus.deltaQ, Option.getD_some, whole, quantize]
    omega
  rw [PacketStatus.reported, units, if_pos ⟨rfl, by omega, by omega⟩]
  congr 2
  omega

theorem reported_missing (seq : Nat) :
    PacketStatus.missing.reported seq =
      { seq := seq % 0x10000, received := false, deltaUs := none } := rfl

theorem reported_from_cons (seq : Nat) (status : PacketStatus) (rest : List PacketStatus) :
    reportedFrom seq (status :: rest) = status.reported seq :: reportedFrom (seq + 1) rest := rfl

theorem range_map_succ {α : Type} (count : Nat) (value : Nat → α) :
    (List.range (count + 1)).map value =
      value 0 :: (List.range count).map fun i => value (1 + i) := by
  rw [List.range_succ_eq_map, List.map_cons, List.map_map]
  congr 1
  exact List.map_congr_left fun i _ => congrArg value (Nat.add_comm i 1)

theorem reconstruct_received (timeUs deltaUs : Int) (seq : Nat) (rest : List ReportedPacket) :
    reconstruct timeUs (⟨seq, true, some deltaUs⟩ :: rest) =
      (seq, timeUs + deltaUs) :: reconstruct (timeUs + deltaUs) rest := rfl

theorem reconstruct_missing (timeUs : Int) (seq : Nat) (rest : List ReportedPacket) :
    reconstruct timeUs (⟨seq, false, none⟩ :: rest) = reconstruct timeUs rest := rfl

theorem marks_from {seqI : Nat} (count : Nat) {prevArrivalMs : Int} {arrs : List Arrival}
    (ascending : arrs.Pairwise (·.seq < ·.seq)) (ahead : ∀ arrival ∈ arrs, seqI ≤ arrival.seq)
    (paced : Paced (prevArrivalMs :: arrs.map (·.timeMs))) (seq : Nat) :
    (reportedFrom seq (statusesFrom seqI count prevArrivalMs arrs)).map
        (fun packet => (packet.seq, packet.received)) =
      (List.range count).map fun i =>
        ((seq + i) % 0x10000, decide (∃ arrival ∈ arrs, arrival.seq = seqI + i)) := by
  induction count generalizing seqI prevArrivalMs arrs seq with
  | zero => simp [statusesFrom, reportedFrom]
  | succ count ih =>
      rw [range_map_succ]
      simp only [← Nat.add_assoc, Nat.add_zero]
      cases arrs with
      | nil =>
          rw [statusesFrom, reported_from_cons, reported_missing, List.map_cons,
            @ih _ _ [] (by simp) (by simp) (List.isChain_singleton _)]
          simp
      | cons arrival rest =>
          obtain ⟨above, restAscending⟩ := List.pairwise_cons.mp ascending
          obtain ⟨near, restPaced⟩ := List.isChain_cons_cons.mp paced
          by_cases here : arrival.seq = seqI
          · have restAhead : ∀ other ∈ rest, seqI + 1 ≤ other.seq := by
              intro other member
              have beyond := above other member
              omega
            have passed (i : Nat) : seqI ≠ seqI + 1 + i := by omega
            rw [statusesFrom, if_pos here, reported_from_cons,
              reported_arrival near.1 (by omega), List.map_cons,
              ih restAscending restAhead restPaced]
            simp [here, passed]
          · have aheadHere := ahead arrival List.mem_cons_self
            have allAhead : ∀ other ∈ arrival :: rest, seqI + 1 ≤ other.seq := by
              intro other member
              rcases List.mem_cons.mp member with rfl | later
              · omega
              · have beyond := above other later
                omega
            have absent : ¬ ∃ other ∈ arrival :: rest, other.seq = seqI := by
              rintro ⟨other, member, same⟩
              have beyond := allAhead other member
              omega
            rw [statusesFrom, if_neg here, reported_from_cons, reported_missing, List.map_cons,
              ih ascending allAhead paced, decide_eq_false absent]

theorem reconstruct_from {seqI count : Nat} {prevArrivalMs : Int} {arrs : List Arrival}
    (ascending : arrs.Pairwise (·.seq < ·.seq)) (ahead : ∀ arrival ∈ arrs, seqI ≤ arrival.seq)
    (inside : ∀ arrival ∈ arrs, arrival.seq < seqI + count)
    (paced : Paced (prevArrivalMs :: arrs.map (·.timeMs))) (seq : Nat) (timeUs : Int) :
    reconstruct timeUs (reportedFrom seq (statusesFrom seqI count prevArrivalMs arrs)) =
      arrs.map fun arrival => ((seq + (arrival.seq - seqI)) % 0x10000,
        timeUs + (arrival.timeMs - prevArrivalMs) * 1000) := by
  induction count generalizing seqI prevArrivalMs arrs seq timeUs with
  | zero =>
      cases arrs with
      | nil => rfl
      | cons arrival rest =>
          have beyond := ahead arrival List.mem_cons_self
          have before := inside arrival List.mem_cons_self
          omega
  | succ count ih =>
      cases arrs with
      | nil =>
          rw [statusesFrom, reported_from_cons, reported_missing, reconstruct_missing]
          exact @ih _ _ [] (by simp) (by simp) (by simp) (List.isChain_singleton _) _ _
      | cons arrival rest =>
          obtain ⟨above, restAscending⟩ := List.pairwise_cons.mp ascending
          obtain ⟨near, restPaced⟩ := List.isChain_cons_cons.mp paced
          have aheadHere := ahead arrival List.mem_cons_self
          by_cases here : arrival.seq = seqI
          · have restAhead : ∀ other ∈ rest, seqI + 1 ≤ other.seq := by
              intro other member
              have beyond := above other member
              omega
            have restInside : ∀ other ∈ rest, other.seq < seqI + 1 + count := by
              intro other member
              have before := inside other (List.mem_cons_of_mem _ member)
              omega
            rw [statusesFrom, if_pos here, reported_from_cons,
              reported_arrival near.1 (by omega), reconstruct_received,
              ih restAscending restAhead restInside restPaced, List.map_cons]
            congr 1
            · simp [here]
            · apply List.map_congr_left
              intro other member
              have beyond := restAhead other member
              have place : seq + 1 + (other.seq - (seqI + 1)) = seq + (other.seq - seqI) := by omega
              have time : timeUs + (arrival.timeMs - prevArrivalMs) * 1000 +
                  (other.timeMs - arrival.timeMs) * 1000 =
                    timeUs + (other.timeMs - prevArrivalMs) * 1000 := by ring
              rw [place, time]
          · have allAhead : ∀ other ∈ arrival :: rest, seqI + 1 ≤ other.seq := by
              intro other member
              rcases List.mem_cons.mp member with rfl | later
              · omega
              · have beyond := above other later
                omega
            have allInside : ∀ other ∈ arrival :: rest, other.seq < seqI + 1 + count := by
              intro other member
              have before := inside other member
              omega
            rw [statusesFrom, if_neg here, reported_from_cons, reported_missing,
              reconstruct_missing, ih ascending allAhead allInside paced]
            apply List.map_congr_left
            intro other member
            have beyond := allAhead other member
            have place : seq + 1 + (other.seq - (seqI + 1)) = seq + (other.seq - seqI) := by omega
            rw [place]

theorem statuses_from_length (seqI count : Nat) (prevArrivalMs : Int) (arrs : List Arrival) :
    (statusesFrom seqI count prevArrivalMs arrs).length = count := by
  induction count generalizing seqI prevArrivalMs arrs with
  | zero => simp [statusesFrom]
  | succ count ih =>
      cases arrs with
      | nil => simp [statusesFrom, ih]
      | cons arrival rest =>
          rw [statusesFrom]
          split_ifs <;> simp [ih]

section Window

variable {first : Arrival} {arrivals : List Arrival} (window : Window first arrivals)

include window

theorem window_distinct : (((first :: arrivals).map (·.wrapped)).map (·.seq)).Nodup := by
  rw [List.map_map, List.Nodup, List.pairwise_map]
  refine window.ascending.imp_of_mem ?_
  intro left right leftMember rightMember less
  have leftBound := window_bounds window leftMember
  have rightBound := window_bounds window rightMember
  simp only [Function.comp_apply, Arrival.wrapped]
  omega

theorem span_bounds : spanOf first arrivals ≤ 32768 ∧
    ∀ arrival ∈ first :: arrivals, arrival.seq < first.seq + spanOf first arrivals := by
  have last := window_bounds window (List.getLast_mem (List.cons_ne_nil first arrivals))
  refine ⟨by rw [spanOf]; omega, ?_⟩
  intro arrival member
  have ascending := window.ascending
  rw [← List.dropLast_append_getLast (List.cons_ne_nil first arrivals)] at member
  rw [← List.dropLast_append_getLast (List.cons_ne_nil first arrivals),
    List.pairwise_append] at ascending
  rw [spanOf]
  rcases List.mem_append.mp member with earlier | isLast
  · have before := ascending.2.2 arrival earlier _ (List.mem_singleton_self _)
    omega
  · rw [List.mem_singleton.mp isLast]
    omega

theorem window_paced :
    Paced (first.timeMs / 64 * 64 :: (first :: arrivals).map (·.timeMs)) := by
  have start : first.timeMs - first.timeMs / 64 * 64 ≤ 8191 ∧
      first.timeMs / 64 * 64 - first.timeMs ≤ 8191 := by omega
  refine List.isChain_cons_cons.mpr ⟨start, ?_⟩
  rw [← List.map_cons, List.isChain_map]
  exact window.steps

/-- The report the far end reads, up to the clamp on the reference time. -/
theorem parse_window_feedback {generator : FeedbackGenerator} {recorded : List Arrival}
    (idle : generator.arrivalMap = [])
    (same : (recorded.map (·.wrapped)).Perm ((first :: arrivals).map (·.wrapped))) :
    ((recordAll generator recorded).buildFeedback.2.bind fun packet =>
        parseTransportCC (packet.drop 12)) =
      some
        { baseSeq := first.seq
          packetCount := spanOf first arrivals
          referenceTimeMs := referenceUnits (first.timeMs / 64 * 64) * 64
          fbPktCount := generator.fbPktCount % 256
          packets := reportedFrom first.seq (statusesFrom first.seq (spanOf first arrivals)
            (first.timeMs / 64 * 64) (first :: arrivals)) } := by
  have distinct : ((generator.arrivalMap ++ recorded.map (·.wrapped)).map (·.seq)).Nodup := by
    rw [idle, List.nil_append]
    exact (same.map _).nodup_iff.mpr (window_distinct window)
  have stored := unwrap_window window same
  have base : first.seq % 0x10000 = first.seq := Nat.mod_eq_of_lt window.base
  have small := (span_bounds window).1
  have count : min (spanOf first arrivals) 0xFFFF = spanOf first arrivals := by omega
  have countField : spanOf first arrivals % 0x10000 = spanOf first arrivals := by omega
  rw [record_all_distinct generator recorded distinct, idle, List.nil_append,
    FeedbackGenerator.buildFeedback]
  have opts : feedbackOptions { generator with arrivalMap := recorded.map (·.wrapped) } first
      arrivals =
        { senderSsrc := generator.senderSsrc
          mediaSsrc := generator.mediaSsrc
          baseSeq := first.seq
          packetCount := spanOf first arrivals
          referenceTimeMs := first.timeMs / 64 * 64
          fbPktCount := generator.fbPktCount
          packets := statusesFrom first.seq (spanOf first arrivals) (first.timeMs / 64 * 64)
            (first :: arrivals) } := by
    have span : ((first :: arrivals).getLast (List.cons_ne_nil _ _)).seq - first.seq + 1 =
        spanOf first arrivals := rfl
    simp only [feedbackOptions, span, count, base]
  simp only [stored, opts, Option.bind_some, parse_build_transport_cc, base, countField,
    TransportCCOptions.statuses]
  rw [List.take_left' (statuses_from_length _ _ _ _)]

omit window in
/-- The clamp keeps the reference time modulo `2^24` units in two cases only. -/
theorem clamp_harmless_iff {units : Int} (nonneg : 0 ≤ units) :
    (referenceUnits (units * 64) - units) % 2 ^ 24 = 0 ↔
      units ≤ 0x7FFFFF ∨ units % 2 ^ 24 = 0x7FFFFF := by
  have whole : units * 64 / 64 = units := Int.mul_ediv_cancel units (by decide)
  simp only [referenceUnits, whole]
  split_ifs <;> omega

end Window

theorem feedback_reconstructs_iff {generator : FeedbackGenerator}
    (idle : generator.arrivalMap = []) {first : Arrival} {arrivals recorded : List Arrival}
    (window : Window first arrivals)
    (same : (recorded.map (·.wrapped)).Perm ((first :: arrivals).map (·.wrapped))) :
    (∃ report ∈ (recordAll generator recorded).buildFeedback.2.bind fun packet =>
        parseTransportCC (packet.drop 12), Reconstructs report first arrivals) ↔
      first.timeMs / 64 ≤ 0x7FFFFF ∨ first.timeMs / 64 % 2 ^ 24 = 0x7FFFFF := by
  have start := window.times first List.mem_cons_self
  have ahead : ∀ arrival ∈ first :: arrivals, first.seq ≤ arrival.seq :=
    fun arrival member => (window_bounds window member).1
  have paced := window_paced window
  have rebuilt := reconstruct_from window.ascending ahead (span_bounds window).2 paced first.seq
    (referenceUnits (first.timeMs / 64 * 64) * 64 * 1000)
  have marks := marks_from (spanOf first arrivals) window.ascending ahead paced first.seq
  have nonneg : 0 ≤ first.timeMs / 64 := by omega
  rw [parse_window_feedback window idle same, ← clamp_harmless_iff nonneg]
  constructor
  · rintro ⟨report, ⟨rfl⟩, _, times⟩
    rw [rebuilt, List.map_cons, List.map_cons, List.map_cons, List.cons.injEq,
      Prod.mk.injEq] at times
    obtain ⟨⟨_, congruent⟩, _⟩ := times
    omega
  · intro harmless
    refine ⟨_, rfl, marks, ?_⟩
    rw [rebuilt, List.map_map]
    apply List.map_congr_left
    intro arrival member
    have bounds := window_bounds window member
    have place : first.seq + (arrival.seq - first.seq) = arrival.seq := by omega
    have time : (referenceUnits (first.timeMs / 64 * 64) * 64 * 1000 +
        (arrival.timeMs - first.timeMs / 64 * 64) * 1000) % (2 ^ 24 * 64 * 1000) =
          arrival.timeMs * 1000 % (2 ^ 24 * 64 * 1000) := by omega
    simp only [Function.comp_apply, place, time]

theorem feedback_reconstructs_over_wrap :
    ∃ report ∈ (recordAll (.new none none) [⟨1, 1010⟩, ⟨65535, 1000⟩]).buildFeedback.2.bind
        fun packet => parseTransportCC (packet.drop 12),
      Reconstructs report ⟨65535, 1000⟩ [⟨65537, 1010⟩] :=
  (@feedback_reconstructs_iff _ rfl ⟨65535, 1000⟩ [⟨65537, 1010⟩] _
    ⟨by decide, by decide, by decide, by decide, by decide⟩ (by decide)).mpr (by decide)

/-- Six days of clock: one arrival at `2^29` ms is reported a whole unit early, and
a time of day as `Date.now()` gives it is far past the clamp. -/
theorem feedback_clamped_after_six_days :
    Window ⟨0, 536870912⟩ [] ∧
      ¬ ∃ report ∈ (recordAll (.new none none) [⟨0, 536870912⟩]).buildFeedback.2.bind
          fun packet => parseTransportCC (packet.drop 12),
        Reconstructs report ⟨0, 536870912⟩ [] := by
  exact ⟨⟨by decide, by decide, by decide, by decide, by decide⟩, by decide⟩

end RtpPacket.Rtcp
