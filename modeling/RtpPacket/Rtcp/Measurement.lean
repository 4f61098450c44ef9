import RtpPacket.Rtcp.SendHistory

/-!
# What a report measures

The gradients of a report add up to the growth of the delay from its first packet to its
last, whatever happened in between, and its throughput is that of everything that was sent
from the one to the other.
-/

namespace RtpPacket.Rtcp

set_option autoImplicit false

/-- Bits per second of what was sent, 0 where it took too little time to tell. -/
def throughput : List SendRecord → ℚ
  | [] => 0
  | first :: rest =>
      let windowMs := ((first :: rest).getLast (List.cons_ne_nil _ _)).sendTimeMs - first.sendTimeMs
      if windowMs > 10 then ((first :: rest).map (·.sizeBytes)).sum * 8 * 1000 / windowMs else 0

section Measurement

open BandwidthEstimator (Gradient SentWindow gradientStep windowStep actualBps)

def received : Int → List Arrival → List ReportedPacket
  | _, [] => []
  | prevArrivalMs, arrival :: rest =>
      ⟨arrival.seq % 0x10000, true, some ((arrival.timeMs - prevArrivalMs) * 1000)⟩ ::
        received arrival.timeMs rest

theorem received_from {seqI count : Nat} {prevArrivalMs : Int} {arrs : List Arrival}
    (ascending : arrs.Pairwise (·.seq < ·.seq)) (ahead : ∀ arrival ∈ arrs, seqI ≤ arrival.seq)
    (inside : ∀ arrival ∈ arrs, arrival.seq < seqI + count)
    (paced : Paced (prevArrivalMs :: arrs.map (·.timeMs))) :
    (reportedFrom seqI (statusesFrom seqI count prevArrivalMs arrs)).filter (·.received) =
      received prevArrivalMs arrs := by
  induction count generalizing seqI prevArrivalMs arrs with
  | zero =>
      cases arrs with
      | nil => rfl
      | cons arrival rest =>
          have beyond := ahead arrival List.mem_cons_self
          have before := inside arrival List.mem_cons_self
          omega
  | succ count ih =>
      cases arrs with
      | nil =>
          rw [statusesFrom, reported_from_cons, reported_missing,
            List.filter_cons_of_neg Bool.false_ne_true]
          exact @ih _ _ [] .nil (fun _ none => absurd none List.not_mem_nil)
            (fun _ none => absurd none List.not_mem_nil) (List.isChain_singleton _)
      | cons arrival rest =>
          obtain ⟨above, restAscending⟩ := List.pairwise_cons.mp ascending
          obtain ⟨near, restPaced⟩ := List.isChain_cons_cons.mp paced
          by_cases here : arrival.seq = seqI
          · have restAhead : ∀ other ∈ rest, seqI + 1 ≤ other.seq := by
              intro other member
              have beyond := above other member
              omega
            have restInside : ∀ other ∈ rest, other.seq < seqI + 1 + count := by
              intro other member
              have before := inside other (List.mem_cons_of_mem _ member)
              omega
            rw [statusesFrom, if_pos here, reported_from_cons, reported_arrival near.1 (by omega),
              List.filter_cons_of_pos rfl, ih restAscending restAhead restInside restPaced,
              received, here]
          · have allAhead : ∀ other ∈ arrival :: rest, seqI + 1 ≤ other.seq := by
              intro other member
              have beyond := ahead other member
              have first := ahead arrival List.mem_cons_self
              cases List.mem_cons.mp member with
              | inl same =>
                  subst same
                  omega
              | inr later =>
                  have after := above other later
                  omega
            have allInside : ∀ other ∈ arrival :: rest, other.seq < seqI + 1 + count := by
              intro other member
              have before := inside other member
              omega
            rw [statusesFrom, if_neg here, reported_from_cons, reported_missing,
              List.filter_cons_of_neg Bool.false_ne_true]
            exact ih ascending allAhead allInside paced

variable {history : InsertionMap Nat SendRecord}

theorem gradient_step_missing {scan : Gradient} {p : ReportedPacket} (lost : p.received = false) :
    gradientStep history scan p = scan := by
  rw [gradientStep, lost]

theorem gradient_fold_filter (packets : List ReportedPacket) (scan : Gradient) :
    packets.foldl (gradientStep history) scan =
      (packets.filter (·.received)).foldl (gradientStep history) scan := by
  induction packets generalizing scan with
  | nil => rfl
  | cons p rest ih =>
      cases got : p.received with
      | true => rw [List.filter_cons_of_pos got, List.foldl_cons, List.foldl_cons, ih]
      | false =>
          rw [List.filter_cons_of_neg (by rw [got]; exact Bool.false_ne_true), List.foldl_cons,
            gradient_step_missing got, ih]

/-- Over packets that the sender remembers the gradients add up to the growth of the delay
from the first to the last. -/
theorem gradient_received {record : Arrival → SendRecord} {prev : Arrival} {arrs : List Arrival}
    (remembered : ∀ arrival ∈ arrs, history.get (arrival.seq % 0x10000) = some (record arrival))
    {scan : Gradient} (paired : (scan.prevSeq.bind history.get).isSome = true)
    (left : scan.prevSendMs = (record prev).sendTimeMs) :
    ((received prev.timeMs arrs).foldl (gradientStep history) scan).pairCount =
        scan.pairCount + arrs.length ∧
      ((received prev.timeMs arrs).foldl (gradientStep history) scan).totalGradientUs =
        scan.totalGradientUs +
          ((((prev :: arrs).getLast (List.cons_ne_nil _ _)).timeMs - prev.timeMs) -
            ((record ((prev :: arrs).getLast (List.cons_ne_nil _ _))).sendTimeMs -
              (record prev).sendTimeMs)) * 1000 := by
  induction arrs generalizing prev scan with
  | nil => simp [received]
  | cons arrival rest ih =>
      have known := remembered arrival List.mem_cons_self
      have later := fun other member => remembered other (List.mem_cons_of_mem _ member)
      have one : gradientStep history scan ⟨arrival.seq % 0x10000, true,
          some ((arrival.timeMs - prev.timeMs) * 1000)⟩ =
            { totalGradientUs := scan.totalGradientUs +
                (((arrival.timeMs - prev.timeMs) * 1000 : Int) -
                  ((record arrival).sendTimeMs - (record prev).sendTimeMs) * 1000)
              pairCount := scan.pairCount + 1
              prevSeq := some (arrival.seq % 0x10000)
              prevSendMs := (record arrival).sendTimeMs } := by
        simp only [gradientStep, known, paired, left, if_true]
      have found : ((some (arrival.seq % 0x10000)).bind history.get).isSome = true := by
        rw [Option.bind_some, known, Option.isSome_some]
      rw [received, List.foldl_cons, one]
      obtain ⟨count, total⟩ := @ih arrival later
        ⟨_, scan.pairCount + 1, some (arrival.seq % 0x10000), _⟩ found rfl
      rw [count, total, List.getLast_cons_cons]
      constructor
      · rw [List.length_cons, Nat.add_assoc, Nat.add_comm 1]
      · push_cast
        ring

/-- The first packet of a report has no delay to compare with. -/
theorem gradient_of_received {record : Arrival → SendRecord} {first : Arrival}
    {later : List Arrival} {prevArrivalMs : Int}
    (remembered : ∀ arrival ∈ first :: later,
      history.get (arrival.seq % 0x10000) = some (record arrival))
    {packets : List ReportedPacket}
    (reported : packets.filter (·.received) = received prevArrivalMs (first :: later)) :
    (BandwidthEstimator.gradient history packets).pairCount = later.length ∧
      (BandwidthEstimator.gradient history packets).totalGradientUs =
        ((((first :: later).getLast (List.cons_ne_nil _ _)).timeMs - first.timeMs) -
          ((record ((first :: later).getLast (List.cons_ne_nil _ _))).sendTimeMs -
            (record first).sendTimeMs)) * 1000 := by
  have known := remembered first List.mem_cons_self
  have found : ((some (first.seq % 0x10000)).bind history.get).isSome = true := by
    rw [Option.bind_some, known, Option.isSome_some]
  have one : gradientStep history ⟨0, 0, none, 0⟩ ⟨first.seq % 0x10000, true,
      some ((first.timeMs - prevArrivalMs) * 1000)⟩ =
        { totalGradientUs := 0
          pairCount := 0
          prevSeq := some (first.seq % 0x10000)
          prevSendMs := (record first).sendTimeMs } := by
    simp only [gradientStep, known]
    rfl
  obtain ⟨count, total⟩ := @gradient_received history record first later
    (fun other member => remembered other (List.mem_cons_of_mem _ member))
    ⟨0, 0, some (first.seq % 0x10000), (record first).sendTimeMs⟩ found rfl
  rw [BandwidthEstimator.gradient, gradient_fold_filter, reported, received, List.foldl_cons, one,
    count, total]
  exact ⟨Nat.zero_add _, zero_add _⟩

theorem window_fold {packets : List ReportedPacket} {window : List SendRecord}
    (remembers : Remembers history packets window) {bytes first last : ℚ} (before : first ≤ last)
    (ordered : (last :: window.map (·.sendTimeMs)).Pairwise (· ≤ ·)) :
    packets.foldl (windowStep history) ⟨bytes, some first, last⟩ =
      ⟨bytes + (window.map (·.sizeBytes)).sum, some first,
        (last :: window.map (·.sendTimeMs)).getLast (List.cons_ne_nil _ _)⟩ := by
  induction remembers generalizing bytes last with
  | nil => simp
  | @cons p rec packets window known _ ih =>
      obtain ⟨above, rest⟩ := List.pairwise_cons.mp ordered
      have next : last ≤ rec.sendTimeMs := above _ (List.mem_cons_self ..)
      have one : windowStep history ⟨bytes, some first, last⟩ p =
          ⟨bytes + rec.sizeBytes, some first, rec.sendTimeMs⟩ := by
        simp only [windowStep, known, if_neg (before.trans next).not_gt]
        congr 1
        split_ifs with more
        · rfl
        · exact le_antisymm next (not_lt.mp more)
      rw [List.foldl_cons, one, ih (before.trans next) rest]
      simp [add_assoc]

/-- Of packets sent in order the window runs from the first to the last one. -/
theorem actual_bps_eq {packets : List ReportedPacket} {window : List SendRecord}
    (remembers : Remembers history packets window)
    (ordered : (window.map (·.sendTimeMs)).Pairwise (· ≤ ·))
    (nonneg : ∀ rec ∈ window, 0 ≤ rec.sendTimeMs) :
    actualBps history packets = throughput window := by
  cases remembers with
  | nil => simp [actualBps, throughput]
  | @cons p rec packets window known rest =>
      have start := nonneg rec List.mem_cons_self
      have one : windowStep history ⟨0, none, 0⟩ p =
          ⟨rec.sizeBytes, some rec.sendTimeMs, rec.sendTimeMs⟩ := by
        simp only [windowStep, known, zero_add]
        congr 1
        split_ifs with more
        · rfl
        · exact le_antisymm start (not_lt.mp more)
      have folded := @window_fold history packets window rest rec.sizeBytes _ _ le_rfl ordered
      have last : (rec.sendTimeMs :: window.map (·.sendTimeMs)).getLast (List.cons_ne_nil _ _) =
          ((rec :: window).getLast (List.cons_ne_nil _ _)).sendTimeMs :=
        @List.getLast_map _ _ SendRecord.sendTimeMs (rec :: window) (List.cons_ne_nil _ _)
      have later : rec.sendTimeMs ≤
          ((rec :: window).getLast (List.cons_ne_nil _ _)).sendTimeMs := by
        rw [← last]
        cases List.mem_cons.mp (List.getLast_mem (List.cons_ne_nil _ _)) with
        | inl same => exact same.ge
        | inr member => exact (List.pairwise_cons.mp ordered).1 _ member
      rw [actualBps, List.foldl_cons, one, folded, throughput, last]
      dsimp only
      have span : (if ((rec :: window).getLast (List.cons_ne_nil _ _)).sendTimeMs > rec.sendTimeMs
          then ((rec :: window).getLast (List.cons_ne_nil _ _)).sendTimeMs - rec.sendTimeMs
          else 0) =
            ((rec :: window).getLast (List.cons_ne_nil _ _)).sendTimeMs - rec.sendTimeMs := by
        split_ifs with more
        · rfl
        · rw [le_antisymm later (not_lt.mp more), sub_self]
      simp only [span, List.map_cons, List.sum_cons]

end Measurement

end RtpPacket.Rtcp
