import Mathlib.Data.List.DropRight
import RtpPacket.Lib.RecentValues
import RtpPacket.Rtcp.BandwidthEstimator
import RtpPacket.Rtcp.Feedback

/-!
# The send history

A sender remembers the last 2048 packets under their 16-bit transport-wide numbers. The
numbers of so few packets are all different, so each one is found under its own.
-/

namespace RtpPacket.Rtcp

open RecentValues

set_option autoImplicit false

def numberOf (start index : Nat) : Nat := (start + index) % 0x10000

def BandwidthEstimator.withoutHistory (self : BandwidthEstimator) : BandwidthEstimator :=
  { self with
    sendHistory := .empty
    sendHistoryOrder := [] }

section History

open BandwidthEstimator (sendHistoryMax)

variable {start : Nat} {sent : List SendRecord} {sender : BandwidthEstimator}

/-- The history holds the last packets under their numbers. -/
structure Recorded (start : Nat) (sent : List SendRecord) (sender : BandwidthEstimator) :
    Prop where
  order : sender.sendHistoryOrder =
    ((List.range sent.length).rtake sendHistoryMax).map (numberOf start)
  history : ∀ index rec, sent[index]? = some rec → sent.length ≤ index + 2048 →
    sender.sendHistory.get (numberOf start index) = some rec

theorem Recorded.of_same (recorded : Recorded start sent sender) {other : BandwidthEstimator}
    (order : other.sendHistoryOrder = sender.sendHistoryOrder)
    (history : other.sendHistory = sender.sendHistory) : Recorded start sent other :=
  ⟨order.trans recorded.order, history ▸ recorded.history⟩

theorem number_of_ne {index other : Nat} (less : index < other) (near : other < index + 0x10000) :
    numberOf start index ≠ numberOf start other := by
  rw [numberOf, numberOf]
  omega

theorem Recorded.oldest (recorded : Recorded start sent sender)
    (full : sendHistoryMax ≤ sent.length) (number : Nat) :
    (sender.sendHistoryOrder ++ [number]).take 1 =
      [numberOf start (sent.length - sendHistoryMax)] := by
  have positive : 0 < sendHistoryMax := by decide
  have inside : sent.length - sendHistoryMax < sent.length := by omega
  have there : (List.range sent.length)[sent.length - sendHistoryMax]? =
      some (sent.length - sendHistoryMax) := List.getElem?_range inside
  rw [List.take_one, recorded.order, List.head?_append, List.head?_map, List.rtake,
    List.length_range, List.head?_drop, there]
  rfl

theorem Recorded.order_send (recorded : Recorded start sent sender)
    (full : sendHistoryMax ≤ sent.length) :
    (sender.sendHistoryOrder ++ [numberOf start sent.length]).drop 1 =
      ((List.range (sent.length + 1)).rtake sendHistoryMax).map (numberOf start) := by
  have long : sendHistoryMax < (List.range (sent.length + 1)).length := by
    rw [List.length_range]
    omega
  rw [rtake_eq_tail long, List.range_succ, List.rtake_concat_succ, List.map_tail, List.map_append,
    ← recorded.order, List.drop_one]
  rfl

theorem Recorded.get_set (recorded : Recorded start sent sender) (added : SendRecord) {index : Nat}
    {rec : SendRecord} (there : (sent ++ [added])[index]? = some rec)
    (recent : sent.length ≤ index + 2048) :
    (sender.sendHistory.set (numberOf start sent.length) added).get (numberOf start index) =
      some rec := by
  rw [List.getElem?_append] at there
  split_ifs at there with inside
  · rw [InsertionMap.get_set_of_ne (number_of_ne inside (by omega))]
    exact recorded.history index rec there recent
  · obtain ⟨small, same⟩ := List.getElem?_eq_some_iff.mp there
    rw [List.length_singleton] at small
    have last : index = sent.length := by omega
    subst last
    rw [InsertionMap.get_set_self, ← same, List.getElem_singleton]

theorem Recorded.send (recorded : Recorded start sent sender) (sendTimeMs sizeBytes : ℚ) :
    Recorded start (sent ++ [⟨sendTimeMs, sizeBytes⟩])
      (sender.recordSend 0 (some (numberOf start sent.length)) (some sendTimeMs)
        (some sizeBytes)) := by
  have limit : sendHistoryMax = 2048 := rfl
  have ordered : (sender.sendHistoryOrder ++ [numberOf start sent.length]).length =
      min sent.length sendHistoryMax + 1 := by
    rw [recorded.order, List.length_append, List.length_map, length_rtake, List.length_range,
      List.length_singleton]
  have written {index : Nat} {rec : SendRecord}
      (there : (sent ++ [⟨sendTimeMs, sizeBytes⟩])[index]? = some rec)
      (recent : (sent ++ [(⟨sendTimeMs, sizeBytes⟩ : SendRecord)]).length ≤ index + 2048) :
      (sender.sendHistory.set (numberOf start sent.length) ⟨sendTimeMs, sizeBytes⟩).get
          (numberOf start index) = some rec ∧
        sent.length < index + 2048 ∧ index < sent.length + 1 := by
    obtain ⟨small, _⟩ := List.getElem?_eq_some_iff.mp there
    rw [List.length_append, List.length_singleton] at recent small
    exact ⟨recorded.get_set _ there (by omega), by omega, small⟩
  rw [BandwidthEstimator.recordSend]
  rw [Option.getD_some, Option.getD_some, ordered]
  by_cases full : sendHistoryMax ≤ sent.length
  · rw [if_pos (by omega), recorded.oldest full, recorded.order_send full, List.foldl_cons,
      List.foldl_nil]
    constructor
    · rw [List.length_append, List.length_singleton]
    · intro index rec there recent
      obtain ⟨found, near, small⟩ := written there recent
      dsimp only
      rw [InsertionMap.get_erase_of_ne (number_of_ne (by omega) (by omega)).symm]
      exact found
  · rw [if_neg (by omega)]
    constructor
    · have short : (List.range sent.length).length ≤ sendHistoryMax := by
        rw [List.length_range]
        omega
      have room : (List.range (sent.length + 1)).length ≤ sendHistoryMax := by
        rw [List.length_range]
        omega
      dsimp only
      rw [recorded.order, List.length_append, List.length_singleton, rtake_of_length_le short,
        rtake_of_length_le room, List.range_succ, List.map_append]
      rfl
    · intro index rec there recent
      exact (written there recent).1

abbrev Remembers (history : InsertionMap Nat SendRecord) :
    List ReportedPacket → List SendRecord → Prop :=
  List.Forall₂ fun p rec => history.get p.seq = some rec

/-- What the sender remembers of the packets that a report covers. -/
theorem Recorded.remembers (recorded : Recorded start sent sender) (statuses : List PacketStatus)
    {seq index : Nat} (number : seq % 0x10000 = numberOf start index)
    (inside : index + statuses.length ≤ sent.length) (recent : sent.length ≤ index + 2048) :
    Remembers sender.sendHistory (reportedFrom seq statuses)
      ((sent.drop index).take statuses.length) := by
  induction statuses generalizing seq index with
  | nil => exact .nil
  | cons status rest ih =>
      rw [List.length_cons] at inside ⊢
      have there : index < sent.length := by omega
      have named : (status.reported seq).seq = seq % 0x10000 := by
        rw [PacketStatus.reported]
        split_ifs
        · rfl
        · rfl
      have next : (seq + 1) % 0x10000 = numberOf start (index + 1) := by
        rw [numberOf] at number ⊢
        omega
      rw [reported_from_cons, List.drop_eq_getElem_cons there, List.take_succ_cons]
      refine .cons ?_ (ih next (by omega) (by omega))
      rw [named, number]
      exact recorded.history index _ (List.getElem?_eq_getElem there) recent

end History

theorem observe_transport_cc_history (sender : BandwidthEstimator)
    (report : Option TransportCCReport) :
    (sender.observeTransportCC report).sendHistory = sender.sendHistory ∧
      (sender.observeTransportCC report).sendHistoryOrder = sender.sendHistoryOrder := by
  cases report with
  | none => exact ⟨rfl, rfl⟩
  | some report =>
      rw [BandwidthEstimator.observeTransportCC]
      dsimp only
      split_ifs
      · exact ⟨rfl, rfl⟩
      · exact ⟨rfl, rfl⟩
      · exact ⟨rfl, rfl⟩

theorem observe_remb_history (sender : BandwidthEstimator) (bitrateBps : ℚ) :
    (sender.observeRemb bitrateBps).sendHistory = sender.sendHistory ∧
      (sender.observeRemb bitrateBps).sendHistoryOrder = sender.sendHistoryOrder ∧
        (sender.observeRemb bitrateBps).withoutHistory =
          sender.withoutHistory.observeRemb bitrateBps := by
  simp only [BandwidthEstimator.observeRemb, BandwidthEstimator.withoutHistory]
  split_ifs
  · exact ⟨rfl, rfl, rfl⟩
  · exact ⟨rfl, rfl, rfl⟩
  · exact ⟨rfl, rfl, rfl⟩

theorem record_send_rate (sender : BandwidthEstimator) (clock : ℚ) (transportSeq : Option Nat)
    (sendTimeMs sizeBytes : Option ℚ) :
    (sender.recordSend clock transportSeq sendTimeMs sizeBytes).withoutHistory =
      sender.withoutHistory := by
  cases transportSeq with
  | none => rfl
  | some transportSeq =>
      rw [BandwidthEstimator.recordSend]
      split_ifs
      · rfl
      · rfl

end RtpPacket.Rtcp
