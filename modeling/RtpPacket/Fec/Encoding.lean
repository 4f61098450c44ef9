import RtpPacket.Fec.Mask
import RtpPacket.Lib.SerialNumber

/-!
# What the encoder protects

A FEC packet lists its group when the group lies within the reach of the mask, counted
forward from its first packet. A packet outside of it is mixed in and not listed.
-/

namespace RtpPacket.FlexFec

open ByteCodec Parity Run SerialNumber Word

set_option autoImplicit false

/-- The packets whose parity a FEC packet holds are the ones that its mask lists. -/
structure Lists (group : List Member) (fec : Fec) : Prop where
  parity : fec.toRecovery = { FlexFec.parity group with
    xlen := (FlexFec.parity group).xlen % 0x10000 }
  nodup : fec.seqs.Nodup
  listed : ∀ seq, seq ∈ fec.seqs ↔ seq ∈ group.map Member.seq

def WithinMask (group : List Member) : Prop :=
  ∀ first ∈ group.head?, ∀ m ∈ group, seqDiff m.seq first.seq ≤ 108

theorem step_emits (self : FlexFecEncoder) (event : EncoderEvent) (packet : Bytes) :
    packet ∈ (self.step event).2 ↔
      ∃ some : self.closing event ≠ [], packet = (self.buildFec (self.closing event) some).2 := by
  cases event with
  | protect buf =>
      simp only [FlexFecEncoder.step, FlexFecEncoder.protect, FlexFecEncoder.closing]
      split_ifs <;> simp
  | flush =>
      simp only [FlexFecEncoder.step, FlexFecEncoder.flush, FlexFecEncoder.closing]
      split_ifs with some
      · simp [some]
      · simp [some]
  | setGroupSize n => simp [FlexFecEncoder.step, FlexFecEncoder.closing]

theorem add_seq_diff (m first : Member) :
    (first.seq + seqDiff m.seq first.seq) % 0x10000 = m.seq := by
  rw [seqDiff, wrap_sub_eq_distance first.seq_lt m.seq_lt]
  exact add_distance first.seq_lt m.seq_lt

theorem seq_diff_add (first : Member) {i : Nat} (small : i < 2 ^ 16) :
    seqDiff ((first.seq + i) % 0x10000) first.seq = i := by
  have bound : (first.seq + i) % 0x10000 < 2 ^ 16 := Nat.mod_lt _ (by decide)
  rw [seqDiff, wrap_sub_eq_distance first.seq_lt bound]
  exact distance_add first.seq_lt small

theorem mem_stated {protectedSsrc : Nat} {group : List Member} {some : group ≠ []} {seq : Nat} :
    seq ∈ (stated protectedSsrc group some).seqs ↔
      ∃ m ∈ group, m.seq = seq ∧ seqDiff m.seq (group.head some).seq ≤ 108 := by
  rw [stated, List.mem_map]
  simp only [listed, List.mem_filter, List.mem_range, maskBit, Bool.and_eq_true, decide_eq_true_iff,
    offsets, List.mem_map]
  constructor
  · rintro ⟨i, ⟨_, bound, m, member, rfl⟩, rfl⟩
    exact ⟨m, member, (add_seq_diff m _).symm, Nat.le_of_lt_succ bound⟩
  · rintro ⟨m, member, rfl, near⟩
    exact ⟨_, ⟨Nat.lt_succ_of_le near, Nat.lt_succ_of_le near, m, member, rfl⟩, add_seq_diff m _⟩

theorem stated_nodup (protectedSsrc : Nat) (group : List Member) (some : group ≠ []) :
    (stated protectedSsrc group some).seqs.Nodup := by
  apply List.Nodup.map_on _ (List.nodup_range.filter _)
  intro i iMember j jMember same
  have iSmall := List.mem_range.mp (List.mem_filter.mp iMember).1
  have jSmall := List.mem_range.mp (List.mem_filter.mp jMember).1
  rw [← seq_diff_add (group.head some) (i := i) (by omega), same, seq_diff_add _ (by omega)]

theorem stated_lists_iff (protectedSsrc : Nat) (group : List Member) (some : group ≠ []) :
    Lists group (stated protectedSsrc group some) ↔ WithinMask group := by
  constructor
  · intro lists first firstMember m member
    have head : group.head some = first := by
      rw [List.head?_eq_some_head some] at firstMember
      exact Option.some.inj firstMember
    obtain ⟨other, _, same, near⟩ :=
      mem_stated.mp ((lists.listed m.seq).mpr (List.mem_map_of_mem member))
    rw [same, head] at near
    exact near
  · intro within
    refine ⟨rfl, stated_nodup protectedSsrc group some, fun seq => ?_⟩
    rw [mem_stated, List.mem_map]
    constructor
    · rintro ⟨m, member, same, _⟩
      exact ⟨m, member, same⟩
    · rintro ⟨m, member, same⟩
      exact ⟨m, member, same, within _ (List.head?_eq_some_head some) m member⟩

/-- Over a whole run, every FEC packet lists what it protects exactly when every group that
is closed lies within the mask. -/
theorem encoder_lists_iff (self : FlexFecEncoder) (events : List EncoderEvent) :
    Always FlexFecEncoder.step (fun before event => ∀ packet ∈ (before.step event).2,
        ∃ fec, parseFec packet = some fec ∧ Lists (before.closing event) fec) self events ↔
      Always FlexFecEncoder.step (fun before event => WithinMask (before.closing event))
        self events := by
  have agree : (fun (before : FlexFecEncoder) event => ∀ packet ∈ (before.step event).2,
      ∃ fec, parseFec packet = some fec ∧ Lists (before.closing event) fec) =
      fun before event => WithinMask (before.closing event) := by
    funext before event
    apply propext
    by_cases some : before.closing event = []
    · have silent (packet : Bytes) : packet ∉ (before.step event).2 := by
        rw [step_emits]
        exact fun emitted => emitted.1 some
      rw [some]
      exact ⟨fun _ _ none => absurd none (by simp),
        fun _ packet member => absurd member (silent packet)⟩
    · rw [← stated_lists_iff before.protectedSsrc _ some]
      constructor
      · intro each
        obtain ⟨fec, parsed, lists⟩ := each _ ((step_emits before event _).mpr ⟨some, rfl⟩)
        rw [parse_build_fec, Option.some.injEq] at parsed
        exact parsed ▸ lists
      · intro lists packet member
        obtain ⟨_, rfl⟩ := (step_emits before event packet).mp member
        exact ⟨_, parse_build_fec before _ some, lists⟩
  rw [agree]

def pairEncoder : FlexFecEncoder where
  ssrc := 9
  pt := 118
  protectedSsrc := 7
  groupSize := 2
  seq := 0
  group := []
  protected_ssrc_range := by decide

def mediaPacket (seq : Nat) (body : Bytes) : Bytes :=
  [0x80, 0x60] ++ encodeBE 2 seq ++ encodeBE 4 3000 ++ encodeBE 4 7 ++ body

/-- The second packet was sent out of order, one before the first. -/
theorem encoder_omits_reordered :
    ¬Always FlexFecEncoder.step (fun before event => ∀ packet ∈ (before.step event).2,
        ∃ fec, parseFec packet = some fec ∧ Lists (before.closing event) fec) pairEncoder
      [.protect (mediaPacket 1000 [1, 2]), .protect (mediaPacket 999 [3])] := by
  intro always
  have each := always.2.1
  have read : (((pairEncoder.step (.protect (mediaPacket 1000 [1, 2]))).1.step
      (.protect (mediaPacket 999 [3]))).2.map fun packet => (parseFec packet).map (·.seqs)) =
      [some [1000]] := by decide +kernel
  have group : 999 ∈ ((pairEncoder.step (.protect (mediaPacket 1000 [1, 2]))).1.closing
      (.protect (mediaPacket 999 [3]))).map Member.seq := by decide +kernel
  obtain ⟨packet, _, emitted, _⟩ := List.map_eq_cons_iff.mp read
  obtain ⟨fec, parsed, lists⟩ := each packet (by rw [emitted]; exact List.mem_cons_self)
  rw [emitted, List.map_cons, parsed, Option.map_some] at read
  have seqs : fec.seqs = [1000] := Option.some.inj (List.cons.inj read).1
  have listed := (lists.listed 999).mpr group
  rw [seqs] at listed
  exact absurd listed (by decide)

end RtpPacket.FlexFec
