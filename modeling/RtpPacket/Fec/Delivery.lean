import RtpPacket.Fec.Recovery

/-!
# Deliveries in any order

However media and FEC packets arrive, the decoder hands out packets of the source and
ends up with the packets that peeling gives.
-/

namespace RtpPacket.FlexFec

open ByteCodec Parity Peeling Run

set_option autoImplicit false

/-- A group that a FEC packet may be built from. -/
structure Protects (ssrc : Nat) (packets : List Bytes) (encoder : FlexFecEncoder)
    (group : List Member) : Prop where
  protected_ssrc_eq : encoder.protectedSsrc = ssrc
  members : ∀ m ∈ group, m.buf ∈ packets
  distinct : (group.map Member.buf).Nodup
  within : WithinMask group

theorem xlen_fold_lt (group : List Member) (short : ∀ m ∈ group, m.buf.length ≤ 65547)
    {start : Recovery} (small : start.xlen < 2 ^ 16) :
    (group.foldl (fun acc m => acc.mix m.buf) start).xlen < 2 ^ 16 := by
  induction group generalizing start with
  | nil => exact small
  | cons m rest ih =>
      obtain ⟨here, later⟩ := List.forall_mem_cons.mp short
      apply ih later
      apply Nat.xor_lt_two_pow small
      rw [fixedHdr]
      omega

theorem stated_honest {ssrc : Nat} {packets : List Bytes} (source : Source ssrc packets)
    {encoder : FlexFecEncoder} {group : List Member}
    (protects : Protects ssrc packets encoder group)
    (some : group ≠ []) :
    Honest ssrc packets (stated encoder.protectedSsrc group some) (group.map Member.buf) := by
  have seqs : (group.map Member.buf).map seqOf = group.map Member.seq := by
    rw [List.map_map]
    apply List.map_congr_left
    intro m _
    exact m.seq_eq.symm
  have members : ∀ packet ∈ group.map Member.buf, packet ∈ packets := by
    intro packet member
    obtain ⟨m, inside, rfl⟩ := List.mem_map.mp member
    exact protects.members m inside
  have distinct : ((group.map Member.buf).map seqOf).Nodup := by
    apply List.Nodup.map_on _ protects.distinct
    intro first firstMember second secondMember same
    exact eq_of_seq source (members first firstMember) (members second secondMember) same
  have short : ∀ m ∈ group, m.buf.length ≤ 65547 :=
    fun m member => (source.long _ (protects.members m member)).2
  have blank : (Recovery.blank (maxLen group)).xlen < 2 ^ 16 := Nat.two_pow_pos 16
  have length := xlen_fold_lt group short blank
  have lists := (stated_lists_iff encoder.protectedSsrc group some).mpr protects.within
  exact {
    members := members
    distinct := distinct
    seqs := by
      apply (List.perm_ext_iff_of_nodup lists.nodup distinct).mpr
      intro seq
      rw [lists.listed, seqs]
    ssrc_eq := protects.protected_ssrc_eq
    parity := by
      refine ⟨maxLen group, ?_, ?_⟩
      · have whole : (FlexFec.parity group).xlen % 0x10000 = (FlexFec.parity group).xlen :=
          Nat.mod_eq_of_lt length
        rw [lists.parity, whole, List.foldl_map]
        rfl
      · intro packet member
        obtain ⟨m, inside, rfl⟩ := List.mem_map.mp member
        exact le_max_len inside }

inductive Delivery where
  | media (packet : Bytes)
  | fec (encoder : FlexFecEncoder) (group : List Member) (filled : group ≠ [])

namespace Delivery

def Of (ssrc : Nat) (packets : List Bytes) : Delivery → Prop
  | .media packet => packet ∈ packets
  | .fec encoder group _ => Protects ssrc packets encoder group

def isFec : Delivery → Bool
  | .media _ => false
  | .fec .. => true

end Delivery

def FlexFecDecoder.step (self : FlexFecDecoder) : Delivery → FlexFecDecoder × List Bytes
  | .media packet => self.addMediaPacket packet
  | .fec encoder group filled => self.addFecPacket (encoder.buildFec group filled).2

def given (deliveries : List Delivery) : Set Bytes := {packet | .media packet ∈ deliveries}

def groups (deliveries : List Delivery) : Set (Set Bytes) :=
  {group | ∃ encoder members, ∃ some : members ≠ [],
    Delivery.fec encoder members some ∈ deliveries ∧
      group = {packet | packet ∈ members.map Member.buf}}

theorem given_snoc_media (deliveries : List Delivery) (packet : Bytes) :
    given (deliveries ++ [.media packet]) = insert packet (given deliveries) := by
  apply Set.ext
  intro other
  simp [given, or_comm]

theorem given_snoc_fec (deliveries : List Delivery) (encoder : FlexFecEncoder)
    (group : List Member) (some : group ≠ []) :
    given (deliveries ++ [.fec encoder group some]) = given deliveries := by
  apply Set.ext
  intro other
  simp [given]

theorem groups_snoc_media (deliveries : List Delivery) (packet : Bytes) :
    groups (deliveries ++ [.media packet]) = groups deliveries := by
  apply Set.ext
  intro group
  simp [groups]

theorem groups_snoc_fec (deliveries : List Delivery) (encoder : FlexFecEncoder)
    (group : List Member) (some : group ≠ []) :
    groups (deliveries ++ [.fec encoder group some]) =
      insert {packet | packet ∈ group.map Member.buf} (groups deliveries) := by
  apply Set.ext
  intro known
  rw [Set.mem_insert_iff]
  constructor
  · rintro ⟨other, members, filled, member, same⟩
    cases List.mem_append.mp member with
    | inl old => exact .inr ⟨other, members, filled, old, same⟩
    | inr new =>
        obtain ⟨rfl, rfl⟩ := Delivery.fec.inj (List.mem_singleton.mp new)
        exact .inl same
  · intro either
    cases either with
    | inl new => exact ⟨encoder, group, some, by simp, new⟩
    | inr old =>
        obtain ⟨other, members, filled, member, same⟩ := old
        exact ⟨other, members, filled, List.mem_append_left _ member, same⟩

section Deliveries

variable {ssrc : Nat} {packets : List Bytes} {given : Set Bytes} {groups : Set (Set Bytes)}
  {win count : Nat} {reached : FlexFecDecoder × List Bytes}

theorem Settled.after {left : FlexFecDecoder × List Bytes} {earlier : List Bytes} {most : Nat}
    (settled : Settled ssrc packets given groups win count left)
    (handed : ∀ packet ∈ earlier, packet ∈ packets) (wider : count ≤ most) :
    Settled ssrc packets given groups win most (left.1, earlier ++ left.2) where
  inv := settled.inv
  blocked := settled.blocked
  handed := List.forall_mem_append.mpr ⟨handed, settled.handed⟩
  win_eq := settled.win_eq
  fec_length := settled.fec_length.trans wider

theorem Settled.add_media (source : Source ssrc packets)
    (before : Settled ssrc packets given groups win count reached)
    (room : packets.length ≤ win) {packet : Bytes} (member : packet ∈ packets) :
    Settled ssrc packets (insert packet given) groups win count
      ((reached.1.addMediaPacket packet).1, reached.2 ++ (reached.1.addMediaPacket packet).2) := by
  obtain rfl := before.win_eq
  have long : ¬packet.length < fixedHdr := Nat.not_lt.mpr (source.long packet member).1
  have kept := before.inv.add_media source member
  have stays := @evict_stored packets reached.1 _ kept.stored room
  have added : reached.1.addMediaPacket packet = FlexFecDecoder.tryRecoverAll
      { reached.1 with media := reached.1.media.set (seqOf packet) packet } := by
    rw [FlexFecDecoder.addMediaPacket, if_neg long]
    exact congrArg (fun media => FlexFecDecoder.tryRecoverAll { reached.1 with media := media })
      stays
  rw [added]
  have settled := try_recover_all_spec source kept
  exact settled.after before.handed before.fec_length

theorem Settled.add_fec (source : Source ssrc packets)
    (before : Settled ssrc packets given groups win count reached) (few : count < maxFec)
    {encoder : FlexFecEncoder} {group : List Member}
    (protects : Protects ssrc packets encoder group)
    (filled : group ≠ []) :
    Settled ssrc packets given (insert {packet | packet ∈ group.map Member.buf} groups) win
      (count + 1)
      ((reached.1.addFecPacket (encoder.buildFec group filled).2).1,
        reached.2 ++ (reached.1.addFecPacket (encoder.buildFec group filled).2).2) := by
  obtain rfl := before.win_eq
  have kept := before.inv.add_fec (stated_honest source protects filled)
  have length := before.fec_length
  have stays :
      (reached.1.fec ++ [stated encoder.protectedSsrc group filled]).length - maxFec = 0 := by
    rw [List.length_append, List.length_singleton]
    omega
  have added : reached.1.addFecPacket (encoder.buildFec group filled).2 =
      FlexFecDecoder.tryRecoverAll
        { reached.1 with fec := reached.1.fec ++ [stated encoder.protectedSsrc group filled] } := by
    rw [FlexFecDecoder.addFecPacket, parse_build_fec]
    simp only [stays, List.drop_zero]
  rw [added]
  have settled := try_recover_all_spec source kept
  apply settled.after before.handed
  rw [List.length_append, List.length_singleton]
  exact Nat.succ_le_succ length

end Deliveries

theorem new_settled (ssrc : Nat) (packets : List Bytes) (windowSize : Option Nat) :
    Settled ssrc packets (given []) (groups []) (FlexFecDecoder.new windowSize).win 0
      (FlexFecDecoder.new windowSize, []) where
  inv := {
    stored := fun _ member => absurd member List.not_mem_nil
    sound := fun _ held => absurd held List.not_mem_nil
    contains := fun _ member => absurd member List.not_mem_nil
    pending := fun _ member => absurd member List.not_mem_nil
    covered := by
      rintro _ ⟨_, _, _, member, _⟩
      cases member }
  blocked := by
    intro j _ f member
    cases member
  handed := fun _ member => absurd member List.not_mem_nil
  win_eq := rfl
  fec_length := Nat.le_refl 0

/-- While at most 64 FEC packets are delivered none is dropped, and after every delivery
what can be recovered has been. -/
theorem run_settled {ssrc : Nat} {packets : List Bytes} (source : Source ssrc packets)
    {windowSize : Option Nat} (room : packets.length ≤ (FlexFecDecoder.new windowSize).win)
    {deliveries : List Delivery} (valid : ∀ delivery ∈ deliveries, delivery.Of ssrc packets)
    (few : deliveries.countP Delivery.isFec ≤ maxFec) :
    Settled ssrc packets (given deliveries) (groups deliveries)
      (FlexFecDecoder.new windowSize).win (deliveries.countP Delivery.isFec)
      (run FlexFecDecoder.step (FlexFecDecoder.new windowSize) deliveries) := by
  induction deliveries using List.reverseRecOn with
  | nil => exact new_settled ssrc packets windowSize
  | append_singleton earlier delivery ih =>
      rw [List.countP_append] at few ⊢
      have before := ih (fun other member => valid other (List.mem_append_left _ member))
        (Nat.le_of_add_right_le few)
      have now := valid delivery (List.mem_append_right _ (List.mem_singleton.mpr rfl))
      rw [run_append]
      cases delivery with
      | media packet =>
          rw [given_snoc_media, groups_snoc_media]
          simp only [run, List.append_nil]
          exact before.add_media source room now
      | fec encoder group filled =>
          rw [given_snoc_fec, groups_snoc_fec]
          simp only [run, List.append_nil]
          exact before.add_fec source few now filled

theorem Settled.entry_iff {ssrc : Nat} {packets : List Bytes} (source : Source ssrc packets)
    {given : Set Bytes} {groups : Set (Set Bytes)} {win count : Nat}
    {left : FlexFecDecoder × List Bytes}
    (settled : Settled ssrc packets given groups win count left) (seq : Nat) (packet : Bytes) :
    (seq, packet) ∈ left.1.media.entries ↔ seq = seqOf packet ∧ Peeled given groups packet := by
  rw [← settled.inv.held_iff source settled.blocked]
  constructor
  · intro entry
    have same : seq = seqOf packet := (settled.inv.stored _ entry).2
    rw [same] at entry
    exact ⟨same, entry⟩
  · rintro ⟨rfl, held⟩
    exact held

/-- The decoder hands out packets of the source and ends up with what peeling gives,
however the deliveries were ordered. -/
theorem decoder_peels {ssrc : Nat} {packets : List Bytes} (source : Source ssrc packets)
    {windowSize : Option Nat} (room : packets.length ≤ (FlexFecDecoder.new windowSize).win)
    {deliveries : List Delivery} (valid : ∀ delivery ∈ deliveries, delivery.Of ssrc packets)
    (few : deliveries.countP Delivery.isFec ≤ 64) :
    (∀ packet ∈ (run FlexFecDecoder.step (FlexFecDecoder.new windowSize) deliveries).2,
      packet ∈ packets) ∧
    (∀ seq packet, (seq, packet) ∈
        (run FlexFecDecoder.step (FlexFecDecoder.new windowSize) deliveries).1.media.entries ↔
      seq = seqOf packet ∧ Peeled (given deliveries) (groups deliveries) packet) ∧
    (∀ reordered : List Delivery, (∀ delivery, delivery ∈ reordered ↔ delivery ∈ deliveries) →
      reordered.countP Delivery.isFec ≤ 64 →
      ∀ entry, entry ∈ (run FlexFecDecoder.step (FlexFecDecoder.new windowSize)
          reordered).1.media.entries ↔
        entry ∈ (run FlexFecDecoder.step (FlexFecDecoder.new windowSize)
          deliveries).1.media.entries) := by
  have settled := run_settled source room valid few
  refine ⟨settled.handed, settled.entry_iff source, ?_⟩
  intro reordered same fewToo entry
  have again := run_settled source room
    (fun delivery member => valid delivery ((same delivery).mp member)) fewToo
  have sameGiven : given reordered = given deliveries := Set.ext fun _ => same _
  have sameGroups : groups reordered = groups deliveries := by
    simp only [groups, same]
  rw [again.entry_iff source, settled.entry_iff source, sameGiven, sameGroups]

def pair : List Member :=
  [⟨1000, mediaPacket 1000 [1, 2], by decide, by decide⟩,
    ⟨1001, mediaPacket 1001 [3], by decide, by decide⟩]

theorem pair_recovered :
    (1001, mediaPacket 1001 [3]) ∈ (run FlexFecDecoder.step (FlexFecDecoder.new none)
      [.fec pairEncoder pair (by decide), .media (mediaPacket 1000 [1, 2])]).1.media.entries := by
  have source : Source 7 (pair.map Member.buf) := ⟨by decide, by decide, by decide, by decide⟩
  have protects : Protects 7 (pair.map Member.buf) pairEncoder pair := by
    refine ⟨rfl, by decide, by decide, ?_⟩
    intro first isFirst
    obtain rfl := Option.some.inj isFirst
    decide
  have valid : ∀ delivery ∈ [Delivery.fec pairEncoder pair (by decide),
      .media (mediaPacket 1000 [1, 2])], delivery.Of 7 (pair.map Member.buf) :=
    List.forall_mem_cons.mpr ⟨protects, List.forall_mem_singleton.mpr
      (show mediaPacket 1000 [1, 2] ∈ pair.map Member.buf by decide)⟩
  apply ((decoder_peels source (by decide) valid (by decide)).2.1 _ _).mpr
  refine ⟨by decide, ?_⟩
  have known : {packet | packet ∈ pair.map Member.buf} ∈ groups
      [.fec pairEncoder pair (by decide), .media (mediaPacket 1000 [1, 2])] :=
    ⟨pairEncoder, pair, by decide, List.mem_cons_self, rfl⟩
  apply Peeled.missing known (show mediaPacket 1001 [3] ∈ pair.map Member.buf by decide)
  intro other member different
  apply Peeled.given
  have either : other = mediaPacket 1000 [1, 2] ∨ other = mediaPacket 1001 [3] := by
    simpa [pair] using member
  cases either with
  | inl first => rw [first]; exact List.mem_cons_of_mem _ List.mem_cons_self
  | inr second => exact absurd second different

end RtpPacket.FlexFec
