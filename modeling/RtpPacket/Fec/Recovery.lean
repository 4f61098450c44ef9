import RtpPacket.Fec.Encoding
import RtpPacket.Lib.Peeling

/-!
# What the decoder recovers

A group with one packet missing gives it back, and the loop over the groups stops where
none is left that could be used.
-/

namespace RtpPacket.FlexFec

open ByteCodec Parity Peeling Run Word

set_option autoImplicit false

def seqOf (packet : Bytes) : Nat := readBE 2 packet 2

/-- The media packets that FEC packets protect. -/
structure Source (ssrc : Nat) (packets : List Bytes) : Prop where
  long : ∀ packet ∈ packets, 12 ≤ packet.length ∧ packet.length ≤ 65547
  version : ∀ packet ∈ packets, (packet.getD 0 0).toNat &&& 0xC0 = 0x80
  ssrc_eq : ∀ packet ∈ packets, readBE 4 packet 8 = ssrc
  distinct : (packets.map seqOf).Nodup

theorem mix_self_inverse : SelfInverse Recovery.mix where
  comm := by
    intro acc first second
    simp only [Recovery.mix, xor_into_comm acc.repair, Nat.xor_right_comm]
  cancel := by
    intro acc b
    simp only [Recovery.mix, xor_into_cancel, Nat.xor_assoc, Nat.xor_self, Nat.xor_zero]

theorem first_byte : ∀ byte < 256, byte &&& 0xC0 = 0x80 →
    0x80 ||| (byte &&& 0x3F &&& 0x3F) = byte := by
  decide +kernel

theorem packet_fields {packet : Bytes} (long : 12 ≤ packet.length) :
    [packet.getD 0 0, packet.getD 1 0] ++ encodeBE 2 (readBE 2 packet 2) ++
      encodeBE 4 (readBE 4 packet 4) ++ encodeBE 4 (readBE 4 packet 8) ++ packet.drop 12 =
      packet := by
  have first : [packet.getD 0 0, packet.getD 1 0] = packet.take 2 := by
    match packet, long with
    | _ :: _ :: _, _ => rfl
  have piece (offset width : Nat) :
      packet.take offset ++ (packet.drop offset).take width = packet.take (offset + width) :=
    List.take_add.symm
  rw [encode_be_read_be (by omega), encode_be_read_be (by omega), encode_be_read_be (by omega),
    first, piece, piece, piece, List.take_append_drop]

theorem rebuild_blank {ssrc longest : Nat} {packets : List Bytes} (source : Source ssrc packets)
    {packet : Bytes} (member : packet ∈ packets) (room : packet.length - 12 ≤ longest)
    {f : Fec} (ssrc_eq : f.ssrc = ssrc) {present : List Bytes}
    (left : present.foldl Recovery.mix f.toRecovery = (Recovery.blank longest).mix packet) :
    FlexFecDecoder.rebuild f (seqOf packet) present = .recovered packet := by
  obtain ⟨long, short⟩ := source.long packet member
  have repair : xorInto (List.replicate longest 0) (packet.drop 12) =
      packet.drop 12 ++ List.replicate (longest - (packet.drop 12).length) 0 :=
    xor_into_zeros (by rw [List.length_drop]; exact room)
  have length : (packet.length - 12) &&& 0xFFFF = packet.length - 12 := by
    rw [Nat.and_two_pow_sub_one_eq_mod _ 16]
    exact Nat.mod_eq_of_lt (by omega)
  have enough : ¬packet.length - 12 > (packet.drop 12 ++
      List.replicate (longest - (packet.drop 12).length) (0 : Byte)).length := by
    rw [List.length_append, List.length_drop]
    omega
  have tail : (packet.drop 12 ++ List.replicate (longest - (packet.drop 12).length) (0 : Byte)).take
      (packet.length - 12) = packet.drop 12 := List.take_left' (List.length_drop)
  have version := first_byte _ (UInt8.toNat_lt (packet.getD 0 0)) (source.version packet member)
  rw [FlexFecDecoder.rebuild, left]
  simp only [Recovery.mix, Recovery.blank, fixedHdr, Nat.zero_xor, length, repair, enough, if_false,
    tail, version, byte_at_byte, ssrc_eq]
  rw [← source.ssrc_eq packet member, seqOf, packet_fields long]

/-- A parsed FEC packet that says what holds of a group of the source. -/
structure Honest (ssrc : Nat) (packets : List Bytes) (f : Fec) (group : List Bytes) : Prop where
  members : ∀ packet ∈ group, packet ∈ packets
  distinct : (group.map seqOf).Nodup
  seqs : f.seqs.Perm (group.map seqOf)
  ssrc_eq : f.ssrc = ssrc
  parity : ∃ longest, f.toRecovery = group.foldl Recovery.mix (Recovery.blank longest) ∧
    ∀ packet ∈ group, packet.length - 12 ≤ longest

def Stored (packets : List Bytes) (media : InsertionMap Nat Bytes) : Prop :=
  ∀ entry ∈ media.entries, entry.2 ∈ packets ∧ entry.1 = seqOf entry.2

def Held (media : InsertionMap Nat Bytes) : Set Bytes :=
  {packet | (seqOf packet, packet) ∈ media.entries}

theorem eq_of_seq {ssrc : Nat} {packets : List Bytes} (source : Source ssrc packets)
    {first second : Bytes} (firstMember : first ∈ packets) (secondMember : second ∈ packets)
    (same : seqOf first = seqOf second) : first = second :=
  List.inj_on_of_nodup_map source.distinct firstMember secondMember same

theorem Honest.unique {ssrc : Nat} {packets : List Bytes} {f : Fec} {first second : List Bytes}
    (firstHonest : Honest ssrc packets f first) (source : Source ssrc packets)
    (secondHonest : Honest ssrc packets f second) {packet : Bytes} (member : packet ∈ first) :
    packet ∈ second := by
  have listed : seqOf packet ∈ second.map seqOf :=
    secondHonest.seqs.subset (firstHonest.seqs.symm.subset (List.mem_map_of_mem member))
  obtain ⟨other, otherMember, same⟩ := List.mem_map.mp listed
  have equal : other = packet := eq_of_seq source (secondHonest.members other otherMember)
    (firstHonest.members packet member) same
  exact equal ▸ otherMember

section Groups

variable {ssrc : Nat} {packets : List Bytes} {media : InsertionMap Nat Bytes}

theorem get_of_held {packet : Bytes} (held : packet ∈ Held media) :
    media.get (seqOf packet) = some packet :=
  InsertionMap.get_eq_some_iff.mpr held

theorem get_isSome_iff (source : Source ssrc packets) (stored : Stored packets media)
    {packet : Bytes} (member : packet ∈ packets) :
    (media.get (seqOf packet)).isSome = true ↔ packet ∈ Held media := by
  constructor
  · intro found
    obtain ⟨other, got⟩ := Option.isSome_iff_exists.mp found
    have entry := InsertionMap.get_eq_some_iff.mp got
    obtain ⟨otherMember, same⟩ := stored _ entry
    have equal : packet = other := eq_of_seq source member otherMember same
    rw [← equal] at entry
    exact entry
  · intro held
    rw [get_of_held held]
    rfl

theorem stored_set (stored : Stored packets media) {packet : Bytes} (member : packet ∈ packets) :
    Stored packets (media.set (seqOf packet) packet) := by
  intro entry inside
  cases InsertionMap.mem_set.mp inside with
  | inl new => rw [new]; exact ⟨member, rfl⟩
  | inr old => exact stored entry old.2

theorem held_set (source : Source ssrc packets) (stored : Stored packets media) {packet : Bytes}
    (member : packet ∈ packets) :
    Held (media.set (seqOf packet) packet) = insert packet (Held media) := by
  apply Set.ext
  intro other
  have entry := @InsertionMap.mem_set Nat Bytes _ media (seqOf packet) packet (seqOf other, other)
  rw [Set.mem_insert_iff]
  apply entry.trans
  constructor
  · intro either
    cases either with
    | inl new => exact .inl (congrArg Prod.snd new)
    | inr old => exact .inr old.2
  · intro either
    cases either with
    | inl same => exact .inl (by rw [same])
    | inr held =>
        by_cases same : seqOf other = seqOf packet
        · have equal : other = packet := eq_of_seq source (stored _ held).1 member same
          exact .inl (by rw [equal])
        · exact .inr ⟨same, held⟩

def absent (media : InsertionMap Nat Bytes) (group : List Bytes) : List Bytes :=
  group.filter fun packet => (media.get (seqOf packet)).isNone

theorem mem_absent (source : Source ssrc packets) (stored : Stored packets media)
    {group : List Bytes} (members : ∀ packet ∈ group, packet ∈ packets) {packet : Bytes} :
    packet ∈ absent media group ↔ packet ∈ group ∧ packet ∉ Held media := by
  rw [absent, List.mem_filter]
  apply and_congr_right
  intro member
  rw [← get_isSome_iff source stored (members packet member), Option.isNone_iff_eq_none,
    Bool.not_eq_true, Option.isSome_eq_false_iff, Option.isNone_iff_eq_none]

theorem present_perm (source : Source ssrc packets) (stored : Stored packets media) {f : Fec}
    {group : List Bytes} (honest : Honest ssrc packets f group) :
    (f.seqs.filterMap media.get).Perm
      (group.filter fun packet => !(media.get (seqOf packet)).isNone) := by
  have permuted := honest.seqs.filterMap media.get
  rw [List.filterMap_map] at permuted
  rw [← List.filterMap_eq_filter]
  have same : group.filterMap (media.get ∘ seqOf) =
      group.filterMap (Option.guard fun packet => !(media.get (seqOf packet)).isNone) := by
    apply List.filterMap_congr
    intro packet member
    cases found : media.get (seqOf packet) with
    | none => simp [Option.guard, found]
    | some other =>
        have held := (get_isSome_iff source stored (honest.members packet member)).mp
          (by rw [found]; rfl)
        have equal : other = packet := Option.some.inj (found.symm.trans (get_of_held held))
        simp [Option.guard, found, equal]
  rwa [same] at permuted

theorem missing_perm {f : Fec} {group : List Bytes} (honest : Honest ssrc packets f group) :
    (f.seqs.filter fun seq => (media.get seq).isNone).Perm ((absent media group).map seqOf) := by
  have permuted := honest.seqs.filter fun seq => (media.get seq).isNone
  rwa [List.filter_map] at permuted

end Groups

theorem try_recover_spec {ssrc : Nat} {packets : List Bytes} (source : Source ssrc packets)
    {self : FlexFecDecoder} (stored : Stored packets self.media) {f : Fec} {group : List Bytes}
    (honest : Honest ssrc packets f group) :
    (absent self.media group = [] ∧ self.tryRecover f = .satisfied) ∨
    (∃ packet, absent self.media group = [packet] ∧ self.tryRecover f = .recovered packet) ∨
    (2 ≤ (absent self.media group).length ∧ self.tryRecover f = .blocked) := by
  have missing := @missing_perm _ _ self.media _ _ honest
  cases left : absent self.media group with
  | nil =>
      rw [left, List.map_nil, List.perm_nil] at missing
      refine .inl ⟨rfl, ?_⟩
      rw [FlexFecDecoder.tryRecover, missing]
  | cons packet rest =>
      cases rest with
      | nil =>
          rw [left, List.map_singleton, List.perm_singleton] at missing
          refine .inr (.inl ⟨packet, rfl, ?_⟩)
          obtain ⟨member, _⟩ := (mem_absent source stored honest.members).mp
            (show packet ∈ absent self.media group by rw [left]; exact List.mem_singleton.mpr rfl)
          obtain ⟨longest, parity, lengths⟩ := honest.parity
          have whole : group.Perm (packet :: f.seqs.filterMap self.media.get) := by
            have split := (List.filter_append_perm
              (fun other => (self.media.get (seqOf other)).isNone) group).symm
            rw [show group.filter (fun other => (self.media.get (seqOf other)).isNone) = [packet]
              from left] at split
            exact split.trans ((present_perm source stored honest).symm.cons packet)
          have rest := mix_self_inverse.foldl_missing whole (Recovery.blank longest)
          rw [← parity] at rest
          rw [FlexFecDecoder.tryRecover, missing]
          exact rebuild_blank source (honest.members packet member) (lengths packet member)
            honest.ssrc_eq rest
      | cons other rest =>
          refine .inr (.inr ⟨by simp, ?_⟩)
          have length := missing.length_eq
          rw [left, List.length_map] at length
          rw [FlexFecDecoder.tryRecover]
          split
          · next none => rw [none] at length; simp at length
          · next one => rw [one] at length; simp at length
          · rfl

/-- What holds of a decoder that was given media `given` and FEC packets of `groups`. -/
structure Inv (ssrc : Nat) (packets : List Bytes) (given : Set Bytes) (groups : Set (Set Bytes))
    (decoder : FlexFecDecoder) : Prop where
  stored : Stored packets decoder.media
  sound : ∀ packet ∈ Held decoder.media, Peeled given groups packet
  contains : given ⊆ Held decoder.media
  pending : ∀ f ∈ decoder.fec, ∃ group, Honest ssrc packets f group ∧ {p | p ∈ group} ∈ groups
  /-- A group that is not pending any more is held. -/
  covered : ∀ group ∈ groups, group ⊆ Held decoder.media ∨
    ∃ f ∈ decoder.fec, ∃ members, Honest ssrc packets f members ∧ {p | p ∈ members} = group

/-- The FEC packets from index `i` on cannot be used now. -/
def BlockedFrom (decoder : FlexFecDecoder) (i : Nat) : Prop :=
  ∀ j, i ≤ j → ∀ f ∈ decoder.fec[j]?, decoder.tryRecover f = .blocked

section Loop

variable {ssrc : Nat} {packets : List Bytes} {given : Set Bytes} {groups : Set (Set Bytes)}
  {decoder : FlexFecDecoder} {media : InsertionMap Nat Bytes}

theorem Inv.retire (inv : Inv ssrc packets given groups decoder)
    {i : Nat} (inside : i < decoder.fec.length)
    (stored : Stored packets media) (sound : ∀ packet ∈ Held media, Peeled given groups packet)
    (grown : Held decoder.media ⊆ Held media)
    (held : ∀ group, Honest ssrc packets decoder.fec[i] group → {p | p ∈ group} ⊆ Held media) :
    Inv ssrc packets given groups { decoder with
      media := media
      fec := decoder.fec.eraseIdx i } where
  stored := stored
  sound := sound
  contains := inv.contains.trans grown
  pending := fun f member => inv.pending f (List.mem_of_mem_eraseIdx member)
  covered := by
    intro group known
    cases inv.covered group known with
    | inl whole => exact .inl (whole.trans grown)
    | inr waiting =>
        obtain ⟨f, member, members, honest, rfl⟩ := waiting
        by_cases gone : f ∈ decoder.fec.eraseIdx i
        · exact .inr ⟨f, gone, members, honest, rfl⟩
        · have same : f = decoder.fec[i] := by
            obtain ⟨j, bound, rfl⟩ := List.mem_iff_getElem.mp member
            by_contra other
            apply gone
            apply List.mem_eraseIdx_iff_getElem.mpr
            refine ⟨j, bound, ?_, rfl⟩
            rintro rfl
            exact other rfl
          exact .inl (held members (same ▸ honest))

theorem Inv.recover (source : Source ssrc packets) (inv : Inv ssrc packets given groups decoder)
    {i : Nat} (inside : i < decoder.fec.length) {packet : Bytes}
    (recovered : decoder.tryRecover decoder.fec[i] = .recovered packet) :
    packet ∈ packets ∧
      Inv ssrc packets given groups
        { decoder with
          media := decoder.media.set (readBE 2 packet 2) packet
          fec := decoder.fec.eraseIdx i } := by
  obtain ⟨group, honest, known⟩ := inv.pending _ (List.getElem_mem inside)
  obtain ⟨_, done⟩ | ⟨missing, left, rebuilt⟩ | ⟨_, waits⟩ :=
    try_recover_spec source inv.stored honest
  · rw [done] at recovered
    cases recovered
  · obtain rfl : missing = packet := by
      rw [rebuilt] at recovered
      exact Attempt.recovered.inj recovered
    obtain ⟨member, _⟩ := (mem_absent source inv.stored honest.members).mp
      (show missing ∈ absent decoder.media group by rw [left]; exact List.mem_singleton.mpr rfl)
    have others : ∀ other ∈ group, other ≠ missing → other ∈ Held decoder.media := by
      intro other inside different
      by_contra notHeld
      have alone := (mem_absent source inv.stored honest.members).mpr ⟨inside, notHeld⟩
      rw [left] at alone
      exact different (List.mem_singleton.mp alone)
    have peeled : Peeled given groups missing :=
      .missing known member fun other inside different =>
        inv.sound other (others other inside different)
    have fromSource := honest.members missing member
    have grown := held_set source inv.stored fromSource
    refine ⟨fromSource, inv.retire inside (stored_set inv.stored fromSource) ?_ ?_ ?_⟩
    · intro packet held
      cases (Set.ext_iff.mp grown packet).mp held with
      | inl same => exact same ▸ peeled
      | inr old => exact inv.sound packet old
    · exact grown ▸ Set.subset_insert _ _
    · intro members honestly other otherMember
      apply (Set.ext_iff.mp grown other).mpr
      by_cases same : other = missing
      · exact .inl same
      · apply Set.mem_insert_of_mem
        exact others other (honestly.unique source honest otherMember) same
  · rw [waits] at recovered
    cases recovered

theorem Inv.satisfied (source : Source ssrc packets) (inv : Inv ssrc packets given groups decoder)
    {i : Nat} (inside : i < decoder.fec.length)
    (done : decoder.tryRecover decoder.fec[i] = .satisfied) :
    Inv ssrc packets given groups { decoder with fec := decoder.fec.eraseIdx i } := by
  apply inv.retire inside inv.stored inv.sound (Set.Subset.refl _)
  intro group honest packet member
  obtain ⟨none, _⟩ | ⟨_, _, rebuilt⟩ | ⟨_, waits⟩ :=
    try_recover_spec source inv.stored honest
  · by_contra notHeld
    have alone := (mem_absent source inv.stored honest.members).mpr ⟨member, notHeld⟩
    rw [none] at alone
    cases alone
  · rw [rebuilt] at done
    cases done
  · rw [waits] at done
    cases done

/-- What the loop leaves: no FEC packet that could be used, and only packets of the source
handed out. -/
structure Settled (ssrc : Nat) (packets : List Bytes) (given : Set Bytes)
    (groups : Set (Set Bytes)) (win count : Nat) (left : FlexFecDecoder × List Bytes) : Prop where
  inv : Inv ssrc packets given groups left.1
  blocked : BlockedFrom left.1 0
  handed : ∀ packet ∈ left.2, packet ∈ packets
  win_eq : left.1.win = win
  fec_length : left.1.fec.length ≤ count

theorem recover_from_spec (source : Source ssrc packets) (i : Nat)
    (inv : Inv ssrc packets given groups decoder) (blocked : BlockedFrom decoder i) :
    Settled ssrc packets given groups decoder.win decoder.fec.length (decoder.recoverFrom i) := by
  fun_induction FlexFecDecoder.recoverFrom decoder i with
  | case1 decoder =>
      exact ⟨inv, blocked, fun packet none => absurd none List.not_mem_nil, rfl, Nat.le_refl _⟩
  | case2 decoder i inside stuck ih =>
      apply ih inv
      intro j bound f member
      rcases Nat.eq_or_lt_of_le bound with same | above
      · subst same
        have found : decoder.fec[i] = f := by
          simpa [List.getElem?_eq_getElem inside] using member
        exact found ▸ stuck
      · exact blocked j above f member
  | case3 decoder i inside done ih =>
      -- The indices past the removed one move down by one.
      have shifted : BlockedFrom { decoder with fec := decoder.fec.eraseIdx i } i := by
        intro j bound f member
        rw [List.getElem?_eraseIdx_of_ge bound] at member
        exact blocked (j + 1) (Nat.succ_le_succ bound) f member
      have settled := ih (inv.satisfied source inside done) shifted
      exact { settled with fec_length := settled.fec_length.trans (List.length_eraseIdx_le ..) }
  | case4 decoder i inside rec recovered later ih =>
      obtain ⟨member, kept⟩ := inv.recover source inside recovered
      have outside : BlockedFrom
          { decoder with
            media := decoder.media.set (readBE 2 rec 2) rec
            fec := decoder.fec.eraseIdx i } (decoder.fec.eraseIdx i).length := by
        intro j bound f member
        rw [List.getElem?_eq_none bound] at member
        cases member
      have settled := ih kept outside
      exact {
        inv := settled.inv
        blocked := settled.blocked
        handed := List.forall_mem_cons.mpr ⟨member, settled.handed⟩
        win_eq := settled.win_eq
        fec_length := settled.fec_length.trans (List.length_eraseIdx_le ..) }
  | case5 decoder i outside ih =>
      apply ih inv
      intro j bound f member
      rcases Nat.eq_or_lt_of_le bound with same | above
      · rw [List.getElem?_eq_none (by omega)] at member
        cases member
      · exact blocked j above f member

theorem try_recover_all_spec (source : Source ssrc packets)
    (inv : Inv ssrc packets given groups decoder) :
    Settled ssrc packets given groups decoder.win decoder.fec.length decoder.tryRecoverAll := by
  apply recover_from_spec source _ inv
  intro j bound f member
  rw [List.getElem?_eq_none bound] at member
  cases member

/-- Once no FEC packet can be used, exactly what can be peeled is held. -/
theorem Inv.held_iff (source : Source ssrc packets) (inv : Inv ssrc packets given groups decoder)
    (blocked : BlockedFrom decoder 0) (packet : Bytes) :
    packet ∈ Held decoder.media ↔ Peeled given groups packet := by
  apply eq_peeled inv.contains inv.sound
  intro group known item inside others
  cases inv.covered group known with
  | inl whole => exact whole inside
  | inr waiting =>
      obtain ⟨f, member, members, honest, rfl⟩ := waiting
      obtain ⟨j, found⟩ := List.mem_iff_getElem?.mp member
      have stuck := blocked j (Nat.zero_le _) f found
      obtain ⟨_, done⟩ | ⟨_, _, rebuilt⟩ | ⟨several, _⟩ :=
        try_recover_spec source inv.stored honest
      · rw [done] at stuck
        cases stuck
      · rw [rebuilt] at stuck
        cases stuck
      · exfalso
        -- Two members are missing, and one of them is not the item.
        have nodup : (absent decoder.media members).Nodup :=
          (List.Nodup.of_map _ honest.distinct).filter _
        have alone : absent decoder.media members ⊆ [item] := by
          intro other missing
          apply List.mem_singleton.mpr
          obtain ⟨otherMember, notHeld⟩ :=
            (mem_absent source inv.stored honest.members).mp missing
          by_contra different
          exact notHeld (others other otherMember different)
        have short : (absent decoder.media members).length ≤ [item].length :=
          (nodup.subperm alone).length_le
        rw [List.length_singleton] at short
        omega

theorem Inv.add_media (source : Source ssrc packets)
    (inv : Inv ssrc packets given groups decoder) {packet : Bytes} (member : packet ∈ packets) :
    Inv ssrc packets (insert packet given) groups
      { decoder with media := decoder.media.set (seqOf packet) packet } where
  stored := stored_set inv.stored member
  sound := by
    rw [held_set source inv.stored member]
    intro other held
    cases held with
    | inl same => exact .given (.inl same)
    | inr old => exact peeled_mono (Set.subset_insert _ _) (Set.Subset.refl _) (inv.sound other old)
  contains := by
    rw [held_set source inv.stored member]
    exact Set.insert_subset_insert inv.contains
  pending := inv.pending
  covered := by
    intro group known
    rw [held_set source inv.stored member]
    apply (inv.covered group known).imp_left
    intro whole
    exact whole.trans (Set.subset_insert _ _)

theorem Inv.add_fec (inv : Inv ssrc packets given groups decoder) {f : Fec} {group : List Bytes}
    (honest : Honest ssrc packets f group) :
    Inv ssrc packets given (insert {p | p ∈ group} groups)
      { decoder with fec := decoder.fec ++ [f] } where
  stored := inv.stored
  sound := fun packet held =>
    peeled_mono (Set.Subset.refl _) (Set.subset_insert _ _) (inv.sound packet held)
  contains := inv.contains
  pending := by
    intro other member
    cases List.mem_append.mp member with
    | inl old =>
        obtain ⟨members, honestly, known⟩ := inv.pending other old
        exact ⟨members, honestly, .inr known⟩
    | inr new =>
        rw [List.mem_singleton.mp new]
        exact ⟨group, honest, .inl rfl⟩
  covered := by
    intro known member
    cases member with
    | inl new =>
        have last := List.mem_append_right decoder.fec (List.mem_singleton.mpr (Eq.refl f))
        exact .inr ⟨f, last, group, honest, new.symm⟩
    | inr old =>
        apply (inv.covered known old).imp_right
        rintro ⟨other, waiting, rest⟩
        exact ⟨other, List.mem_append_left _ waiting, rest⟩

theorem evict_stored (stored : Stored packets media) (room : packets.length ≤ decoder.win) :
    media.evict decoder.win = media := by
  apply InsertionMap.evict_of_le
  have keys : media.entries.map Prod.fst ⊆ packets.map seqOf := by
    intro key member
    obtain ⟨entry, inside, rfl⟩ := List.mem_map.mp member
    obtain ⟨known, same⟩ := stored entry inside
    exact same ▸ List.mem_map_of_mem known
  have fits := (media.nodup.subperm keys).length_le
  rw [List.length_map, List.length_map] at fits
  exact fits.trans room

end Loop

end RtpPacket.FlexFec
