import RtpPacket.Rtcp.WirePacket
import RtpPacket.Retransmit.SenderBuffer

/-!
# Lists of lost packets

An entry is a number and a mask of the sixteen numbers behind it. The builder packs a
sorted list greedily, and the reader lists what the entries say. The reader does not wrap
the numbers of an entry that straddles `65535`, and takes padding for more entries.
-/

namespace RtpPacket.Rtcp

open ByteCodec Checked

set_option autoImplicit false

def maskBits (blp : Nat) : List Nat := (List.range 16).filter blp.testBit

def NackEntry.numbers (entry : NackEntry) : List Nat :=
  entry.pid :: (maskBits entry.blp).map fun bit => entry.pid + bit + 1

def nackFci (entries : List NackEntry) : Bytes :=
  entries.flatMap fun entry => encodeBE 2 entry.pid ++ encodeBE 2 entry.blp

structure NackEntry.InRange (entry : NackEntry) : Prop where
  pid : entry.pid < 0x10000
  blp : entry.blp < 0x10000

theorem nack_fci_length (entries : List NackEntry) :
    (nackFci entries).length = 4 * entries.length := by
  induction entries with
  | nil => rfl
  | cons entry rest ih =>
      rw [nackFci, List.flatMap_cons, ← nackFci]
      simp only [List.length_append, encode_be_length, ih, List.length_cons]
      omega

theorem write_nack_entries_fci {entries : List NackEntry}
    (inRange : ∀ entry ∈ entries, entry.InRange) :
    writeNackEntries entries = .ok (nackFci entries) := by
  induction entries with
  | nil => rfl
  | cons entry rest ih =>
      have here := inRange entry List.mem_cons_self
      have later := ih fun other member => inRange other (List.mem_cons_of_mem _ member)
      rw [writeNackEntries, write_uint16_of_lt here.pid, write_uint16_of_lt here.blp, later]
      rfl

theorem parse_nack_entry {entry : NackEntry} (inRange : entry.InRange) (rest : Bytes) :
    parseNackEntries (encodeBE 2 entry.pid ++ encodeBE 2 entry.blp ++ rest) =
      entry.numbers ++ parseNackEntries rest := by
  have pid : decodeBE (encodeBE 2 entry.pid) = entry.pid := by
    rw [decode_be_encode]
    exact Nat.mod_eq_of_lt inRange.pid
  have blp : decodeBE (encodeBE 2 entry.blp) = entry.blp := by
    rw [decode_be_encode]
    exact Nat.mod_eq_of_lt inRange.blp
  have read : parseNackEntries (encodeBE 2 entry.pid ++ encodeBE 2 entry.blp ++ rest) =
      decodeBE (encodeBE 2 entry.pid) ::
        (maskBits (decodeBE (encodeBE 2 entry.blp))).map
          (fun bit => decodeBE (encodeBE 2 entry.pid) + bit + 1) ++ parseNackEntries rest := rfl
  rw [read, pid, blp]
  rfl

theorem parse_nack_fci {entries : List NackEntry} (inRange : ∀ entry ∈ entries, entry.InRange)
    (rest : Bytes) :
    parseNackEntries (nackFci entries ++ rest) =
      entries.flatMap NackEntry.numbers ++ parseNackEntries rest := by
  induction entries with
  | nil => rfl
  | cons entry later ih =>
      rw [nackFci, List.flatMap_cons, ← nackFci, List.append_assoc,
        parse_nack_entry (inRange entry List.mem_cons_self),
        ih fun other member => inRange other (List.mem_cons_of_mem _ member), List.flatMap_cons,
        List.append_assoc]

theorem mem_mask_bits {blp bit : Nat} : bit ∈ maskBits blp ↔ bit < 16 ∧ blp.testBit bit = true := by
  rw [maskBits, List.mem_filter, List.mem_range]

theorem mem_numbers {entry : NackEntry} {seq : Nat} :
    seq ∈ entry.numbers ↔
      seq = entry.pid ∨ ∃ bit < 16, entry.blp.testBit bit = true ∧ seq = entry.pid + bit + 1 := by
  rw [NackEntry.numbers, List.mem_cons, List.mem_map]
  apply or_congr_right
  constructor
  · intro present
    obtain ⟨bit, member, same⟩ := present
    obtain ⟨small, set⟩ := mem_mask_bits.mp member
    exact ⟨bit, small, set, same.symm⟩
  · intro present
    obtain ⟨bit, small, set, same⟩ := present
    exact ⟨bit, mem_mask_bits.mpr ⟨small, set⟩, same.symm⟩

theorem numbers_near {entry : NackEntry} {seq : Nat} (member : seq ∈ entry.numbers) :
    entry.pid ≤ seq ∧ seq ≤ entry.pid + 16 := by
  cases mem_numbers.mp member with
  | inl first => omega
  | inr behind =>
      obtain ⟨bit, small, _, same⟩ := behind
      omega

theorem numbers_ascending (entry : NackEntry) : entry.numbers.Pairwise (· < ·) := by
  apply List.Pairwise.cons
  · intro seq member
    obtain ⟨bit, _, same⟩ := List.mem_map.mp member
    omega
  · apply List.pairwise_map.mpr
    have bits : (maskBits entry.blp).Pairwise (· < ·) := List.pairwise_lt_range.filter _
    exact bits.imp fun below => by omega

theorem mem_numbers_or {entry : NackEntry} {seq diff : Nat} (positive : 0 < diff)
    (reach : diff ≤ 16) :
    seq ∈ NackEntry.numbers { entry with blp := entry.blp ||| 1 <<< (diff - 1) } ↔
      seq ∈ entry.numbers ∨ seq = entry.pid + diff := by
  have bit (index : Nat) : (entry.blp ||| 1 <<< (diff - 1)).testBit index = true ↔
      entry.blp.testBit index = true ∨ diff - 1 = index := by
    rw [Nat.testBit_or, Bool.or_eq_true, Nat.one_shiftLeft, Nat.testBit_two_pow, decide_eq_true_eq]
  rw [mem_numbers, mem_numbers]
  simp only [bit]
  constructor
  · intro either
    cases either with
    | inl first => exact .inl (.inl first)
    | inr behind =>
        obtain ⟨index, small, set, same⟩ := behind
        cases set with
        | inl before => exact .inl (.inr ⟨index, small, before, same⟩)
        | inr added => exact .inr (by omega)
  · intro either
    cases either with
    | inl before =>
        cases before with
        | inl first => exact .inl first
        | inr behind =>
            obtain ⟨index, small, set, same⟩ := behind
            exact .inr ⟨index, small, .inl set, same⟩
    | inr added => exact .inr ⟨diff - 1, by omega, .inr rfl, by omega⟩

theorem mem_nack_entries_loop (entry : NackEntry) {rest : List Nat}
    (ascending : (entry.pid :: rest).Pairwise (· ≤ ·)) {seq : Nat} :
    seq ∈ (nackEntriesLoop entry rest).flatMap NackEntry.numbers ↔
      seq ∈ entry.numbers ∨ seq ∈ rest := by
  induction rest generalizing entry with
  | nil => simp [nackEntriesLoop]
  | cons next rest ih =>
      obtain ⟨above, later⟩ := List.pairwise_cons.mp ascending
      have ahead := above next List.mem_cons_self
      rw [nackEntriesLoop, List.mem_cons]
      split_ifs with reach
      · have kept : (entry.pid :: rest).Pairwise (· ≤ ·) :=
          ascending.sublist ((List.sublist_cons_self next rest).cons_cons entry.pid)
        dsimp only
        split_ifs with positive
        · rw [ih ⟨entry.pid, entry.blp ||| 1 <<< (next - entry.pid - 1)⟩ kept,
            mem_numbers_or positive reach, Nat.add_sub_cancel' ahead, or_assoc]
        · have same : next = entry.pid := by omega
          have listed : entry.pid ∈ entry.numbers := List.mem_cons_self
          rw [ih ⟨entry.pid, entry.blp⟩ kept, same]
          constructor
          · intro either
            exact either.imp_right .inr
          · intro either
            cases either with
            | inl before => exact .inl before
            | inr behind =>
                cases behind with
                | inl here =>
                    rw [here]
                    exact .inl listed
                | inr further => exact .inr further
      · rw [List.flatMap_cons, List.mem_append, ih { pid := next, blp := 0 } later]
        have alone : seq ∈ NackEntry.numbers { pid := next, blp := 0 } ↔ seq = next := by
          simp [mem_numbers]
        rw [alone]

/-- Each entry starts out of the reach of the one before. -/
theorem nack_entries_loop_apart (entry : NackEntry) {rest : List Nat}
    (ascending : (entry.pid :: rest).Pairwise (· ≤ ·)) :
    (nackEntriesLoop entry rest).Pairwise fun earlier later => earlier.pid + 16 < later.pid := by
  induction rest generalizing entry with
  | nil => exact List.pairwise_singleton _ _
  | cons next rest ih =>
      obtain ⟨above, later⟩ := List.pairwise_cons.mp ascending
      rw [nackEntriesLoop]
      split_ifs with reach
      · exact ih ⟨entry.pid, _⟩
          (ascending.sublist ((List.sublist_cons_self next rest).cons_cons entry.pid))
      · apply List.Pairwise.cons
        · intro made member
          have said : made.pid ∈
              (nackEntriesLoop { pid := next, blp := 0 } rest).flatMap NackEntry.numbers :=
            List.mem_flatMap.mpr ⟨made, member, List.mem_cons_self⟩
          have far : next ≤ made.pid := by
            cases (mem_nack_entries_loop _ later).mp said with
            | inl here => exact (numbers_near here).1
            | inr behind => exact (List.pairwise_cons.mp later).1 made.pid behind
          have ahead := above next List.mem_cons_self
          omega
        · exact ih { pid := next, blp := 0 } later

/-- What the built entries say is the list, in ascending order and without repetition. -/
theorem built_numbers (seqNums : List Nat) :
    ((buildNackEntries seqNums).flatMap NackEntry.numbers).Pairwise (· < ·) ∧
      ∀ seq, seq ∈ (buildNackEntries seqNums).flatMap NackEntry.numbers ↔ seq ∈ seqNums := by
  have ascending := List.pairwise_insertionSort (· ≤ ·) seqNums
  have members (seq : Nat) : seq ∈ seqNums.insertionSort (· ≤ ·) ↔ seq ∈ seqNums :=
    List.mem_insertionSort _
  unfold buildNackEntries
  cases sorted : seqNums.insertionSort (· ≤ ·) with
  | nil =>
      rw [sorted] at members
      exact ⟨.nil, members⟩
  | cons pid rest =>
      rw [sorted] at ascending members
      constructor
      · apply List.pairwise_flatMap.mpr
        refine ⟨fun entry _ => numbers_ascending entry, ?_⟩
        apply (nack_entries_loop_apart { pid := pid, blp := 0 } ascending).imp
        intro earlier later apart seq member other otherMember
        have first := (numbers_near member).2
        have second := (numbers_near otherMember).1
        omega
      · intro seq
        rw [mem_nack_entries_loop { pid := pid, blp := 0 } ascending, ← members, List.mem_cons]
        simp [mem_numbers]

theorem built_entries_in_range {seqNums : List Nat} (bounded : ∀ seq ∈ seqNums, seq < 0x10000) :
    ∀ entry ∈ buildNackEntries seqNums, entry.InRange := by
  intro entry member
  obtain ⟨pid, blp⟩ := (build_nack_entries_bounds bounded).1 entry member
  exact ⟨pid, blp⟩

theorem build_nack_packet (senderSsrc mediaSsrc : Nat) {seqNums : List Nat}
    (nonempty : seqNums ≠ []) (bounded : ∀ seq ∈ seqNums, seq < 0x10000) :
    buildNACK senderSsrc mediaSsrc seqNums = .ok (some (wirePacket 205 1
      (encodeBE 4 senderSsrc ++ encodeBE 4 mediaSsrc ++ nackFci (buildNackEntries seqNums))
      none)) := by
  have count := (build_nack_entries_bounds bounded).2
  have written := write_nack_entries_fci (built_entries_in_range bounded)
  have words : (encodeBE 4 senderSsrc ++ encodeBE 4 mediaSsrc ++
      nackFci (buildNackEntries seqNums) ++ paddingBytes none).length / 4 =
      2 + (buildNackEntries seqNums).length := by
    simp only [List.length_append, encode_be_length, nack_fci_length, paddingBytes,
      Option.map_none, Option.getD_none, List.length_nil]
    omega
  rw [buildNACK, if_neg nonempty]
  dsimp only
  rw [write_uint16_of_lt (show 2 + (buildNackEntries seqNums).length < 0x10000 by omega), written,
    wirePacket, words]
  change Except.ok _ = _
  rw [paddingBytes, Option.map_none, Option.getD_none, List.append_nil]
  rfl

theorem parse_body_nack {buf : Bytes} (long : 16 ≤ buf.length) :
    parseBody buf 205 1 =
      .nack (readBE 4 buf 4) (readBE 4 buf 8) (parseNackEntries (buf.drop 12)) := by
  simp [parseBody, long]

theorem parse_nack_packet (senderSsrc mediaSsrc : Nat) {fci : Bytes} (long : 4 ≤ fci.length)
    (padding : Option Padding) :
    ∃ parsed, parseRTCP (wirePacket 205 1 (encodeBE 4 senderSsrc ++ encodeBE 4 mediaSsrc ++ fci)
        padding) = some parsed ∧
      parsed.body = .nack (senderSsrc % 2 ^ 32) (mediaSsrc % 2 ^ 32)
        (parseNackEntries (fci ++ paddingBytes padding)) := by
  refine ⟨_, parse_wire_packet _ _ _ _, ?_⟩
  obtain ⟨buf, packet⟩ : ∃ buf, wirePacket 205 1
    (encodeBE 4 senderSsrc ++ encodeBE 4 mediaSsrc ++ fci) padding = buf := ⟨_, rfl⟩
  have length : 16 ≤ buf.length := by
    rw [← packet, wire_packet_length]
    simp only [List.length_append, encode_be_length]
    omega
  have sender : readBE 4 buf 4 = senderSsrc % 2 ^ 32 := by
    rw [← packet]
    apply (read_wire_body _ _ _ _ 4 0).trans
    rw [List.append_assoc, List.append_assoc, read_be_encode]
    norm_num
  have media : readBE 4 buf 8 = mediaSsrc % 2 ^ 32 := by
    rw [← packet]
    apply (read_wire_body _ _ _ _ 4 4).trans
    rw [List.append_assoc, List.append_assoc, read_be_skip 4 4 _ _ 0, read_be_encode]
    norm_num
  have behind : buf.drop 12 = fci ++ paddingBytes padding := by
    rw [← packet]
    apply (drop_wire_header _ _ _ _ 8).trans
    rw [List.append_assoc]
    exact List.drop_left' (by simp)
  rw [packet]
  exact (parse_body_nack length).trans (by rw [sender, media, behind])

/-- Whatever list is asked for, in any order and with any repetitions, arrives as a set. -/
theorem nack_round_trip (senderSsrc mediaSsrc : Nat) {seqNums : List Nat}
    (nonempty : seqNums ≠ []) (bounded : ∀ seq ∈ seqNums, seq < 0x10000) :
    ∃ packet, buildNACK senderSsrc mediaSsrc seqNums = .ok (some packet) ∧
      ∃ parsed lost, parseRTCP packet = some parsed ∧
        parsed.body = .nack (senderSsrc % 2 ^ 32) (mediaSsrc % 2 ^ 32) lost ∧
        lost.Nodup ∧ ∀ seq, seq ∈ lost ↔ seq ∈ seqNums := by
  obtain ⟨ascending, members⟩ := built_numbers seqNums
  have inRange := built_entries_in_range bounded
  have made : buildNackEntries seqNums ≠ [] := by
    intro none
    obtain ⟨seq, asked⟩ := List.exists_mem_of_ne_nil _ nonempty
    have listed := (members seq).mpr asked
    rw [none] at listed
    cases listed
  have long : 4 ≤ (nackFci (buildNackEntries seqNums)).length := by
    have positive := List.length_pos_iff.mpr made
    rw [nack_fci_length]
    omega
  obtain ⟨parsed, parses, body⟩ := parse_nack_packet senderSsrc mediaSsrc long none
  refine ⟨_, build_nack_packet senderSsrc mediaSsrc nonempty bounded, parsed, _, parses, body, ?_⟩
  have read : parseNackEntries (nackFci (buildNackEntries seqNums) ++ paddingBytes none) =
      (buildNackEntries seqNums).flatMap NackEntry.numbers := by
    rw [parse_nack_fci inRange]
    exact List.append_nil _
  rw [read]
  exact ⟨ascending.imp fun below => Nat.ne_of_lt below, members⟩

/-- A number seventeen and one sixteen behind another, and a repeated one. -/
theorem nack_round_trip_window :
    ∃ packet, buildNACK 1 2 [65535, 100, 117, 116, 100] = .ok (some packet) ∧
      ∃ parsed lost, parseRTCP packet = some parsed ∧ parsed.body = .nack 1 2 lost ∧
        lost.Nodup ∧ ∀ seq, seq ∈ lost ↔ seq ∈ [65535, 100, 117, 116, 100] :=
  nack_round_trip 1 2 (by decide) (by decide)

/-- A Generic NACK with its entries as they are, packed by whatever rule. -/
structure WireNack where
  senderSsrc : Fin (2 ^ 32)
  mediaSsrc : Fin (2 ^ 32)
  entries : List NackEntry
  nonempty : entries ≠ []
  inRange : ∀ entry ∈ entries, entry.InRange
  padding : Option Padding
  fits : 2 + entries.length + (paddingBytes padding).length / 4 < 0x10000

/-- A number that finds the packet stored under it. -/
def Retrievable (seq : Nat) : Prop :=
  seq < 0x10000 ∧ ∀ (buffer : Retransmit.SenderBuffer) (packet : Bytes), 12 ≤ packet.length →
    Srtp.seqOf packet = seq → (buffer.store packet).get (Srtp.ssrcOf packet) seq = some packet

theorem retrievable_of_lt {seq : Nat} (small : seq < 0x10000) : Retrievable seq := by
  refine ⟨small, ?_⟩
  intro buffer packet long stored
  have short : ¬ packet.length < 12 := Nat.not_lt_of_le long
  rw [Retransmit.SenderBuffer.store, if_neg short]
  simp [Retransmit.SenderBuffer.get, stored]

namespace WireNack

-- Named instances: the literals below then share no proof with another module.
local instance countNonzero : NeZero 32 := ⟨by decide⟩

local instance wordNonzero : NeZero (2 ^ 32) := ⟨by decide⟩

def bytes (nack : WireNack) : Bytes :=
  wirePacket 205 1 (encodeBE 4 nack.senderSsrc ++ encodeBE 4 nack.mediaSsrc ++
    nackFci nack.entries) nack.padding

/-- The numbers that an entry stands for, in the cycle of sequence numbers. -/
def entryLost (entry : NackEntry) : List Nat :=
  entry.pid :: (maskBits entry.blp).map fun bit => (entry.pid + bit + 1) % 0x10000

def lost (nack : WireNack) : List Nat := nack.entries.flatMap entryLost

def ReportsLosses (nack : WireNack) : Prop :=
  ∃ parsed, parseRTCP nack.bytes = some parsed ∧
    parsed.body = .nack nack.senderSsrc nack.mediaSsrc nack.lost ∧
    ∀ seq ∈ nack.lost, Retrievable seq

theorem lost_small {nack : WireNack} {seq : Nat} (member : seq ∈ nack.lost) : seq < 0x10000 := by
  obtain ⟨entry, entryMember, listed⟩ := List.mem_flatMap.mp member
  cases List.mem_cons.mp listed with
  | inl first => exact first ▸ (nack.inRange entry entryMember).pid
  | inr behind =>
      obtain ⟨bit, _, same⟩ := List.mem_map.mp behind
      omega

theorem lost_length (nack : WireNack) :
    nack.lost.length = (nack.entries.flatMap NackEntry.numbers).length := by
  rw [lost, List.length_flatMap, List.length_flatMap]
  simp only [entryLost, NackEntry.numbers, List.length_cons, List.length_map]

theorem parse_bytes (nack : WireNack) :
    ∃ parsed, parseRTCP nack.bytes = some parsed ∧
      parsed.body = .nack nack.senderSsrc nack.mediaSsrc
        (nack.entries.flatMap NackEntry.numbers ++
          parseNackEntries (paddingBytes nack.padding)) := by
  have positive := List.length_pos_iff.mpr nack.nonempty
  have long : 4 ≤ (nackFci nack.entries).length := by
    rw [nack_fci_length]
    omega
  obtain ⟨parsed, parses, body⟩ :=
    parse_nack_packet nack.senderSsrc nack.mediaSsrc long nack.padding
  refine ⟨parsed, parses, ?_⟩
  rw [body, parse_nack_fci nack.inRange, Nat.mod_eq_of_lt nack.senderSsrc.isLt,
    Nat.mod_eq_of_lt nack.mediaSsrc.isLt]

theorem parse_padding_ne_nil (padding : Padding) : parseNackEntries padding.bytes ≠ [] := by
  have length := padding.bytes_length
  have words := padding.words
  match bytes : padding.bytes with
  | [] | [_] | [_, _] | [_, _, _] =>
      rw [bytes] at length
      simp only [List.length_cons, List.length_nil] at length
      omega
  | _ :: _ :: _ :: _ :: _ => exact List.cons_ne_nil _ _

theorem lost_eq_numbers_iff (nack : WireNack) :
    nack.entries.flatMap NackEntry.numbers = nack.lost ↔
      ∀ entry ∈ nack.entries, ∀ bit ∈ maskBits entry.blp, entry.pid + bit + 1 < 0x10000 := by
  constructor
  · intro same entry member bit set
    apply nack.lost_small
    rw [← same]
    exact List.mem_flatMap.mpr ⟨entry, member,
      List.mem_cons_of_mem _ (List.mem_map.mpr ⟨bit, set, rfl⟩)⟩
  · intro small
    apply List.flatMap_congr
    intro entry member
    rw [NackEntry.numbers, entryLost]
    apply congrArg (entry.pid :: ·)
    apply List.map_congr_left
    intro bit set
    exact (Nat.mod_eq_of_lt (small entry member bit set)).symm

/-- The losses come out as they were meant exactly when no entry straddles the wrap and
the packet is not padded. -/
theorem reports_losses_iff (nack : WireNack) :
    nack.ReportsLosses ↔
      nack.padding = none ∧
        ∀ entry ∈ nack.entries, ∀ bit ∈ maskBits entry.blp, entry.pid + bit + 1 < 0x10000 := by
  obtain ⟨parsed, parses, body⟩ := nack.parse_bytes
  rw [← nack.lost_eq_numbers_iff]
  constructor
  · intro reports
    obtain ⟨other, otherParses, otherBody, _⟩ := reports
    have one : parsed = other := Option.some.inj (parses.symm.trans otherParses)
    rw [← one, body] at otherBody
    injection otherBody with _ _ listed
    have length := congrArg List.length listed
    rw [List.length_append, nack.lost_length] at length
    have nothing : parseNackEntries (paddingBytes nack.padding) = [] :=
      List.length_eq_zero_iff.mp (by omega)
    constructor
    · cases present : nack.padding with
      | none => rfl
      | some padding =>
          rw [present] at nothing
          exact absurd nothing (parse_padding_ne_nil padding)
    · rwa [nothing, List.append_nil] at listed
  · intro both
    obtain ⟨bare, same⟩ := both
    refine ⟨parsed, parses, ?_, fun seq member => retrievable_of_lt (nack.lost_small member)⟩
    rw [body, bare, same]
    exact congrArg _ (List.append_nil _)

def straddling : WireNack where
  senderSsrc := 1
  mediaSsrc := 2
  entries := [⟨65535, 1⟩]
  nonempty := by decide
  inRange := by
    intro entry member
    rw [List.mem_singleton.mp member]
    exact ⟨by decide, by decide⟩
  padding := none
  fits := by decide

def padded : WireNack where
  senderSsrc := 1
  mediaSsrc := 2
  entries := [⟨7, 0⟩]
  nonempty := by decide
  inRange := by
    intro entry member
    rw [List.mem_singleton.mp member]
    exact ⟨by decide, by decide⟩
  padding := some ⟨[0, 0, 0], by decide, by decide⟩
  fits := by decide

theorem losses_misreported :
    (parseRTCP straddling.bytes).map (·.body) = some (.nack 1 2 [65535, 65536]) ∧
      straddling.lost = [65535, 0] ∧ ¬ straddling.ReportsLosses ∧
      (parseRTCP padded.bytes).map (·.body) = some (.nack 1 2 [7, 0, 3]) ∧
      padded.lost = [7] ∧ ¬ padded.ReportsLosses := by
  have wrapped : (parseRTCP straddling.bytes).map (·.body) = some (.nack 1 2 [65535, 65536]) := by
    decide +kernel
  have filled : (parseRTCP padded.bytes).map (·.body) = some (.nack 1 2 [7, 0, 3]) := by
    decide +kernel
  refine ⟨wrapped, by decide, ?_, filled, by decide, ?_⟩
  · intro reports
    obtain ⟨parsed, parses, body, _⟩ := reports
    rw [parses, Option.map_some, body] at wrapped
    exact absurd wrapped (by decide)
  · intro reports
    obtain ⟨parsed, parses, body, _⟩ := reports
    rw [parses, Option.map_some, body] at filled
    exact absurd filled (by decide)

end WireNack

end RtpPacket.Rtcp
