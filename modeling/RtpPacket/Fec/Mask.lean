import Mathlib.Data.Nat.Bitwise
import RtpPacket.Fec.FlexFec

/-!
# What a FEC packet says

Parsing a FEC packet gives the parity of its group back, and lists the members within
the reach of the mask.
-/

namespace RtpPacket.FlexFec

open ByteCodec Parity Run Word

set_option autoImplicit false

theorem test_bit_fold (bit : Nat → Bool) (place : Nat → Nat) (indices : List Nat) (word k : Nat) :
    (indices.foldl (fun v i => v ||| (bit i).toNat <<< place i) word).testBit k =
      (word.testBit k || indices.any fun i => bit i && decide (place i = k)) := by
  induction indices generalizing word with
  | nil => simp
  | cons i rest ih =>
      have one : ((bit i).toNat <<< place i).testBit k = (bit i && decide (place i = k)) := by
        cases bit i with
        | false => simp
        | true => rw [Bool.toNat_true, Nat.one_shiftLeft, Nat.testBit_two_pow, Bool.true_and]
      rw [List.foldl_cons, ih, Nat.testBit_or, one, List.any_cons, Bool.or_assoc]

theorem test_bit_or_bits (bit : Nat → Bool) (start word : Nat) {count i : Nat}
    (inside : i < count) :
    (orBits bit start count word).testBit (count - 1 - i) =
      (word.testBit (count - 1 - i) || bit (start + i)) := by
  rw [orBits, test_bit_fold (fun i => bit (start + i))]
  congr 1
  rw [Bool.eq_iff_iff, List.any_eq_true]
  constructor
  · rintro ⟨j, member, found⟩
    rw [Bool.and_eq_true, decide_eq_true_iff] at found
    have bound := List.mem_range.mp member
    have same : j = i := by omega
    exact same ▸ found.1
  · intro set
    exact ⟨i, List.mem_range.mpr inside, by rw [set]; simp⟩

theorem test_bit_or_bits_above (bit : Nat → Bool) (start word : Nat) {count k : Nat}
    (above : count ≤ k) : (orBits bit start count word).testBit k = word.testBit k := by
  rw [orBits, test_bit_fold (fun i => bit (start + i)), Bool.or_eq_left_iff_imp, List.any_eq_true]
  rintro ⟨j, member, found⟩
  rw [Bool.and_eq_true, decide_eq_true_iff] at found
  have bound := List.mem_range.mp member
  omega

theorem or_bits_lt (bit : Nat → Bool) (start : Nat) {count word width : Nat}
    (small : word < 2 ^ width) (fits : count ≤ width) :
    orBits bit start count word < 2 ^ width := by
  apply Nat.lt_pow_two_of_testBit
  intro k beyond
  rw [test_bit_or_bits_above bit start word (fits.trans beyond)]
  exact Nat.testBit_lt_two_pow (small.trans_le (Nat.pow_le_pow_right (by decide) beyond))

theorem and_bit_ne_zero (word n : Nat) : word &&& 1 <<< n ≠ 0 ↔ word.testBit n = true := by
  rw [Nat.one_shiftLeft, Nat.and_two_pow]
  cases word.testBit n <;> simp

theorem and_bit_eq_zero (word n : Nat) : word &&& 1 <<< n = 0 ↔ word.testBit n = false := by
  rw [← Bool.not_eq_true, ← and_bit_ne_zero, not_not]

theorem set_bits_or_bits (bit : Nat → Bool) (start : Nat) {count word : Nat}
    (clear : ∀ k < count, word.testBit k = false) :
    setBits (count - 1) count (orBits bit start count word) =
      (List.range count).filter fun i => bit (start + i) := by
  apply List.filter_congr
  intro i member
  have inside := List.mem_range.mp member
  rw [Bool.eq_iff_iff, decide_eq_true_iff, and_bit_ne_zero, test_bit_or_bits bit start word inside,
    clear _ (by omega), Bool.false_or]

/-- The last chunk keeps its lowest bit free. -/
theorem set_bits_shifted (bit : Nat → Bool) (start count : Nat) :
    setBits count count (orBits bit start count 0 <<< 1) =
      (List.range count).filter fun i => bit (start + i) := by
  apply List.filter_congr
  intro i member
  have inside := List.mem_range.mp member
  have lowered : count - i - 1 = count - 1 - i := by omega
  rw [Bool.eq_iff_iff, decide_eq_true_iff, and_bit_ne_zero, Nat.testBit_shiftLeft, lowered,
    test_bit_or_bits bit start 0 inside, Nat.zero_testBit, Bool.false_or]
  simp
  omega

theorem filter_range_add (bit : Nat → Bool) (first second : Nat) :
    (List.range (first + second)).filter bit =
      (List.range first).filter bit ++
        ((List.range second).filter fun i => bit (first + i)).map (first + ·) := by
  rw [List.range_add, List.filter_append, List.filter_map]
  rfl

structure Recovery.InRange (recovery : Recovery) : Prop where
  xb0 : recovery.xb0 < 2 ^ 6
  xb1 : recovery.xb1 < 2 ^ 8
  xts : recovery.xts < 2 ^ 32

theorem mix_in_range {recovery : Recovery} (inRange : recovery.InRange) (b : Bytes) :
    (recovery.mix b).InRange where
  xb0 := Nat.xor_lt_two_pow inRange.xb0 (Nat.lt_of_le_of_lt Nat.and_le_right (by decide))
  xb1 := Nat.xor_lt_two_pow inRange.xb1 (UInt8.toNat_lt _)
  xts := by
    apply Nat.xor_lt_two_pow inRange.xts
    have bounded := decode_be_lt ((b.drop 4).take 4)
    have short : ((b.drop 4).take 4).length ≤ 4 := List.length_take_le _ _
    exact bounded.trans_le ((Nat.pow_le_pow_right (by decide) short).trans (by decide))

theorem parity_in_range (group : List Member) : (parity group).InRange := by
  have folded (members : List Member) {start : Recovery} (inRange : start.InRange) :
      (members.foldl (fun acc m => acc.mix m.buf) start).InRange := by
    induction members generalizing start with
    | nil => exact inRange
    | cons m rest ih => exact ih (mix_in_range inRange m.buf)
  exact folded group ⟨Nat.two_pow_pos 6, Nat.two_pow_pos 8, Nat.two_pow_pos 32⟩

theorem le_fold_max {Item : Type*} (size : Item → Nat) (items : List Item) (start : Nat) :
    start ≤ items.foldl (fun largest item => max largest (size item)) start ∧
      ∀ item ∈ items,
        size item ≤ items.foldl (fun largest item => max largest (size item)) start := by
  induction items generalizing start with
  | nil => simp
  | cons first rest ih =>
      obtain ⟨least, each⟩ := ih (max start (size first))
      rw [List.foldl_cons]
      apply And.intro
      · exact (Nat.le_max_left _ _).trans least
      · intro item member
        cases List.mem_cons.mp member with
        | inl here =>
            rw [here]
            exact (Nat.le_max_right _ _).trans least
        | inr later => exact each item later

theorem offset_lt_mask_bits {spread : List Nat} {d : Nat} (member : d ∈ spread) :
    d < maskBits spread :=
  (le_fold_max (· + 1) spread 0).2 d member

theorem le_max_len {group : List Member} {m : Member} (member : m ∈ group) :
    m.buf.length - fixedHdr ≤ maxLen group :=
  (le_fold_max (fun m : Member => m.buf.length - fixedHdr) group 0).2 m member

def listed (bit : Nat → Bool) (count : Nat) : List Nat := (List.range count).filter bit

theorem listed_mask_bit {spread : List Nat} {count : Nat} (covers : ∀ d ∈ spread, d < count)
    (within : count ≤ 109) :
    listed (maskBit spread) count = listed (maskBit spread) 109 := by
  obtain ⟨more, sum⟩ := Nat.exists_eq_add_of_le within
  have none : (List.range more).filter (fun i => maskBit spread (count + i)) = [] := by
    apply List.filter_eq_nil_iff.mpr
    intro i _ set
    have inside := of_decide_eq_true (Bool.and_eq_true_iff.mp set).2
    have bound := covers _ inside
    omega
  rw [sum, listed, listed, filter_range_add, none, List.map_nil, List.append_nil]

def maskCount (maskBits : Nat) : Nat :=
  if maskBits ≤ 15 then 15 else if maskBits ≤ 46 then 46 else 109

theorem listed_mask_count (spread : List Nat) :
    listed (maskBit spread) (maskCount (maskBits spread)) = listed (maskBit spread) 109 := by
  rw [maskCount]
  split_ifs with small medium
  · exact listed_mask_bit (fun d member => (offset_lt_mask_bits member).trans_le small) (by decide)
  · exact listed_mask_bit (fun d member => (offset_lt_mask_bits member).trans_le medium)
      (by decide)
  · rfl

theorem read_chunk {width : Nat} {p head rest : Bytes} {word : Nat}
    (shape : p = head ++ (encodeBE width word ++ rest)) (small : word < 256 ^ width) :
    readBE width p head.length = word := by
  have read := read_be_append_right width head (encodeBE width word ++ rest) 0
  rw [Nat.add_zero, read_be_encode, Nat.mod_eq_of_lt small] at read
  rw [shape, read]

section Chunks

variable {header p head repair : Bytes} {bit : Nat → Bool}

theorem first_chunk_lt (bit : Nat → Bool) {flag : Nat} (small : flag < 2 ^ 16) :
    orBits bit 0 15 flag < 256 ^ 2 :=
  or_bits_lt bit 0 small (by decide)

theorem second_chunk_lt (bit : Nat → Bool) {flag : Nat} (small : flag < 2 ^ 32) :
    orBits bit 15 31 flag < 256 ^ 4 :=
  or_bits_lt bit 15 small (by decide)

theorem first_chunk_bits (bit : Nat → Bool) {flag : Nat} (flags : flag = 0 ∨ flag = 0x8000) :
    setBits 14 15 (orBits bit 0 15 flag) = listed bit 15 ∧
      (orBits bit 0 15 flag &&& 0x8000 = 0 ↔ flag = 0) := by
  have above := test_bit_or_bits_above bit 0 flag (Nat.le_refl 15)
  have clear : ∀ k < 15, flag.testBit k = false := by
    cases flags with
    | inl none => rw [none]; decide
    | inr more => rw [more]; decide
  constructor
  · have read := set_bits_or_bits bit 0 clear
    simp only [Nat.zero_add] at read
    exact read
  · have flagBit := and_bit_eq_zero (orBits bit 0 15 flag) 15
    rw [above] at flagBit
    rw [show 0x8000 = 1 <<< 15 from rfl, flagBit]
    cases flags with
    | inl none => rw [none]; decide
    | inr more => rw [more]; decide

theorem second_chunk_bits (bit : Nat → Bool) {flag : Nat}
    (flags : flag = 0 ∨ flag = 0x80000000) :
    (setBits 30 31 (orBits bit 15 31 flag)).map (15 + ·) =
        ((List.range 31).filter fun i => bit (15 + i)).map (15 + ·) ∧
      (orBits bit 15 31 flag &&& 0x80000000 = 0 ↔ flag = 0) := by
  have above := test_bit_or_bits_above bit 15 flag (Nat.le_refl 31)
  have clear : ∀ k < 31, flag.testBit k = false := by
    cases flags with
    | inl none => rw [none]; decide
    | inr more => rw [more]; decide
  constructor
  · rw [set_bits_or_bits bit 15 clear]
  · have flagBit := and_bit_eq_zero (orBits bit 15 31 flag) 31
    rw [above] at flagBit
    rw [show 0x80000000 = 1 <<< 31 from rfl, flagBit]
    cases flags with
    | inl none => rw [none]; decide
    | inr more => rw [more]; decide

theorem parse_fec_chunks (headerLength : header.length = fixedHdr) {maskBits : Nat}
    (shape : p = head ++ (maskChunks bit (maskBytesFor maskBits) ++ repair))
    (headLength : head.length = 18) (reserved : (p.getD 0 0).toNat &&& 0xC0 = 0)
    (single : (p.getD 8 0).toNat = 1) :
    parseFec (header ++ p) =
      finishFec p (listed bit (maskCount maskBits)) (18 + maskBytesFor maskBits) := by
  have payload : (header ++ p).drop fixedHdr = p := List.drop_left' headerLength
  have pLength : p.length = 18 + (maskChunks bit (maskBytesFor maskBits)).length +
      repair.length := by
    rw [shape, List.length_append, List.length_append, headLength, Nat.add_assoc]
  have whole : (header ++ p).length = fixedHdr + p.length := by
    rw [List.length_append, headerLength]
  by_cases small : maskBits ≤ 15
  · have bytes : maskBytesFor maskBits = 2 := if_pos small
    have count : maskCount maskBits = 15 := if_pos small
    rw [bytes] at shape pLength ⊢
    rw [maskChunks, if_pos rfl, encode_be_length] at pLength
    rw [maskChunks, if_pos rfl] at shape
    obtain ⟨bits, flag⟩ := first_chunk_bits bit (.inl rfl)
    have c1 := headLength ▸ read_chunk shape (first_chunk_lt bit (by decide))
    rw [parseFec, if_neg (by omega), payload, count]
    simp only [reserved, single, ne_eq, not_true_eq_false, if_false, c1, bits, flag.mpr rfl,
      if_true]
    rw [if_neg (by omega)]
  · by_cases medium : maskBits ≤ 46
    · have bytes : maskBytesFor maskBits = 6 := by rw [maskBytesFor, if_neg small, if_pos medium]
      have count : maskCount maskBits = 46 := by rw [maskCount, if_neg small, if_pos medium]
      rw [bytes] at shape pLength ⊢
      rw [maskChunks, if_neg (by decide), if_pos rfl, List.length_append, encode_be_length,
        encode_be_length] at pLength
      rw [maskChunks, if_neg (by decide), if_pos rfl, List.append_assoc] at shape
      obtain ⟨bits, flag⟩ := first_chunk_bits bit (.inr rfl)
      obtain ⟨moreBits, moreFlag⟩ := second_chunk_bits bit (.inl rfl)
      have c1 := headLength ▸ read_chunk shape (first_chunk_lt bit (by decide))
      have c2 : readBE 4 p 20 = orBits bit 15 31 0 := by
        have read := read_chunk (shape.trans (List.append_assoc _ _ _).symm)
          (second_chunk_lt bit (by decide))
        rwa [List.length_append, headLength, encode_be_length] at read
      have listing : listed bit 46 = listed bit 15 ++
          ((List.range 31).filter fun i => bit (15 + i)).map (15 + ·) :=
        filter_range_add bit 15 31
      rw [parseFec, if_neg (by omega), payload, count, listing]
      simp only [reserved, single, ne_eq, not_true_eq_false, if_false, c1, bits, flag, c2, moreBits,
        moreFlag.mpr rfl, if_true]
      rw [if_neg (by omega), if_neg (by decide), if_neg (by omega)]
    · have bytes : maskBytesFor maskBits = 14 := by
        rw [maskBytesFor, if_neg small, if_neg medium]
      have count : maskCount maskBits = 109 := by rw [maskCount, if_neg small, if_neg medium]
      rw [bytes] at shape pLength ⊢
      rw [maskChunks, if_neg (by decide), if_neg (by decide)] at shape pLength
      simp only [List.length_append, encode_be_length] at pLength
      simp only [List.append_assoc] at shape
      obtain ⟨bits, flag⟩ := first_chunk_bits bit (.inr rfl)
      obtain ⟨moreBits, moreFlag⟩ := second_chunk_bits bit (.inr rfl)
      have hiBits := @set_bits_or_bits bit 46 32 0 (by simp)
      have loBits := set_bits_shifted bit 78 31
      have hiSmall : orBits bit 46 32 0 < 256 ^ 4 := or_bits_lt bit 46 (by decide) (Nat.le_refl 32)
      have loSmall : orBits bit 78 31 0 <<< 1 < 256 ^ 4 := by
        have low : orBits bit 78 31 0 < 2 ^ 31 := or_bits_lt bit 78 (by decide) (Nat.le_refl 31)
        rw [Nat.shiftLeft_eq]
        omega
      have c1 := headLength ▸ read_chunk shape (first_chunk_lt bit (by decide))
      have second := shape.trans (List.append_assoc _ _ _).symm
      have third := second.trans (List.append_assoc _ _ _).symm
      have fourth := third.trans (List.append_assoc _ _ _).symm
      have c2 := read_chunk second (second_chunk_lt bit (by decide))
      have hi := read_chunk third hiSmall
      have lo := read_chunk fourth loSmall
      simp only [List.length_append, headLength, encode_be_length] at c2 hi lo
      have listing : listed bit 109 = listed bit 15 ++
          ((List.range 31).filter fun i => bit (15 + i)).map (15 + ·) ++
          ((List.range 32).filter fun i => bit (46 + i)).map (46 + ·) ++
          ((List.range 31).filter fun i => bit (78 + i)).map (78 + ·) := by
        rw [listed, filter_range_add bit 78 31, filter_range_add bit 46 32,
          filter_range_add bit 15 31]
        rfl
      rw [parseFec, if_neg (by omega), payload, count, listing]
      simp only [reserved, single, ne_eq, not_true_eq_false, if_false, c1, bits, flag, c2, moreBits,
        moreFlag, hi, lo, hiBits, loBits]
      rw [if_neg (by omega), if_neg (by decide), if_neg (by omega), if_neg (by decide),
        if_neg (by omega)]

end Chunks

def fixedFields (recovery : Recovery) (protectedSsrc snBase : Nat) : Bytes :=
  [byteAt (recovery.xb0 &&& 0x3F) 0, byteAt recovery.xb1 0] ++
    encodeBE 2 (recovery.xlen &&& 0xFFFF) ++ encodeBE 4 recovery.xts ++ [1, 0, 0, 0] ++
    encodeBE 4 protectedSsrc ++ encodeBE 2 snBase

theorem finish_fec_fields {recovery : Recovery} (inRange : recovery.InRange)
    {protectedSsrc snBase : Nat} (ssrcSmall : protectedSsrc < 2 ^ 32) (snSmall : snBase < 2 ^ 16)
    {chunks : Bytes} {spread : List Nat} (some : spread ≠ []) :
    finishFec (fixedFields recovery protectedSsrc snBase ++ (chunks ++ recovery.repair)) spread
        (18 + chunks.length) =
      .some
        { recovery with
          xlen := recovery.xlen % 0x10000
          ssrc := protectedSsrc
          snBase := snBase
          seqs := spread.map fun i => (snBase + i) % 0x10000 } := by
  have xb0 : recovery.xb0 &&& 0x3F = recovery.xb0 := by
    rw [Nat.and_two_pow_sub_one_eq_mod _ 6, Nat.mod_eq_of_lt inRange.xb0]
  have xlen : recovery.xlen &&& 0xFFFF = recovery.xlen % 0x10000 :=
    Nat.and_two_pow_sub_one_eq_mod _ 16
  have drop : (fixedFields recovery protectedSsrc snBase ++ (chunks ++ recovery.repair)).drop
      (18 + chunks.length) = recovery.repair := by
    rw [← List.append_assoc]
    apply List.drop_left'
    rw [List.length_append]
    rfl
  have field (width value : Nat) (small : value < 256 ^ width) :
      decodeBE (encodeBE width value) = value := by
    rw [decode_be_encode, Nat.mod_eq_of_lt small]
  have readXlen : readBE 2 (fixedFields recovery protectedSsrc snBase ++
      (chunks ++ recovery.repair)) 2 = recovery.xlen % 0x10000 := by
    rw [← xlen]
    exact field 2 _ (Nat.lt_of_le_of_lt Nat.and_le_right (by decide))
  have readXts : readBE 4 (fixedFields recovery protectedSsrc snBase ++
      (chunks ++ recovery.repair)) 4 = recovery.xts := field 4 _ inRange.xts
  have readSsrc : readBE 4 (fixedFields recovery protectedSsrc snBase ++
      (chunks ++ recovery.repair)) 12 = protectedSsrc := field 4 _ ssrcSmall
  have readBase : readBE 2 (fixedFields recovery protectedSsrc snBase ++
      (chunks ++ recovery.repair)) 16 = snBase := field 2 _ snSmall
  have readXb0 : ((fixedFields recovery protectedSsrc snBase ++
      (chunks ++ recovery.repair)).getD 0 0).toNat &&& 0x3F = recovery.xb0 := by
    have low : ((fixedFields recovery protectedSsrc snBase ++
        (chunks ++ recovery.repair)).getD 0 0).toNat = recovery.xb0 % 256 := by
      rw [← xb0]
      exact byte_at_low _
    rw [low, Nat.mod_eq_of_lt (inRange.xb0.trans (by decide)), xb0]
  have readXb1 : ((fixedFields recovery protectedSsrc snBase ++
      (chunks ++ recovery.repair)).getD 1 0).toNat = recovery.xb1 :=
    (byte_at_low _).trans (Nat.mod_eq_of_lt inRange.xb1)
  have filled : (spread.isEmpty = true) = False := by simpa using some
  rw [finishFec]
  simp only [filled, if_false, drop, readXlen, readXts, readSsrc, readBase, readXb0, readXb1]

/-- What a FEC packet states about the group it was built from. -/
def stated (protectedSsrc : Nat) (group : List Member) (some : group ≠ []) : Fec :=
  { parity group with
    xlen := (parity group).xlen % 0x10000
    ssrc := protectedSsrc
    snBase := (group.head some).seq
    seqs := (listed (maskBit (offsets group (group.head some).seq)) 109).map fun i =>
      ((group.head some).seq + i) % 0x10000 }

theorem Member.seq_lt (m : Member) : m.seq < 2 ^ 16 := by
  rw [m.seq_eq]
  have bounded := decode_be_lt ((m.buf.drop 2).take 2)
  have short : ((m.buf.drop 2).take 2).length ≤ 2 := List.length_take_le _ _
  exact bounded.trans_le (Nat.pow_le_pow_right (by decide) short)

theorem first_offset (group : List Member) (some : group ≠ []) :
    0 ∈ offsets group (group.head some).seq := by
  have same : seqDiff (group.head some).seq (group.head some).seq = 0 := by
    rw [seqDiff, sub_self]
    rfl
  exact List.mem_map.mpr ⟨group.head some, List.head_mem some, same⟩

theorem mask_chunks_length (bit : Nat → Bool) (maskBits : Nat) :
    (maskChunks bit (maskBytesFor maskBits)).length = maskBytesFor maskBits := by
  rw [maskChunks, maskBytesFor]
  split_ifs <;> simp_all

theorem parse_build_fec (self : FlexFecEncoder) (group : List Member) (some : group ≠ []) :
    parseFec (self.buildFec group some).2 = .some (stated self.protectedSsrc group some) := by
  have inRange := parity_in_range group
  have packet : (self.buildFec group some).2 =
      ([0x80, byteAt (self.pt &&& 0x7F) 0] ++ encodeBE 2 self.seq ++
        encodeBE 4 (readBE 4 (group.getLast some).buf 4) ++ encodeBE 4 self.ssrc) ++
      (fixedFields (parity group) self.protectedSsrc (group.head some).seq ++
        (maskChunks (maskBit (offsets group (group.head some).seq))
          (maskBytesFor (maskBits (offsets group (group.head some).seq))) ++
          (parity group).repair)) := by
    simp only [FlexFecEncoder.buildFec, fecPayload, fixedFields, List.append_assoc]
  have reserved (tail : Bytes) : ((fixedFields (parity group) self.protectedSsrc
      (group.head some).seq ++ tail).getD 0 0).toNat &&& 0xC0 = 0 := by
    have clear : ∀ low < 64, low % 256 &&& 0xC0 = 0 := by decide
    have low : ((fixedFields (parity group) self.protectedSsrc
      (group.head some).seq ++ tail).getD 0 0).toNat = ((parity group).xb0 &&& 0x3F) % 256 :=
      byte_at_low _
    rw [low]
    exact clear _ (Nat.lt_of_le_of_lt Nat.and_le_right (by decide))
  have first : maskBit (offsets group (group.head some).seq) 0 = true := by
    rw [maskBit, Bool.and_eq_true, decide_eq_true_iff, decide_eq_true_iff]
    exact ⟨by decide, first_offset group some⟩
  have filled : listed (maskBit (offsets group (group.head some).seq)) 109 ≠ [] :=
    List.ne_nil_of_mem (List.mem_filter.mpr ⟨List.mem_range.mpr (by decide), first⟩)
  have finished := @finish_fec_fields _ inRange _ _ self.protected_ssrc_range
    (group.head some).seq_lt (maskChunks (maskBit (offsets group (group.head some).seq))
      (maskBytesFor (maskBits (offsets group (group.head some).seq)))) _ filled
  rw [mask_chunks_length] at finished
  rw [packet, parse_fec_chunks rfl rfl rfl (reserved _) rfl, listed_mask_count, finished]
  rfl

end RtpPacket.FlexFec
