import RtpPacket.Codec.H264
import RtpPacket.Codec.H265

/-!
# Length-prefixed access units

An access unit with 4-byte lengths is told from an Annex-B one by its first bytes,
which are the first length. A length of 1 or of 256 to 511 reads as a start code;
every other one is walked unit by unit.
-/

namespace RtpPacket.Codec

open ByteCodec Rtp

set_option autoImplicit false

/-- A first length whose four bytes read as a start code. -/
def LooksLikeStartCode (length : Nat) : Prop := length = 1 ∨ 256 ≤ length ∧ length ≤ 511

theorem byte_at_eq_iff (value shift : Nat) (byte : Byte) :
    byteAt value shift = byte ↔ value / 2 ^ shift % 256 = byte.toNat := by
  rw [← UInt8.toNat_inj, byte_at_to_nat]

theorem starts_with_start_code_iff {length : Nat} (bounded : length < 2 ^ 32) (suffix : Bytes) :
    startsWithStartCode (encodeBE 4 length ++ suffix) = true ↔ LooksLikeStartCode length := by
  simp only [startsWithStartCode, encodeBE, List.cons_append, List.isPrefixOf,
    Bool.or_eq_true, Bool.and_eq_true, beq_iff_eq, eq_comm (b := byteAt _ _), byte_at_eq_iff,
    LooksLikeStartCode, List.nil_append, UInt8.reduceToNat]
  simp
  omega

theorem start_code_length_encode {length : Nat} (bounded : length < 2 ^ 32) {suffix : Bytes} :
    startCodeLength (encodeBE 4 length ++ suffix) =
      if length = 1 then 4 else if 256 ≤ length ∧ length ≤ 511 then 3 else 0 := by
  simp only [startCodeLength, encodeBE, List.cons_append, byte_at_eq_iff, UInt8.reduceToNat]
  have shift : (2 : Nat) ^ 24 = 16777216 ∧ (2 : Nat) ^ 16 = 65536 ∧ (2 : Nat) ^ 8 = 256 := by
    norm_num
  split_ifs <;> first | rfl | omega

/-- The access units a codec can be handed: `least` is the size of its NAL header. -/
structure AccessUnit (least : Nat) (nalus : List Bytes) : Prop where
  nonempty : nalus ≠ []
  header_fits : ∀ nalu ∈ nalus, least ≤ nalu.length
  length_bound : ∀ nalu ∈ nalus, nalu.length < 2 ^ 32
  forbidden_zero_bit : ∀ nalu ∈ nalus, nalu.headD 0 &&& 0x80 = 0

theorem length_prefixed_from_lengthPrefixed {nalus : List Bytes}
    (nonempty : ∀ nalu ∈ nalus, 1 ≤ nalu.length)
    (bounded : ∀ nalu ∈ nalus, nalu.length < 2 ^ 32)
    (forbidden : ∀ nalu ∈ nalus, nalu.headD 0 &&& 0x80 = 0) :
    lengthPrefixedFrom (lengthPrefixed nalus) = some nalus := by
  induction nalus with
  | nil => simp [lengthPrefixedFrom]
  | cons nalu rest ih =>
      have ihRest := ih (fun nalu member => nonempty nalu (List.mem_cons_of_mem _ member))
        (fun nalu member => bounded nalu (List.mem_cons_of_mem _ member))
        (fun nalu member => forbidden nalu (List.mem_cons_of_mem _ member))
      have positive := nonempty nalu List.mem_cons_self
      have bound := bounded nalu List.mem_cons_self
      have headBit := forbidden nalu List.mem_cons_self
      have length : readBE 4 (encodeBE 4 nalu.length ++ (nalu ++ lengthPrefixed rest)) 0 =
          nalu.length := by
        rw [read_be_encode]
        exact Nat.mod_eq_of_lt (by omega)
      have body : (encodeBE 4 nalu.length ++ (nalu ++ lengthPrefixed rest)).drop 4 =
          nalu ++ lengthPrefixed rest := List.drop_left' (encode_be_length _ _)
      have head : (nalu ++ lengthPrefixed rest).headD 0 = nalu.headD 0 := by
        cases nalu with
        | nil => simp at positive
        | cons byte others => rfl
      rw [length_prefixed_cons, lengthPrefixedFrom, length, body,
        if_neg (by simp [encodeBE]), if_neg (by simp)]
      dsimp only
      rw [head, if_neg (by rw [List.length_append]; omega), if_neg (by simpa using headBit),
        List.drop_left, List.take_left, ihRest]
      rfl

theorem split_length_prefixed {least header : Nat} (lengths : least ≤ 4 + header)
    {nalus : List Bytes} (positive : 0 < header) (accessUnit : AccessUnit header nalus) :
    splitLengthPrefixed least (lengthPrefixed nalus) = some nalus := by
  have walked := length_prefixed_from_lengthPrefixed
    (fun nalu member => Nat.le_trans positive (accessUnit.header_fits nalu member))
    accessUnit.length_bound accessUnit.forbidden_zero_bit
  cases nalus with
  | nil => exact absurd rfl accessUnit.nonempty
  | cons nalu rest =>
      have fits := accessUnit.header_fits nalu List.mem_cons_self
      rw [splitLengthPrefixed, walked, if_neg]
      · simp
      · simp only [length_prefixed_cons, List.length_append, encode_be_length]
        omega

/-- A unit that is read from `nalu ++ bytes` ends at the end of the data or at a start code. -/
theorem nalus_from_reads (bytes nalu : Bytes) (started : nalu ≠ []) :
    ∃ unit rest, nalu ++ bytes = unit ++ rest ∧ nalu.length ≤ unit.length ∧
      (rest = [] ∧ nalusFrom nalu bytes = [unit] ∨
        0 < startCodeLength rest ∧
          nalusFrom nalu bytes = unit :: nalusFrom [] (rest.drop (startCodeLength rest))) := by
  induction bytes generalizing nalu with
  | nil => exact ⟨nalu, [], rfl, le_rfl, .inl ⟨rfl, by simp [nalusFrom, started]⟩⟩
  | cons byte rest ih =>
      by_cases tail : rest.length < 3
      · refine ⟨nalu ++ byte :: rest, [], by simp, by simp, .inl ⟨rfl, ?_⟩⟩
        rw [nalusFrom, if_pos tail]
      · by_cases code : 0 < startCodeLength (byte :: rest)
        · refine ⟨nalu, byte :: rest, rfl, le_rfl, .inr ⟨code, ?_⟩⟩
          rw [nalus_from_code nalu code, if_neg (by simpa using started)]
          rfl
        · obtain ⟨unit, suffix, read, longer, result⟩ := ih (nalu ++ [byte]) (by simp)
          have step : nalusFrom nalu (byte :: rest) = nalusFrom (nalu ++ [byte]) rest := by
            rw [nalusFrom, if_neg tail, if_neg code]
          refine ⟨unit, suffix, ?_, ?_, ?_⟩
          · rw [← read, List.append_assoc, List.singleton_append]
          · rw [List.length_append] at longer
            omega
          · rwa [step]

theorem nalus_from_begin {byte : Byte} {bytes : Bytes}
    (noCode : startCodeLength (byte :: bytes) = 0) :
    nalusFrom [] (byte :: bytes) = nalusFrom [byte] bytes := by
  rw [nalusFrom]
  split
  · have short : bytes.length < 3 := by assumption
    cases bytes with
    | nil => simp [nalusFrom]
    | cons next rest =>
        have shorter : rest.length < 3 := by simp at short; omega
        rw [nalusFrom, if_pos shorter]
        rfl
  · rw [if_neg (by omega), List.nil_append]

/-- Two readings of the same bytes that are one byte apart agree only on a repeated byte. -/
theorem eq_of_shifted {byte : Byte} (unit : Bytes) {suffix rest : Bytes}
    (shifted : byte :: (unit ++ suffix) = unit ++ rest) :
    rest = byte :: suffix ∧ ∀ other ∈ unit, other = byte := by
  induction unit generalizing rest with
  | nil => exact ⟨shifted.symm, by simp⟩
  | cons head tail ih =>
      simp only [List.cons_append, List.cons.injEq] at shifted
      obtain ⟨rfl, shiftedTail⟩ := shifted
      obtain ⟨restEq, allSame⟩ := ih shiftedTail
      exact ⟨restEq, by simpa using allSame⟩

theorem nalus_from_shifted {byte head : Byte} {tail suffix : Bytes} {others : List Bytes}
    (nonzero : ¬(byte = 0 ∧ head = 0)) :
    nalusFrom [] (byte :: (head :: tail ++ suffix)) ≠ (head :: tail) :: others := by
  intro found
  have noCode : startCodeLength (byte :: (head :: tail ++ suffix)) = 0 := by
    by_contra code
    obtain ⟨rest, zeros⟩ := start_code_zeros (Nat.pos_of_ne_zero code)
    simp only [List.cons_append, List.cons.injEq] at zeros
    exact nonzero ⟨zeros.1, zeros.2.1⟩
  rw [nalus_from_begin noCode] at found
  obtain ⟨unit, rest, read, -, ending⟩ :=
    nalus_from_reads (head :: tail ++ suffix) [byte] (by simp)
  have unitEq : unit = head :: tail := by
    rcases ending with ⟨-, result⟩ | ⟨-, result⟩ <;>
      exact (List.cons.inj (result.symm.trans found)).1
  subst unitEq
  obtain ⟨restEq, allSame⟩ := eq_of_shifted (head :: tail) read
  rcases ending with ⟨restNil, -⟩ | ⟨code, -⟩
  · simp [restEq] at restNil
  · obtain ⟨later, zeros⟩ := start_code_zeros code
    rw [restEq] at zeros
    have byteZero : byte = 0 := (List.cons.inj zeros).1
    exact nonzero ⟨byteZero, by rw [← byteZero]; exact allSame head List.mem_cons_self⟩

/-- What a codec owes a length-prefixed access unit: the units themselves, and hence the
packets of the same units handed over one by one. -/
def Reads (split : Bytes → List Bytes)
    (packetize : Packetizer → Chunk → Except String (List Packet × Packetizer))
    (nalus : List Bytes) : Prop :=
  split (lengthPrefixed nalus) = nalus ∧
    ∀ (self : Packetizer) (timestamp : Rat),
      packetize self ⟨some (lengthPrefixed nalus), none, timestamp⟩ =
        packetize self ⟨none, some nalus, timestamp⟩

def firstLength (nalus : List Bytes) : Nat := (nalus.headD []).length

theorem length_prefixed_detected {header : Nat} {nalus : List Bytes}
    (accessUnit : AccessUnit header nalus) :
    startsWithStartCode (lengthPrefixed nalus) = true ↔ LooksLikeStartCode (firstLength nalus) := by
  cases nalus with
  | nil => exact absurd rfl accessUnit.nonempty
  | cons nalu rest =>
      rw [length_prefixed_cons]
      exact starts_with_start_code_iff (accessUnit.length_bound nalu List.mem_cons_self) _

theorem h264_split_of_plain_length {nalus : List Bytes} (accessUnit : AccessUnit 1 nalus)
    (plain : ¬LooksLikeStartCode (firstLength nalus)) :
    H264.splitNALUs (lengthPrefixed nalus) = nalus := by
  rw [H264.splitNALUs, if_neg (mt (length_prefixed_detected accessUnit).mp plain),
    H264.trydSplitAVCC, split_length_prefixed (by omega) Nat.one_pos accessUnit]

theorem h265_split_of_plain_length {nalus : List Bytes} (accessUnit : AccessUnit 2 nalus)
    (plain : ¬LooksLikeStartCode (firstLength nalus)) :
    H265.splitNALUs (lengthPrefixed nalus) = nalus := by
  rw [H265.splitNALUs, if_pos (by simpa using mt (length_prefixed_detected accessUnit).mp plain),
    H265.trySplitLengthPrefixed, split_length_prefixed (by omega) Nat.two_pos accessUnit]

theorem nalus_from_one_byte (first : Byte) {rest : List Bytes}
    (oneByte : ∀ nalu ∈ rest, nalu.length = 1) :
    nalusFrom [] (first :: lengthPrefixed rest) = [first] :: rest := by
  induction rest generalizing first with
  | nil => simp [nalusFrom]
  | cons nalu later ih =>
      obtain ⟨byte, rfl⟩ := List.length_eq_one_iff.mp (oneByte nalu List.mem_cons_self)
      have code : encodeBE 4 1 = [0, 0, 0, 1] := rfl
      have ihLater := ih byte (fun other member => oneByte other (List.mem_cons_of_mem _ member))
      simp only [length_prefixed_cons, List.length_singleton, code, List.cons_append,
        List.nil_append]
      rw [nalus_from_begin (by simp [startCodeLength]), nalusFrom]
      simp [startCodeLength, ihLater]

/-- Lengths 1 and 256 to 511 apart, the first byte of a unit decides nothing. -/
def Plain (nalu : Bytes) : Prop :=
  nalu.length = 1 ∨ nalu.length = 256 → nalu.headD 0 ≠ 0

theorem nalus_from_three_byte_code {nalu suffix : Bytes} {others : List Bytes}
    (plain : Plain nalu) (least : 256 ≤ nalu.length) (most : nalu.length ≤ 511) :
    nalusFrom [] (byteAt nalu.length 0 :: (nalu ++ suffix)) ≠ nalu :: others := by
  cases nalu with
  | nil => simp at least
  | cons head tail =>
      refine nalus_from_shifted (fun zeros => ?_)
      have low := (byte_at_eq_iff _ _ _).mp zeros.1
      simp only [pow_zero, Nat.div_one, UInt8.reduceToNat] at low
      exact plain (.inr (by omega)) zeros.2

theorem one_byte_of_nalus_from {first : Byte} {rest : List Bytes} (nonzero : first ≠ 0)
    (bounded : ∀ nalu ∈ rest, nalu.length < 2 ^ 32) (plain : ∀ nalu ∈ rest, Plain nalu)
    (found : nalusFrom [] (first :: lengthPrefixed rest) = [first] :: rest) :
    ∀ nalu ∈ rest, nalu.length = 1 := by
  induction rest generalizing first with
  | nil => simp
  | cons nalu later ih =>
      have noCode : startCodeLength (first :: lengthPrefixed (nalu :: later)) = 0 := by
        by_contra code
        obtain ⟨rest, zeros⟩ := start_code_zeros (Nat.pos_of_ne_zero code)
        exact nonzero (List.cons.inj zeros).1
      rw [nalus_from_begin noCode] at found
      obtain ⟨unit, rest, read, -, ending⟩ :=
        nalus_from_reads (lengthPrefixed (nalu :: later)) [first] (by simp)
      have unitEq : unit = [first] := by
        rcases ending with ⟨-, result⟩ | ⟨-, result⟩ <;>
          exact (List.cons.inj (result.symm.trans found)).1
      subst unitEq
      obtain rfl : lengthPrefixed (nalu :: later) = rest := List.append_cancel_left read
      have bound := bounded nalu List.mem_cons_self
      have naluPlain := plain nalu List.mem_cons_self
      rcases ending with ⟨restNil, -⟩ | ⟨code, result⟩
      · simp [encodeBE] at restNil
      · have next := (List.cons.inj (result.symm.trans found)).2
        rw [length_prefixed_cons, start_code_length_encode bound] at next code
        split at next
        · next single =>
            obtain ⟨byte, rfl⟩ := List.length_eq_one_iff.mp single
            have body : (encodeBE 4 [byte].length ++ ([byte] ++ lengthPrefixed later)).drop 4 =
                byte :: lengthPrefixed later := List.drop_left' (encode_be_length _ _)
            rw [body] at next
            have others := ih (naluPlain (.inl single))
              (fun other member => bounded other (List.mem_cons_of_mem _ member))
              (fun other member => plain other (List.mem_cons_of_mem _ member)) next
            simpa using others
        · next several =>
            by_cases three : 256 ≤ nalu.length ∧ nalu.length ≤ 511
            · rw [if_pos three] at next
              exact absurd next (nalus_from_three_byte_code naluPlain three.1 three.2)
            · rw [if_neg several, if_neg three] at code
              omega

theorem split_annex_b_one_byte_first {first : Bytes} {rest : List Bytes} (one : first.length = 1) :
    splitAnnexB (lengthPrefixed (first :: rest)) =
      nalusFrom [] (first.headD 0 :: lengthPrefixed rest) := by
  obtain ⟨byte, rfl⟩ := List.length_eq_one_iff.mp one
  have code : startCodeLength (encodeBE 4 1 ++ ([byte] ++ lengthPrefixed rest)) = 4 := by
    rw [start_code_length_encode (by decide), if_pos rfl]
  rw [splitAnnexB, length_prefixed_cons, List.length_singleton, skip_to_start_code (by omega), code]
  rfl

theorem split_annex_b_long_first {first : Bytes} {rest : List Bytes} (plain : Plain first)
    (least : 256 ≤ first.length) (most : first.length ≤ 511) :
    splitAnnexB (lengthPrefixed (first :: rest)) ≠ first :: rest := by
  have code : startCodeLength (encodeBE 4 first.length ++ (first ++ lengthPrefixed rest)) = 3 := by
    rw [start_code_length_encode (by omega), if_neg (by omega), if_pos ⟨least, most⟩]
  rw [splitAnnexB, length_prefixed_cons, skip_to_start_code (by omega), code]
  exact nalus_from_three_byte_code plain least most

/-- The access units the H.264 splitter reads: the first length does not look like a
start code, or it is 1 and so is every other one. -/
def H264Readable (nalus : List Bytes) : Prop :=
  ¬LooksLikeStartCode (firstLength nalus) ∨ ∀ nalu ∈ nalus, nalu.length = 1

def H265Readable (nalus : List Bytes) : Prop := ¬LooksLikeStartCode (firstLength nalus)

theorem h264_split_of_readable {nalus : List Bytes} (accessUnit : AccessUnit 1 nalus)
    (readable : H264Readable nalus) : H264.splitNALUs (lengthPrefixed nalus) = nalus := by
  by_cases looks : LooksLikeStartCode (firstLength nalus)
  · have oneByte := readable.resolve_left (not_not.mpr looks)
    rw [H264.splitNALUs, if_pos ((length_prefixed_detected accessUnit).mpr looks)]
    cases nalus with
    | nil => exact absurd rfl accessUnit.nonempty
    | cons first rest =>
        obtain ⟨byte, rfl⟩ := List.length_eq_one_iff.mp (oneByte first List.mem_cons_self)
        rw [split_annex_b_one_byte_first rfl]
        exact nalus_from_one_byte byte
          (fun other member => oneByte other (List.mem_cons_of_mem _ member))
  · exact h264_split_of_plain_length accessUnit looks

theorem h264_readable_of_split {nalus : List Bytes} (accessUnit : AccessUnit 1 nalus)
    (plain : ∀ nalu ∈ nalus, Plain nalu)
    (split : H264.splitNALUs (lengthPrefixed nalus) = nalus) : H264Readable nalus := by
  by_cases looks : LooksLikeStartCode (firstLength nalus)
  · rw [H264.splitNALUs, if_pos ((length_prefixed_detected accessUnit).mpr looks)] at split
    cases nalus with
    | nil => exact absurd rfl accessUnit.nonempty
    | cons first rest =>
        have firstPlain := plain first List.mem_cons_self
        rcases looks with one | ⟨least, most⟩
        · obtain ⟨byte, rfl⟩ := List.length_eq_one_iff.mp one
          rw [split_annex_b_one_byte_first rfl] at split
          have others := one_byte_of_nalus_from (firstPlain (.inl rfl))
            (fun other member => accessUnit.length_bound other (List.mem_cons_of_mem _ member))
            (fun other member => plain other (List.mem_cons_of_mem _ member)) split
          exact .inr (List.forall_mem_cons.mpr ⟨rfl, others⟩)
        · exact absurd split (split_annex_b_long_first firstPlain least most)
  · exact .inl looks

theorem h265_readable_of_split {nalus : List Bytes} (accessUnit : AccessUnit 2 nalus)
    (plain : ∀ nalu ∈ nalus, Plain nalu)
    (split : H265.splitNALUs (lengthPrefixed nalus) = nalus) : H265Readable nalus := by
  intro looks
  rw [H265.splitNALUs, if_neg (by simpa using (length_prefixed_detected accessUnit).mpr looks)]
    at split
  cases nalus with
  | nil => exact accessUnit.nonempty rfl
  | cons first rest =>
      have twoBytes := accessUnit.header_fits first List.mem_cons_self
      rcases looks with one | ⟨least, most⟩
      · have length : first.length = 1 := one
        omega
      · exact split_annex_b_long_first (plain first List.mem_cons_self) least most split

theorem h264_packetize_of_split {nalus : List Bytes}
    (split : H264.splitNALUs (lengthPrefixed nalus) = nalus) :
    Reads H264.splitNALUs H264.packetize nalus := by
  refine ⟨split, fun self timestamp => ?_⟩
  simp [H264.packetize, H264.packetizeWith, validateChunk, split]

theorem h265_packetize_of_split {nalus : List Bytes}
    (split : H265.splitNALUs (lengthPrefixed nalus) = nalus) :
    Reads H265.splitNALUs H265.packetize nalus := by
  refine ⟨split, fun self timestamp => ?_⟩
  simp [H265.packetize, H265.packetizeWith, validateChunk, split]

/-- Length-prefixed data is read as its units exactly when it is readable, and both
codecs then send what they send for the units handed over one by one. For the exact
condition no unit of one or of 256 bytes may begin with a zero byte: past such a unit the
two framings can fall into step again. -/
theorem length_prefixed_access_unit {nalus : List Bytes} (accessUnit : AccessUnit 1 nalus) :
    ((H264Readable nalus → Reads H264.splitNALUs H264.packetize nalus) ∧
      ((∀ nalu ∈ nalus, Plain nalu) →
        (Reads H264.splitNALUs H264.packetize nalus ↔ H264Readable nalus))) ∧
    ((∀ nalu ∈ nalus, 2 ≤ nalu.length) →
      (H265Readable nalus → Reads H265.splitNALUs H265.packetize nalus) ∧
      ((∀ nalu ∈ nalus, Plain nalu) →
        (Reads H265.splitNALUs H265.packetize nalus ↔ H265Readable nalus))) := by
  have h264 : H264Readable nalus → Reads H264.splitNALUs H264.packetize nalus :=
    fun readable => h264_packetize_of_split (h264_split_of_readable accessUnit readable)
  refine ⟨⟨h264, fun plain => ⟨fun reads => h264_readable_of_split accessUnit plain reads.1, h264⟩⟩,
    fun twoBytes => ?_⟩
  have hevcUnit : AccessUnit 2 nalus := { accessUnit with header_fits := twoBytes }
  have h265 : H265Readable nalus → Reads H265.splitNALUs H265.packetize nalus :=
    fun readable => h265_packetize_of_split (h265_split_of_plain_length hevcUnit readable)
  exact ⟨h265, fun plain => ⟨fun reads => h265_readable_of_split hevcUnit plain reads.1, h265⟩⟩

theorem length_prefixed_access_unit_parameter_sets :
    AccessUnit 1 [[0x67, 0x42], [0x65]] ∧
      (H265Readable [[0x67, 0x42], [0x65]] ∧ H264Readable [[0x67, 0x42], [0x65]] ∧
        Reads H264.splitNALUs H264.packetize [[0x67, 0x42], [0x65]]) := by
  have accessUnit : AccessUnit 1 [[0x67, 0x42], [0x65]] :=
    ⟨by decide, by decide, by decide, by decide⟩
  have readable : ¬LooksLikeStartCode (firstLength [[0x67, 0x42], [0x65]]) := by
    simp [LooksLikeStartCode, firstLength]
  exact ⟨accessUnit, readable, .inl readable,
    (length_prefixed_access_unit accessUnit).1.1 (.inl readable)⟩

/-- A first unit of one byte makes the rest of the data part of it, and one of 256 bytes
gains the last byte of its length. -/
theorem length_prefixed_read_as_annex_b :
    ¬(∀ nalus, AccessUnit 1 nalus → H264.splitNALUs (lengthPrefixed nalus) = nalus) ∧
      ¬(∀ nalus, AccessUnit 2 nalus → H265.splitNALUs (lengthPrefixed nalus) = nalus) ∧
      H264.splitNALUs (lengthPrefixed [[0x65], [0x41, 0x9A]]) =
        [[0x65, 0, 0, 0, 2, 0x41, 0x9A]] ∧
      H265.splitNALUs (lengthPrefixed [List.replicate 256 1]) = [0 :: List.replicate 256 1] := by
  have h264 : H264.splitNALUs (lengthPrefixed [[0x65], [0x41, 0x9A]]) =
      [[0x65, 0, 0, 0, 2, 0x41, 0x9A]] := by decide +kernel
  have h265 : H265.splitNALUs (lengthPrefixed [List.replicate 256 1]) =
      [0 :: List.replicate 256 1] := by decide +kernel
  refine ⟨fun claim => ?_, fun claim => ?_, h264, h265⟩
  · have same := claim [[0x65], [0x41, 0x9A]] ⟨by decide, by decide, by decide, by decide⟩
    rw [h264] at same
    revert same
    decide
  · have same := claim [List.replicate 256 1]
      ⟨by decide, by decide +kernel, by decide +kernel, by decide +kernel⟩
    rw [h265] at same
    revert same
    decide

end RtpPacket.Codec
