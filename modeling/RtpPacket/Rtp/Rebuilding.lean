import RtpPacket.Rtp.Extensions

/-!
# Packets written from parsed ones

A packet with the sources of another, a block of extensions of its own and any tail. What a
reader saw of a block can be written again.
-/

namespace RtpPacket.Rtp

open Associations ByteCodec Stores

set_option autoImplicit false

theorem elements_carried (data : Bytes) : ∀ entry ∈ elements data, CarriedElement entry := by
  fun_induction elements data with
  | case1 => simp
  | case2 rest ih => exact ih
  | case3 head rest nonzero id terminator => simp
  | case4 head rest nonzero id len element short => simp
  | case5 head rest nonzero id len element whole ih =>
      intro entry member
      cases List.mem_cons.mp member with
      | inl here =>
          have length := List.length_take_of_le (Nat.not_lt.mp whole)
          have small := head.toNat_lt
          have positive : head.toNat ≠ 0 := fun zero => nonzero (UInt8.toNat_inj.mp zero)
          rw [here]
          refine ⟨?_, ?_, ?_, ?_⟩
          all_goals simp only [length, id, len] at element ⊢
          all_goals omega
      | inr later => exact ih entry later

theorem parsed_entries_carried (data : Bytes) :
    ∀ entry ∈ (parseExtensions data).entries, CarriedElement entry := by
  intro entry member
  rw [parseExtensions, parse_extensions_from_elements] at member
  cases AscendingMap.mem_foldl_insert member with
  | inl element => exact elements_carried data entry element
  | inr none => cases none

/-- Another first byte, block and tail behind the sources of a packet. -/
def rebuilt (buf : Bytes) (b0 : Nat) (block tail : Bytes) : Bytes :=
  store 0 (encodeBE 1 b0) (buf.take (fixedHeaderEnd buf)) ++ block ++ tail

theorem front_length {buf : Bytes} (sources : fixedHeaderEnd buf ≤ buf.length) (b0 : Nat) :
    (buf.take (fixedHeaderEnd buf)).length = fixedHeaderEnd buf ∧
      (store 0 (encodeBE 1 b0) (buf.take (fixedHeaderEnd buf))).length = fixedHeaderEnd buf := by
  have taken := List.length_take_of_le sources
  refine ⟨taken, ?_⟩
  rw [stored_length, taken]
  rw [taken, fixedHeaderEnd]
  omega

section Front

variable {buf : Bytes} (sources : fixedHeaderEnd buf ≤ buf.length) {b0 : Nat}
  (block tail : Bytes) (byte : b0 < 256)

include sources byte

theorem read_rebuilt_first : readBE 1 (rebuilt buf b0 block tail) 0 = b0 := by
  obtain ⟨taken, front⟩ := front_length sources b0
  have long : 1 ≤ fixedHeaderEnd buf := by
    rw [fixedHeaderEnd]
    omega
  rw [rebuilt, List.append_assoc, read_be_append_left _ (by omega), read_stored (by omega), pow_one,
    Nat.mod_eq_of_lt byte]

theorem rebuilt_front (flags : b0 / 32 = readBE 1 buf 0 / 32)
    (count : b0 % 16 = readBE 1 buf 0 % 16) : SameFront buf (rebuilt buf b0 block tail) where
  flags := by rw [read_rebuilt_first sources block tail byte, flags]
  count := by rw [read_rebuilt_first sources block tail byte, count]
  front := by
    intro index positive inside
    obtain ⟨taken, front⟩ := front_length sources b0
    have one := encode_be_length 1 b0
    rw [rebuilt, List.append_assoc, List.getElem?_append_left (by omega),
      get_store_outside (by omega) (by omega), List.getElem?_take_of_lt inside]

end Front

section Rebuilt

variable {buf : Bytes} (parseable : Parseable buf) {b0 : Nat} (block tail : Bytes)
  (byte : b0 < 256) (flags : b0 / 32 = readBE 1 buf 0 / 32)
  (count : b0 % 16 = readBE 1 buf 0 % 16)

include parseable byte flags count

theorem rebuilt_parseable : Parseable (rebuilt buf b0 block tail) := by
  apply (rebuilt_front parseable.sources block tail byte flags count).parseable parseable
  obtain ⟨_, front⟩ := front_length parseable.sources b0
  rw [rebuilt, List.append_assoc, List.length_append, front]
  omega

theorem parse_rebuilt_block (extended : b0 / 16 % 2 = 1) {exts : Extensions}
    (carried : ∀ entry ∈ exts.entries, CarriedElement entry)
    (written : writeExtensions exts = .ok block) :
    ∃ after, parse (rebuilt buf b0 block tail) = some after ∧
      SameHeader (parsedFields buf) after ∧ after.extensions = some exts ∧
      after.payload = trimmed (decide (Padded buf)) tail := by
  have front := rebuilt_front parseable.sources block tail byte flags count
  have parses := rebuilt_parseable parseable block tail byte flags count
  obtain ⟨_, length⟩ := front_length parseable.sources b0
  obtain ⟨words, padding, wordRange, size, shape⟩ := write_extensions_ok carried
  cases written.symm.trans shape
  have values : parseExtensions
      (exts.entries.flatMap extensionElement ++ List.replicate padding 0) = exts := by
    rw [parseExtensions, parse_extension_elements _ carried, AscendingMap.foldl_insert_entries]
  have first := read_rebuilt_first parseable.sources (encodeBE 2 profileOneByte ++ encodeBE 2 words ++
    (exts.entries.flatMap extensionElement ++ List.replicate padding 0)) tail byte
  have seen := read_extension_block (store 0 (encodeBE 1 b0) (buf.take (fixedHeaderEnd buf)))
    wordRange size tail
  rw [values, length, ← List.append_assoc, ← rebuilt] at seen
  have fields := extended_fields_room (first.symm ▸ extended : Extended _) (by
    rw [front.fixed_header_end, rebuilt]
    simp only [List.length_append, length, encode_be_length]
    omega)
  rw [front.fixed_header_end, seen] at fields
  refine ⟨_, parse_eq_some parses, front.header, congrArg Prod.snd fields, ?_⟩
  rw [parses.payload, decide_eq_decide.mpr front.padded]
  apply congrArg
  change List.drop (extendedFields _).1 _ = _
  rw [fields, rebuilt, List.drop_left']
  simp only [List.length_append, length, encode_be_length]
  omega

theorem parse_rebuilt_plain (plain : b0 / 16 % 2 = 0) :
    ∃ after, parse (rebuilt buf b0 [] tail) = some after ∧
      SameHeader (parsedFields buf) after ∧ after.extensions = none ∧
      after.payload = trimmed (decide (Padded buf)) tail := by
  have front := rebuilt_front parseable.sources [] tail byte flags count
  have parses := rebuilt_parseable parseable [] tail byte flags count
  obtain ⟨_, length⟩ := front_length parseable.sources b0
  have first := read_rebuilt_first parseable.sources [] tail byte
  have notExtended : ¬ Extended (rebuilt buf b0 [] tail) := by
    rw [Extended, first, plain]
    decide
  have fields := extended_fields_plain fun both => notExtended both.1
  refine ⟨_, parse_eq_some parses, front.header, congrArg Prod.snd fields, ?_⟩
  rw [parses.payload, decide_eq_decide.mpr front.padded]
  apply congrArg
  change List.drop (extendedFields _).1 _ = _
  rw [fields, front.fixed_header_end, rebuilt, List.append_nil, List.drop_left' length]

end Rebuilt

end RtpPacket.Rtp
