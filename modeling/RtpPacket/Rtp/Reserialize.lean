import RtpPacket.Rtp.PayloadOffset
import RtpPacket.Rtp.Rebuilding

/-!
# Serializing a parsed packet

`parse` takes the padding off and `serialize` copies the P flag of the packet object, so the
flag announces padding where the payload ends, and its last byte may count like padding.
-/

namespace RtpPacket.Rtp

open ByteCodec Stores Word

set_option autoImplicit false

def ParsedPacket.object (parsed : ParsedPacket) : PacketObject where
  payloadType := parsed.payloadType
  sequenceNumber := parsed.sequenceNumber
  timestamp := parsed.timestamp
  ssrc := parsed.ssrc
  marker := parsed.marker
  padding := parsed.padding
  extensions := parsed.extensions
  csrc := parsed.csrc.map fun source : Nat => (source : Int)
  payload := parsed.payload

theorem take_then_read {buf : Bytes} {offset width : Nat} (inside : offset + width ≤ buf.length) :
    buf.take offset ++ encodeBE width (readBE width buf offset) = buf.take (offset + width) := by
  rw [encode_be_read_be inside, List.take_add]

theorem take_then_sources {buf : Bytes} {count : Nat} (inside : 12 + count * 4 ≤ buf.length) :
    buf.take 12 ++
        ((List.range count).map fun index => readBE 4 buf (12 + index * 4)).flatMap (encodeBE 4) =
      buf.take (12 + count * 4) := by
  induction count with
  | zero => simp
  | succ count ih =>
      rw [List.range_succ, List.map_append, List.flatMap_append, ← List.append_assoc,
        ih (by omega), List.map_singleton, List.flatMap_singleton, take_then_read (by omega)]
      congr 1
      omega

theorem front_bytes {buf : Bytes} (parseable : Parseable buf) :
    fixedHeader (readBE 1 buf 0) (readBE 1 buf 1) (readBE 2 buf 2) (readBE 4 buf 4)
        (readBE 4 buf 8) ++ (parsedFields buf).csrc.flatMap (encodeBE 4) =
      buf.take (fixedHeaderEnd buf) := by
  have long := parseable.long
  have fixed : fixedHeader (readBE 1 buf 0) (readBE 1 buf 1) (readBE 2 buf 2) (readBE 4 buf 4)
      (readBE 4 buf 8) = buf.take 12 := by
    have first : encodeBE 1 (readBE 1 buf 0) = buf.take 1 := by
      rw [encode_be_read_be (by omega), List.drop_zero]
    rw [fixedHeader, first, ← List.append_assoc, take_then_read (by omega), ← List.append_assoc,
      take_then_read (by omega), ← List.append_assoc, take_then_read (by omega),
      take_then_read (by omega)]
  rw [fixed]
  exact take_then_sources parseable.sources

theorem store_first_byte (first b0 b1 seq timestamp ssrc : Nat) (rest : Bytes) :
    store 0 (encodeBE 1 first) (fixedHeader b0 b1 seq timestamp ssrc ++ rest) =
      fixedHeader first b1 seq timestamp ssrc ++ rest := rfl

def flagsOf (buf : Bytes) (extended : Bool) : Nat :=
  (if Padded buf then 32 else 0) + ((if extended then 144 else 128) + readBE 1 buf 0 % 16)

theorem flags_of {buf : Bytes} (parseable : Parseable buf) (extended : Bool) :
    flagsOf buf extended < 256 ∧ flagsOf buf extended / 32 = readBE 1 buf 0 / 32 ∧
      flagsOf buf extended % 16 = readBE 1 buf 0 % 16 ∧
      flagsOf buf extended / 16 % 2 = if extended then 1 else 0 := by
  have version := parseable.version
  have byte := read_be_lt 1 buf 0
  rw [flagsOf]
  by_cases padded : Padded buf
  · rw [if_pos padded]
    rw [Padded] at padded
    split_ifs <;> omega
  · rw [if_neg padded]
    rw [Padded] at padded
    split_ifs <;> omega

theorem serialize_parsed {buf : Bytes} (parseable : Parseable buf) {extBlock : Option Bytes}
    (written : extensionBlock (parsedFields buf).object = .ok extBlock) :
    serialize (parsedFields buf).object =
      .ok (rebuilt buf (flagsOf buf extBlock.isSome) (extBlock.getD [])
        (parsedFields buf).payload) := by
  have counted : (parsedFields buf).object.csrc.length = readBE 1 buf 0 % 16 := by
    simp [ParsedPacket.object, parsedFields]
  have second : (if (parsedFields buf).object.marker then 128 else 0) +
      wrapUnsigned 7 (parsedFields buf).object.payloadType = readBE 1 buf 1 := by
    have byte := read_be_lt 1 buf 1
    have small : readBE 1 buf 1 % 128 < 2 ^ 7 := Nat.mod_lt _ (by decide)
    change (if decide (readBE 1 buf 1 / 128 % 2 = 1) then 128 else 0) +
      wrapUnsigned 7 (readBE 1 buf 1 % 128 : Nat) = _
    rw [wrap_unsigned_of_lt small]
    simp only [decide_eq_true_eq]
    split_ifs <;> omega
  have sources : (parsedFields buf).object.csrc.map (wrapUnsigned 32) =
      (parsedFields buf).csrc := by
    rw [ParsedPacket.object, List.map_map]
    conv_rhs => rw [← List.map_id (parsedFields buf).csrc]
    apply List.map_congr_left
    intro source member
    obtain ⟨index, _, rfl⟩ := List.mem_map.mp member
    exact wrap_unsigned_of_lt (read_be_lt 4 buf _)
  have seq : wrapUnsigned 16 (parsedFields buf).object.sequenceNumber = readBE 2 buf 2 :=
    wrap_unsigned_of_lt (read_be_lt 2 buf 2)
  have time : wrapUnsigned 32 (parsedFields buf).object.timestamp = readBE 4 buf 4 :=
    wrap_unsigned_of_lt (read_be_lt 4 buf 4)
  have source : wrapUnsigned 32 (parsedFields buf).object.ssrc = readBE 4 buf 8 :=
    wrap_unsigned_of_lt (read_be_lt 4 buf 8)
  have padding : (if (parsedFields buf).object.padding then 32 else 0) =
      if Padded buf then 32 else 0 := by
    change (if decide (Padded buf) then 32 else 0) = _
    simp only [decide_eq_true_eq]
  have front := congrArg (store 0 (encodeBE 1 (flagsOf buf extBlock.isSome)))
    (front_bytes parseable)
  rw [store_first_byte] at front
  rw [serialize_bytes written (by rw [counted]; omega), sources, seq, time, source, counted, second,
    padding, ← flagsOf, rebuilt, ← front]
  simp only [List.append_assoc]
  rfl

/-- An empty map counts as none. -/
def present (extensions : Option Extensions) : Option Extensions :=
  extensions.filter fun exts => !exts.entries.isEmpty

structure Agrees (before after : ParsedPacket) : Prop where
  marker : after.marker = before.marker
  payloadType : after.payloadType = before.payloadType
  sequenceNumber : after.sequenceNumber = before.sequenceNumber
  timestamp : after.timestamp = before.timestamp
  ssrc : after.ssrc = before.ssrc
  csrc : after.csrc = before.csrc
  payload : after.payload = before.payload
  extensions : present after.extensions = present before.extensions

def RoundTrips (parsed : ParsedPacket) : Prop :=
  ∃ out after, serialize parsed.object = .ok out ∧ parse out = some after ∧ Agrees parsed after

theorem parsed_extensions_carried {buf : Bytes} {exts : Extensions}
    (parsed : (parsedFields buf).extensions = some exts) :
    ∀ entry ∈ exts.entries, CarriedElement entry := by
  rw [parsed_extensions] at parsed
  split_ifs at parsed
  rw [← Option.some.inj parsed]
  exact parsed_entries_carried _

theorem reparsed {buf : Bytes} (parseable : Parseable buf) :
    ∃ out after, serialize (parsedFields buf).object = .ok out ∧ parse out = some after ∧
      SameHeader (parsedFields buf) after ∧
      present after.extensions = present (parsedFields buf).extensions ∧
      after.payload = trimmed (decide (Padded buf)) (parsedFields buf).payload := by
  -- The block is there exactly when the map holds an entry.
  cases kept : present (parsedFields buf).extensions with
  | none =>
      have written : extensionBlock (parsedFields buf).object = .ok none :=
        extension_block_none kept
      obtain ⟨small, flags, count, extended⟩ := flags_of parseable false
      obtain ⟨after, parses, header, extensions, payload⟩ := parse_rebuilt_plain parseable
        (parsedFields buf).payload small flags count extended
      refine ⟨_, after, serialize_parsed parseable written, parses, header, ?_, payload⟩
      rw [extensions]
      rfl
  | some exts =>
      obtain ⟨found, nonempty⟩ := Option.filter_eq_some_iff.mp kept
      have carried := parsed_extensions_carried found
      obtain ⟨words, padding, _, _, block⟩ := write_extensions_ok carried
      have written := @extension_block_some (parsedFields buf).object _ _ kept block
      obtain ⟨small, flags, count, extended⟩ := flags_of parseable true
      obtain ⟨after, parses, header, extensions, payload⟩ := parse_rebuilt_block parseable _
        (parsedFields buf).payload small flags count extended carried block
      refine ⟨_, after, serialize_parsed parseable written, parses, header, ?_, payload⟩
      rw [extensions]
      exact Option.filter_some_pos nonempty

/-- The byte before the padding counts as padding once more, and both counts fit behind the
header. -/
structure PaddedTwice (buf : Bytes) : Prop where
  padded : Padded buf
  count : 1 ≤ padCount buf
  again : 1 ≤ padCount (buf.take (buf.length - padCount buf))
  fits : payloadOffset buf + padCount buf +
    padCount (buf.take (buf.length - padCount buf)) ≤ buf.length

instance (buf : Bytes) : Decidable (PaddedTwice buf) :=
  decidable_of_iff (Padded buf ∧ 1 ≤ padCount buf ∧
      1 ≤ padCount (buf.take (buf.length - padCount buf)) ∧
      payloadOffset buf + padCount buf + padCount (buf.take (buf.length - padCount buf)) ≤
        buf.length)
    ⟨fun facts => ⟨facts.1, facts.2.1, facts.2.2.1, facts.2.2.2⟩,
      fun twice => ⟨twice.padded, twice.count, twice.again, twice.fits⟩⟩

theorem pad_count_nil : padCount [] = 0 := rfl

/-- The payload of a padded packet ends like padding exactly when the packet is padded twice. -/
theorem payload_padded_iff {buf : Bytes} (parseable : Parseable buf) (padded : Padded buf) :
    1 ≤ padCount (parsedFields buf).payload ∧
        padCount (parsedFields buf).payload ≤ (parsedFields buf).payload.length ↔
      PaddedTwice buf := by
  have offset := payload_offset_eq buf
  rw [if_pos parseable] at offset
  have fits := parseable.header_fits.2
  rw [parseable.payload, decide_eq_true padded]
  generalize (parsedFields buf).headerLength = start at offset fits ⊢
  have behind : (buf.drop start).length = buf.length - start := List.length_drop
  by_cases inside : start < buf.length
  · have last := pad_count_drop inside
    by_cases counted : 1 ≤ padCount buf ∧ padCount buf ≤ buf.length - start
    · -- The padding comes off, and the byte before it is the one that counts.
      have media : trimmed true (buf.drop start) =
          (buf.take (buf.length - padCount buf)).drop start := by
        rw [trimmed, last, behind, if_pos ⟨rfl, counted⟩, List.drop_take]
        congr 1
        omega
      have taken : (buf.take (buf.length - padCount buf)).length = buf.length - padCount buf :=
        List.length_take_of_le (Nat.sub_le _ _)
      rw [media, List.length_drop, taken]
      by_cases left : start < buf.length - padCount buf
      · rw [pad_count_drop (by rw [taken]; exact left)]
        constructor
        · intro again
          exact ⟨padded, counted.1, again.1, by omega⟩
        · intro twice
          have fits := twice.fits
          exact ⟨twice.again, by omega⟩
      · rw [List.drop_eq_nil_of_le (by omega), pad_count_nil]
        constructor
        · intro again
          omega
        · intro twice
          have again := twice.again
          have fits := twice.fits
          omega
    · -- No padding comes off, so the last byte still counts too much or nothing.
      have kept : trimmed true (buf.drop start) = buf.drop start := by
        rw [trimmed_eq_self_iff, last, behind]
        exact fun announced => counted announced.2
      rw [kept, last, behind]
      constructor
      · intro again
        exact absurd again counted
      · intro twice
        have count := twice.count
        have fits := twice.fits
        omega
  · have empty : buf.drop start = [] := List.drop_eq_nil_of_le (Nat.not_lt.mp inside)
    have nothing : trimmed true ([] : Bytes) = [] := rfl
    rw [empty, nothing, pad_count_nil]
    constructor
    · intro again
      omega
    · intro twice
      have count := twice.count
      have fits := twice.fits
      omega

/-- A parsed packet comes back unless its P flag meets a payload that ends like padding. -/
theorem round_trips_iff {buf : Bytes} {parsed : ParsedPacket} (parses : parse buf = some parsed) :
    RoundTrips parsed ↔ ¬ PaddedTwice buf := by
  obtain ⟨parseable, rfl⟩ := parse_eq_some_iff.mp parses
  obtain ⟨out, after, written, reread, header, extensions, payload⟩ := reparsed parseable
  have kept_iff : trimmed (decide (Padded buf)) (parsedFields buf).payload =
      (parsedFields buf).payload ↔ ¬ PaddedTwice buf := by
    rw [trimmed_eq_self_iff, not_iff_not, decide_eq_true_eq]
    constructor
    · intro announced
      exact (payload_padded_iff parseable announced.1).mp announced.2
    · intro twice
      exact ⟨twice.padded, (payload_padded_iff parseable twice.padded).mpr twice⟩
  rw [← kept_iff]
  constructor
  · intro trips
    obtain ⟨otherOut, other, otherWritten, otherReread, agrees⟩ := trips
    cases written.symm.trans otherWritten
    cases reread.symm.trans otherReread
    exact payload.symm.trans agrees.payload
  · intro kept
    exact ⟨out, after, written, reread, header.marker, header.payloadType, header.sequenceNumber,
      header.timestamp, header.ssrc, header.csrc, payload.trans kept, extensions⟩

theorem two_extensions_round_trip : RoundTrips (parsedFields twoExtensions) :=
  (round_trips_iff (parse_eq_some (by decide))).mpr (by decide +kernel)

def paddedTwice : Bytes := [0xA0, 0x60, 0, 0, 0, 0, 0, 0, 0, 0, 0, 7, 5, 1, 1]

theorem padded_twice_cut :
    (parse paddedTwice).map (·.payload) = some [5, 1] ∧
      ((serialize (parsedFields paddedTwice).object).toOption.bind parse).map (·.payload) =
        some [5] ∧
      ¬ RoundTrips (parsedFields paddedTwice) := by
  have cut : ((serialize (parsedFields paddedTwice).object).toOption.bind parse).map (·.payload) =
      some [5] := by decide +kernel
  refine ⟨by decide +kernel, cut, ?_⟩
  intro trips
  obtain ⟨out, after, written, reread, agrees⟩ := trips
  have payload := agrees.payload
  rw [written, Except.toOption, Option.bind_some, reread, Option.map_some, payload] at cut
  exact absurd cut (by decide +kernel)

end RtpPacket.Rtp
