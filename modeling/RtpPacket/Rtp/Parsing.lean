import RtpPacket.Lib.Stores
import RtpPacket.Rtp.Header

/-!
# What a parsed packet says of its buffer

The fields of a parsed packet as functions of the buffer, and which buffers have them.
-/

namespace RtpPacket.Rtp

open ByteCodec Stores

set_option autoImplicit false

def Extended (buf : Bytes) : Prop := readBE 1 buf 0 / 16 % 2 = 1

def Padded (buf : Bytes) : Prop := readBE 1 buf 0 / 32 % 2 = 1

instance (buf : Bytes) : Decidable (Extended buf) := inferInstanceAs (Decidable (_ = _))

instance (buf : Bytes) : Decidable (Padded buf) := inferInstanceAs (Decidable (_ = _))

def fixedHeaderEnd (buf : Bytes) : Nat := 12 + readBE 1 buf 0 % 16 * 4

def padCount (buf : Bytes) : Nat := readBE 1 buf (buf.length - 1)

structure Parseable (buf : Bytes) : Prop where
  long : 12 ≤ buf.length
  version : readBE 1 buf 0 / 64 % 4 = 2
  sources : fixedHeaderEnd buf ≤ buf.length

instance (buf : Bytes) : Decidable (Parseable buf) :=
  decidable_of_iff (12 ≤ buf.length ∧ readBE 1 buf 0 / 64 % 4 = 2 ∧ fixedHeaderEnd buf ≤ buf.length)
    ⟨fun facts => ⟨facts.1, facts.2.1, facts.2.2⟩,
      fun parseable => ⟨parseable.long, parseable.version, parseable.sources⟩⟩

def extendedFields (buf : Bytes) : Nat × Option Extensions :=
  extendedHeader buf (decide (Extended buf)) (fixedHeaderEnd buf)

def parsedFields (buf : Bytes) : ParsedPacket where
  version := 2
  padding := decide (Padded buf)
  extension := decide (Extended buf)
  csrcCount := readBE 1 buf 0 % 16
  marker := decide (readBE 1 buf 1 / 128 % 2 = 1)
  payloadType := readBE 1 buf 1 % 128
  sequenceNumber := readBE 2 buf 2
  timestamp := readBE 4 buf 4
  ssrc := readBE 4 buf 8
  csrc := (List.range (readBE 1 buf 0 % 16)).map fun index => readBE 4 buf (12 + index * 4)
  payload := (buf.take (payloadEnd buf (decide (Padded buf)) (extendedFields buf).1)).drop
    (extendedFields buf).1
  headerLength := (extendedFields buf).1
  extensions := (extendedFields buf).2

theorem parse_eq (buf : Bytes) :
    parse buf = if Parseable buf then some (parsedFields buf) else none := by
  rw [parse]
  dsimp only
  by_cases short : buf.length < 12
  · rw [if_pos short, if_neg fun parseable => Nat.not_lt.mpr parseable.long short]
  · by_cases version : readBE 1 buf 0 / 64 % 4 ≠ rtpVersion
    · rw [if_neg short, if_pos version, if_neg fun parseable => version parseable.version]
    · by_cases sources : buf.length < 12 + readBE 1 buf 0 % 16 * 4
      · have refused : ¬ Parseable buf :=
          fun parseable => Nat.not_lt.mpr parseable.sources sources
        rw [if_neg short, if_neg version, if_pos sources, if_neg refused]
      · have parseable : Parseable buf :=
          ⟨Nat.not_lt.mp short, not_not.mp version, Nat.not_lt.mp sources⟩
        rw [if_neg short, if_neg version, if_neg sources, if_pos parseable, not_not.mp version]
        rfl

theorem parse_eq_some {buf : Bytes} (parseable : Parseable buf) :
    parse buf = some (parsedFields buf) :=
  (parse_eq buf).trans (if_pos parseable)

theorem parse_eq_some_iff {buf : Bytes} {parsed : ParsedPacket} :
    parse buf = some parsed ↔ Parseable buf ∧ parsed = parsedFields buf := by
  rw [parse_eq]
  split_ifs with parseable
  · exact ⟨fun same => ⟨parseable, (Option.some.inj same).symm⟩, fun fields => fields.2 ▸ rfl⟩
  · exact ⟨fun impossible => impossible.elim, fun fields => absurd fields.1 parseable⟩

/-- What follows the header without the padding that its last byte counts, if it can. -/
def trimmed (padded : Bool) (tail : Bytes) : Bytes :=
  if padded ∧ 1 ≤ padCount tail ∧ padCount tail ≤ tail.length then
    tail.take (tail.length - padCount tail)
  else tail

theorem trimmed_eq_self_iff (padded : Bool) (tail : Bytes) :
    trimmed padded tail = tail ↔
      ¬ (padded = true ∧ 1 ≤ padCount tail ∧ padCount tail ≤ tail.length) := by
  rw [trimmed]
  split_ifs with announced
  · simp only [announced, and_self, not_true_eq_false, iff_false, List.take_eq_self_iff]
    omega
  · simp only [announced, not_false_eq_true]

theorem pad_count_drop {buf : Bytes} {start : Nat} (inside : start < buf.length) :
    padCount (buf.drop start) = padCount buf := by
  rw [padCount, padCount, read_be_drop, List.length_drop]
  congr 1
  omega

theorem payload_end_trimmed {buf : Bytes} {start : Nat} (inside : start ≤ buf.length)
    (padded : Bool) :
    payloadEnd buf padded start =
      if padded ∧ 1 ≤ padCount (buf.drop start) ∧ padCount (buf.drop start) ≤ buf.length - start
      then buf.length - padCount (buf.drop start)
      else buf.length := by
  rw [payloadEnd]
  by_cases payload : start < buf.length
  · rw [pad_count_drop payload]
    cases padded with
    | false => simp
    | true =>
        rw [if_pos ⟨rfl, payload⟩]
        apply if_congr
        · change 1 ≤ padCount buf ∧ start + padCount buf ≤ buf.length ↔ _
          simp only [true_and]
          omega
        · rfl
        · rfl
  · rw [if_neg fun both => payload both.2, if_neg]
    omega

theorem payload_trimmed {buf : Bytes} {start : Nat} (inside : start ≤ buf.length)
    (padded : Bool) :
    (buf.take (payloadEnd buf padded start)).drop start = trimmed padded (buf.drop start) := by
  rw [payload_end_trimmed inside, trimmed, List.length_drop]
  split_ifs
  · rw [List.drop_take]
    congr 1
    omega
  · rw [List.take_length]

/-- The bytes behind the sources start a block of the one-byte form. -/
structure HasBlock (buf : Bytes) : Prop where
  extended : Extended buf
  room : fixedHeaderEnd buf + 4 ≤ buf.length
  profile : readBE 2 buf (fixedHeaderEnd buf) = 0xBEDE

instance (buf : Bytes) : Decidable (HasBlock buf) :=
  decidable_of_iff (Extended buf ∧ fixedHeaderEnd buf + 4 ≤ buf.length ∧
      readBE 2 buf (fixedHeaderEnd buf) = 0xBEDE)
    ⟨fun facts => ⟨facts.1, facts.2.1, facts.2.2⟩,
      fun block => ⟨block.extended, block.room, block.profile⟩⟩

def blockEnd (buf : Bytes) : Nat :=
  fixedHeaderEnd buf + 4 + readBE 2 buf (fixedHeaderEnd buf + 2) * 4

def blockData (buf : Bytes) : Bytes := (buf.take (blockEnd buf)).drop (fixedHeaderEnd buf + 4)

structure WholeBlock (buf : Bytes) : Prop extends HasBlock buf where
  complete : blockEnd buf ≤ buf.length

theorem WholeBlock.data_length {buf : Bytes} (block : WholeBlock buf) :
    fixedHeaderEnd buf + 4 + (blockData buf).length = blockEnd buf := by
  rw [blockData, List.length_drop, List.length_take_of_le block.complete, blockEnd]
  omega

theorem extended_fields_room {buf : Bytes} (extended : Extended buf)
    (room : fixedHeaderEnd buf + 4 ≤ buf.length) :
    extendedFields buf = readExtensionBlock buf (fixedHeaderEnd buf) := by
  rw [extendedFields, extendedHeader, if_pos ⟨decide_eq_true extended, room⟩]

theorem extended_fields_plain {buf : Bytes}
    (plain : ¬ (Extended buf ∧ fixedHeaderEnd buf + 4 ≤ buf.length)) :
    extendedFields buf = (fixedHeaderEnd buf, none) := by
  rw [extendedFields, extendedHeader, if_neg]
  intro both
  exact plain ⟨of_decide_eq_true both.1, both.2⟩

theorem parsed_extensions (buf : Bytes) :
    (parsedFields buf).extensions =
      if HasBlock buf ∧ blockEnd buf ≤ buf.length then some (parseExtensions (blockData buf))
      else none := by
  change (extendedFields buf).2 = _
  by_cases room : Extended buf ∧ fixedHeaderEnd buf + 4 ≤ buf.length
  · rw [extended_fields_room room.1 room.2, readExtensionBlock]
    apply ite_congr
    · apply propext
      constructor
      · intro both
        exact ⟨⟨room.1, room.2, both.1⟩, both.2⟩
      · intro both
        exact ⟨both.1.profile, both.2⟩
    · intro _
      rfl
    · intro _
      rfl
  · rw [extended_fields_plain room, if_neg]
    intro both
    exact room ⟨both.1.extended, both.1.room⟩

theorem parsed_header_length (buf : Bytes) :
    (parsedFields buf).headerLength =
      if Extended buf ∧ fixedHeaderEnd buf + 4 ≤ buf.length then min (blockEnd buf) buf.length
      else fixedHeaderEnd buf := by
  change (extendedFields buf).1 = _
  by_cases room : Extended buf ∧ fixedHeaderEnd buf + 4 ≤ buf.length
  · rw [if_pos room, extended_fields_room room.1 room.2, Nat.min_def]
    rfl
  · rw [if_neg room, extended_fields_plain room]

theorem WholeBlock.header_length {buf : Bytes} (block : WholeBlock buf) :
    (parsedFields buf).headerLength = blockEnd buf := by
  rw [parsed_header_length, if_pos ⟨block.extended, block.room⟩, Nat.min_eq_left block.complete]

theorem WholeBlock.extensions {buf : Bytes} (block : WholeBlock buf) :
    (parsedFields buf).extensions = some (parseExtensions (blockData buf)) := by
  rw [parsed_extensions, if_pos ⟨block.toHasBlock, block.complete⟩]

theorem Parseable.header_fits {buf : Bytes} (parseable : Parseable buf) :
    12 ≤ (parsedFields buf).headerLength ∧ (parsedFields buf).headerLength ≤ buf.length := by
  have sources := parseable.sources
  rw [parsed_header_length, blockEnd]
  rw [fixedHeaderEnd] at sources ⊢
  split_ifs <;> omega

theorem Parseable.payload {buf : Bytes} (parseable : Parseable buf) :
    (parsedFields buf).payload =
      trimmed (decide (Padded buf)) (buf.drop (parsedFields buf).headerLength) :=
  payload_trimmed parseable.header_fits.2 _

/-- The fields that do not depend on the extension block. -/
structure SameHeader (before after : ParsedPacket) : Prop where
  version : after.version = before.version
  padding : after.padding = before.padding
  csrcCount : after.csrcCount = before.csrcCount
  marker : after.marker = before.marker
  payloadType : after.payloadType = before.payloadType
  sequenceNumber : after.sequenceNumber = before.sequenceNumber
  timestamp : after.timestamp = before.timestamp
  ssrc : after.ssrc = before.ssrc
  csrc : after.csrc = before.csrc

/-- Two buffers with the same bytes up to the sources, the X bit apart. -/
structure SameFront (before after : Bytes) : Prop where
  flags : readBE 1 after 0 / 32 = readBE 1 before 0 / 32
  count : readBE 1 after 0 % 16 = readBE 1 before 0 % 16
  front : ∀ index, 1 ≤ index → index < fixedHeaderEnd before → after[index]? = before[index]?

namespace SameFront

variable {before after : Bytes}

theorem fixed_header_end (same : SameFront before after) :
    fixedHeaderEnd after = fixedHeaderEnd before := by
  rw [fixedHeaderEnd, fixedHeaderEnd, same.count]

theorem padded (same : SameFront before after) : Padded after ↔ Padded before := by
  rw [Padded, Padded, same.flags]

theorem read (same : SameFront before after) {width offset : Nat} (low : 1 ≤ offset)
    (high : offset + width ≤ fixedHeaderEnd before) :
    readBE width after offset = readBE width before offset := by
  apply read_be_congr
  intro index first last
  exact same.front index (by omega) (by omega)

theorem parseable (same : SameFront before after) (parses : Parseable before)
    (long : fixedHeaderEnd before ≤ after.length) : Parseable after where
  long := by
    rw [fixedHeaderEnd] at long
    omega
  version := by
    have version := parses.version
    have flags := same.flags
    omega
  sources := by
    rw [same.fixed_header_end]
    exact long

theorem header (same : SameFront before after) :
    SameHeader (parsedFields before) (parsedFields after) where
  version := rfl
  padding := decide_eq_decide.mpr same.padded
  csrcCount := same.count
  marker := by
    have byte : readBE 1 after 1 = readBE 1 before 1 :=
      same.read (le_refl 1) (by rw [fixedHeaderEnd]; omega)
    simp only [parsedFields, byte]
  payloadType := by
    have byte : readBE 1 after 1 = readBE 1 before 1 :=
      same.read (le_refl 1) (by rw [fixedHeaderEnd]; omega)
    simp only [parsedFields, byte]
  sequenceNumber := same.read (by omega) (by rw [fixedHeaderEnd]; omega)
  timestamp := same.read (by omega) (by rw [fixedHeaderEnd]; omega)
  ssrc := same.read (by omega) (by rw [fixedHeaderEnd]; omega)
  csrc := by
    change List.map _ (List.range (readBE 1 after 0 % 16)) = _
    rw [same.count]
    apply List.map_congr_left
    intro index member
    have inside := List.mem_range.mp member
    exact same.read (by omega) (by rw [fixedHeaderEnd]; omega)

end SameFront

end RtpPacket.Rtp
