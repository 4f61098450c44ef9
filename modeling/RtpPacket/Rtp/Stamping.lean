import RtpPacket.Rtp.Rebuilding

/-!
# Setting header extensions

`setHeaderExtensions` decodes the block of a packet, merges values into it and writes the
packet anew around the block. Entries that the one-byte form cannot carry are passed over,
and a packet with a block of another form is returned as it is.
-/

namespace RtpPacket.Rtp

open Associations ByteCodec Stores

set_option autoImplicit false

/-- The extensions of the packet and the length of its block, unless it has to be left alone. -/
def existingBlock (rtpPacket : Bytes) : Option (Extensions × Nat) :=
  let fixedHeaderEnd := 12 + readBE 1 rtpPacket 0 % 16 * 4
  if readBE 1 rtpPacket 0 / 16 % 2 = 1 then
    if rtpPacket.length < fixedHeaderEnd + 4 then none
    else if readBE 2 rtpPacket fixedHeaderEnd ≠ profileOneByte then none
    else
      let extBlockLen := 4 + readBE 2 rtpPacket (fixedHeaderEnd + 2) * 4
      if rtpPacket.length < fixedHeaderEnd + extBlockLen then none
      else
        some (parseExtensions
          ((rtpPacket.take (fixedHeaderEnd + extBlockLen)).drop (fixedHeaderEnd + 4)), extBlockLen)
  else some (AscendingMap.empty, 0)

def addExtension (existing : Extensions × Nat) (entry : Int × Bytes) : Extensions × Nat :=
  if entry.1 < 1 ∨ entry.1 > 14 then existing
  else if entry.2.length < 1 ∨ entry.2.length > 16 then existing
  else (existing.1.insert entry.1.toNat entry.2, existing.2 + 1)

/-- The first bytes of a packet in a new buffer. The buffer is not cleared: what a shorter
packet leaves unwritten is what the memory held. -/
def copyFront (memory : Nat → Byte) (rtpPacket : Bytes) (count : Nat) : Bytes :=
  rtpPacket.take count ++
    (List.range' rtpPacket.length (count - rtpPacket.length)).map memory

def writeAround (memory : Nat → Byte) (rtpPacket : Bytes) (exts : Extensions)
    (extBlockLen : Nat) : Except String Bytes := do
  let b0 := readBE 1 rtpPacket 0
  let fixedHeaderEnd := 12 + b0 % 16 * 4
  let newExtBlock ← writeExtensions exts
  let payload := rtpPacket.drop (fixedHeaderEnd + extBlockLen)
  return store 0 (encodeBE 1 (b0 ||| 0x10)) (copyFront memory rtpPacket fixedHeaderEnd) ++
    newExtBlock ++ payload

/-- `memory` is what the new buffer holds before it is written. -/
def setHeaderExtension (memory : Nat → Byte) (rtpPacket : Bytes) (id : Int) (data : Bytes) :
    Except String Bytes :=
  if rtpPacket.length < 12 then .ok rtpPacket
  else if id < 1 ∨ id > 14 then .ok rtpPacket
  else if data.length < 1 ∨ data.length > 16 then .ok rtpPacket
  else
    match existingBlock rtpPacket with
    | none => .ok rtpPacket
    | some (existingExts, extBlockLen) =>
        writeAround memory rtpPacket (existingExts.insert id.toNat data) extBlockLen

/-- The entries of the map come in the order of its enumeration. -/
def setHeaderExtensions (memory : Nat → Byte) (rtpPacket : Bytes)
    (extsMap : List (Int × Bytes)) : Except String Bytes :=
  if rtpPacket.length < 12 then .ok rtpPacket
  else
    match existingBlock rtpPacket with
    | none => .ok rtpPacket
    | some (existingExts, extBlockLen) =>
        let merged := extsMap.foldl addExtension (existingExts, 0)
        if merged.2 = 0 ∧ ¬ readBE 1 rtpPacket 0 / 16 % 2 = 1 then .ok rtpPacket
        else writeAround memory rtpPacket merged.1 extBlockLen

theorem add_extension_valid {entry : Nat × Bytes} (valid : ValidElement entry)
    (existing : Extensions × Nat) :
    addExtension existing ((entry.1 : Int), entry.2) =
      (existing.1.insert entry.1 entry.2, existing.2 + 1) := by
  obtain ⟨low, high, filled, short⟩ := valid
  rw [addExtension, if_neg (by dsimp only; omega), if_neg (by dsimp only; omega)]
  rfl

theorem add_extensions_valid {entries : List (Nat × Bytes)}
    (valid : ∀ entry ∈ entries, ValidElement entry) (existing : Extensions × Nat) :
    (entries.map fun entry => ((entry.1 : Int), entry.2)).foldl addExtension existing =
      (entries.foldl (fun map entry => map.insert entry.1 entry.2) existing.1,
        existing.2 + entries.length) := by
  induction entries generalizing existing with
  | nil => rfl
  | cons entry rest ih =>
      rw [List.map_cons, List.foldl_cons, add_extension_valid (valid entry List.mem_cons_self),
        ih fun other member => valid other (List.mem_cons_of_mem _ member), List.foldl_cons,
        List.length_cons, Nat.add_assoc, Nat.add_comm 1]

/-- A packet without a block or with a whole one of the one-byte form. -/
def Stampable (buf : Bytes) : Prop := Extended buf → WholeBlock buf

theorem existing_block_whole {buf : Bytes} (block : WholeBlock buf) :
    existingBlock buf = some (parseExtensions (blockData buf),
      4 + readBE 2 buf (fixedHeaderEnd buf + 2) * 4) := by
  have stop : fixedHeaderEnd buf + (4 + readBE 2 buf (fixedHeaderEnd buf + 2) * 4) =
      blockEnd buf := by
    rw [blockEnd, Nat.add_assoc]
  have complete : ¬ buf.length <
      fixedHeaderEnd buf + (4 + readBE 2 buf (fixedHeaderEnd buf + 2) * 4) := by
    rw [stop]
    exact Nat.not_lt.mpr block.complete
  rw [existingBlock]
  refine (if_pos block.extended).trans ?_
  refine (if_neg (Nat.not_lt.mpr block.room)).trans ?_
  refine (if_neg (not_not.mpr block.profile)).trans ?_
  refine (if_neg complete).trans ?_
  rw [blockData, ← stop]
  rfl

/-- A block of another form, or one that is cut off, is left alone. -/
theorem existing_block_refused {buf : Bytes} (extended : Extended buf)
    (cut : ¬ WholeBlock buf) : existingBlock buf = none := by
  rw [existingBlock]
  refine (if_pos extended).trans ?_
  by_cases room : fixedHeaderEnd buf + 4 ≤ buf.length
  · refine (if_neg (Nat.not_lt.mpr room)).trans ?_
    by_cases profile : readBE 2 buf (fixedHeaderEnd buf) = profileOneByte
    · refine (if_neg (not_not.mpr profile)).trans (if_pos ?_)
      apply Nat.not_le.mp
      intro complete
      apply cut
      refine ⟨⟨extended, room, profile⟩, ?_⟩
      rw [blockEnd, Nat.add_assoc]
      exact complete
    · exact if_pos profile
  · exact if_pos (Nat.not_le.mp room)

theorem existing_block_plain {buf : Bytes} (plain : ¬ Extended buf) :
    existingBlock buf = some (AscendingMap.empty, 0) := if_neg plain

/-- What a reader of the whole header sees of a block, a writer starts from. -/
theorem existing_block_read {buf : Bytes} {exts : Extensions} {stop : Nat}
    (extended : Extended buf) (room : fixedHeaderEnd buf + 4 ≤ buf.length)
    (seen : readExtensionBlock buf (fixedHeaderEnd buf) = (stop, some exts)) :
    existingBlock buf = some (exts, stop - fixedHeaderEnd buf) := by
  have fields := extended_fields_room extended room
  rw [seen] at fields
  have values : (parsedFields buf).extensions = some exts := congrArg Prod.snd fields
  have stops : (parsedFields buf).headerLength = stop := congrArg Prod.fst fields
  rw [parsed_extensions] at values
  split_ifs at values with whole
  have block : WholeBlock buf := ⟨whole.1, whole.2⟩
  cases values
  rw [existing_block_whole block, ← stops, block.header_length, blockEnd, Nat.add_assoc,
    Nat.add_sub_cancel_left]

theorem existing_block_stampable {buf : Bytes} (stampable : Stampable buf) :
    ∃ existing extBlockLen, existingBlock buf = some (existing, extBlockLen) ∧
      (∀ entry ∈ existing.entries, CarriedElement entry) ∧
      (∀ id, existing.get id = extensionValue (parsedFields buf).extensions id) ∧
      fixedHeaderEnd buf + extBlockLen = (parsedFields buf).headerLength := by
  by_cases extended : Extended buf
  · have block := stampable extended
    refine ⟨_, _, existing_block_whole block, parsed_entries_carried _, ?_, ?_⟩
    · intro id
      rw [block.extensions]
      rfl
    · rw [block.header_length, blockEnd, Nat.add_assoc]
  · have fields := extended_fields_plain fun both => extended both.1
    refine ⟨AscendingMap.empty, 0, existing_block_plain extended, by simp [AscendingMap.empty], ?_, ?_⟩
    · intro id
      change _ = extensionValue (extendedFields buf).2 id
      rw [fields]
      rfl
    · change _ = (extendedFields buf).1
      rw [fields, Nat.add_zero]

theorem extension_bit {b0 : Nat} (byte : b0 < 256) :
    b0 ||| 0x10 < 256 ∧ (b0 ||| 0x10) / 32 = b0 / 32 ∧ (b0 ||| 0x10) % 16 = b0 % 16 ∧
      (b0 ||| 0x10) / 16 % 2 = 1 := by
  have all : ∀ byte : Fin 256, (byte.val ||| 0x10) < 256 ∧
      (byte.val ||| 0x10) / 32 = byte.val / 32 ∧ (byte.val ||| 0x10) % 16 = byte.val % 16 ∧
      (byte.val ||| 0x10) / 16 % 2 = 1 := by
    decide +kernel
  exact all ⟨b0, byte⟩

theorem copy_front (memory : Nat → Byte) {buf : Bytes} {count : Nat}
    (inside : count ≤ buf.length) : copyFront memory buf count = buf.take count := by
  rw [copyFront, Nat.sub_eq_zero_of_le inside, List.range'_zero, List.map_nil, List.append_nil]

theorem set_header_extensions_rebuilt (memory : Nat → Byte) {buf : Bytes} (parseable : Parseable buf)
    (stampable : Stampable buf) {stamps : Extensions} (nonempty : stamps.entries ≠ [])
    (valid : ∀ entry ∈ stamps.entries, ValidElement entry) :
    ∃ exts block, writeExtensions exts = .ok block ∧
      (∀ entry ∈ exts.entries, CarriedElement entry) ∧
      (∀ id, exts.get id =
        (stamps.get id).or (extensionValue (parsedFields buf).extensions id)) ∧
      setHeaderExtensions memory buf (stamps.entries.map fun entry => ((entry.1 : Int), entry.2)) =
        .ok (rebuilt buf (readBE 1 buf 0 ||| 0x10) block
          (buf.drop (parsedFields buf).headerLength)) := by
  obtain ⟨existing, extBlockLen, decoded, existingCarried, values, ends⟩ :=
    existing_block_stampable stampable
  have carried : ∀ entry ∈ (stamps.entries.foldl (fun map entry => map.insert entry.1 entry.2)
      existing).entries, CarriedElement entry := by
    intro entry member
    cases AscendingMap.mem_foldl_insert member with
    | inl stamp => exact (valid entry stamp).carried
    | inr old => exact existingCarried entry old
  have added : ¬ 0 + stamps.entries.length = 0 := by
    have positive := List.length_pos_iff.mpr nonempty
    omega
  obtain ⟨words, padding, _, _, written⟩ := write_extensions_ok carried
  refine ⟨_, _, written, carried, ?_, ?_⟩
  · intro id
    rw [AscendingMap.get_foldl_entries, values]
  · rw [setHeaderExtensions, if_neg (Nat.not_lt.mpr parseable.long)]
    simp only [decoded, add_extensions_valid valid]
    rw [if_neg fun both => added both.1, writeAround, written, ← ends]
    change Except.ok (store 0 _ (copyFront memory buf (fixedHeaderEnd buf)) ++ _ ++ _) = _
    rw [copy_front memory parseable.sources]
    rfl

/-- What a stamp changes in a packet. -/
structure Stamps (stamps : Extensions) (buf out : Bytes) (before after : ParsedPacket) : Prop where
  extensions : ∃ exts, after.extensions = some exts ∧ ∀ id,
    exts.get id = (stamps.get id).or (extensionValue before.extensions id)
  header : SameHeader before after
  payload : after.payload = before.payload
  first : readBE 1 out 0 = readBE 1 buf 0 ||| 0x10
  front : ∀ index, 1 ≤ index → index < fixedHeaderEnd buf → out[index]? = buf[index]?

/-- The given extensions are set, all others stay, and so does the rest of the packet. -/
theorem set_header_extensions_stamps (memory : Nat → Byte) {buf : Bytes} {before : ParsedPacket}
    (parses : parse buf = some before) (stampable : Stampable buf) {stamps : Extensions}
    (nonempty : stamps.entries ≠ []) (valid : ∀ entry ∈ stamps.entries,
      1 ≤ entry.1 ∧ entry.1 ≤ 14 ∧ 1 ≤ entry.2.length ∧ entry.2.length ≤ 16) :
    ∃ out, setHeaderExtensions memory buf
        (stamps.entries.map fun entry => ((entry.1 : Int), entry.2)) = .ok out ∧
      ∃ after, parse out = some after ∧ Stamps stamps buf out before after := by
  obtain ⟨parseable, rfl⟩ := parse_eq_some_iff.mp parses
  obtain ⟨exts, block, written, carried, values, rebuiltHere⟩ :=
    set_header_extensions_rebuilt memory parseable stampable nonempty valid
  obtain ⟨small, flags, count, extended⟩ := extension_bit (read_be_lt 1 buf 0)
  obtain ⟨after, afterParses, header, extensions, payload⟩ := parse_rebuilt_block parseable block
    (buf.drop (parsedFields buf).headerLength) small flags count extended carried written
  refine ⟨_, rebuiltHere, after, afterParses, ⟨exts, extensions, values⟩, header, ?_, ?_, ?_⟩
  · rw [payload, parseable.payload]
  · exact read_rebuilt_first parseable.sources block _ small
  · exact (rebuilt_front parseable.sources block _ small flags count).front

def freshStamps : Extensions := (AscendingMap.empty.insert 2 [9]).insert 7 [1, 2]

theorem set_header_extensions_two :
    ∃ out, setHeaderExtensions (fun _ => 0) twoExtensions [(2, [9]), (7, [1, 2])] = .ok out ∧
      ∃ after, parse out = some after ∧
        Stamps freshStamps twoExtensions out (parsedFields twoExtensions) after :=
  @set_header_extensions_stamps _ _ _ (parse_eq_some (by decide))
    (fun _ => ⟨⟨by decide, by decide, by decide⟩, by decide⟩) freshStamps (by decide) (by decide)

end RtpPacket.Rtp
