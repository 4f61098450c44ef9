import RtpPacket.Lib.AscendingMap
import RtpPacket.Rtp.Packetizer

/-!
# Serializing and parsing RTP packets

`serialize` writes a packet object, `parse` reads a buffer back. Header extensions
travel as a block of one-byte-header elements, padded to whole words. Nothing but
the block's own length marks where the payload starts, and nothing but each
element's length marks where the next one starts.
-/

namespace RtpPacket.Rtp

open ByteCodec Word

set_option autoImplicit false

def profileOneByte : Nat := 0xBEDE

/-- Extension values by identifier, an object with integer keys. -/
abbrev Extensions := AscendingMap Bytes

/-- What `serialize` reads; an absent payload is an empty one. -/
structure PacketObject where
  payloadType : Int
  sequenceNumber : Int
  timestamp : Int
  ssrc : Int
  marker : Bool
  padding : Bool
  extensions : Option Extensions
  csrc : List Int
  payload : Bytes

structure ParsedPacket where
  version : Nat
  padding : Bool
  extension : Bool
  csrcCount : Nat
  marker : Bool
  payloadType : Nat
  sequenceNumber : Nat
  timestamp : Nat
  ssrc : Nat
  csrc : List Nat
  payload : Bytes
  headerLength : Nat
  extensions : Option Extensions

def extensionElement (entry : Nat × Bytes) : Bytes :=
  byteAt ((entry.1 &&& 0x0F) <<< 4 ||| ((entry.2.length - 1) &&& 0x0F)) 0 :: entry.2

def checkExtension (entry : Nat × Bytes) : Except String Unit :=
  if entry.2.length < 1 ∨ entry.2.length > 16 then
    .error s!"writeExtensions: extension id {entry.1} data length {entry.2.length
      } out of range [1, 16]"
  else .ok ()

def writeExtensions (exts : Extensions) : Except String Bytes := do
  exts.entries.forM checkExtension
  let elements := exts.entries.flatMap extensionElement
  let paddedSize := (elements.length + 3) / 4 * 4
  return encodeBE 2 profileOneByte ++ encodeBE 2 (paddedSize / 4) ++
    (elements ++ List.replicate (paddedSize - elements.length) 0)

def parseExtensionsFrom (exts : Extensions) : Bytes → Extensions
  | [] => exts
  | head :: rest =>
      if head = 0 then parseExtensionsFrom exts rest
      else
        let id := head.toNat / 16
        let len := head.toNat % 16 + 1
        if id = 15 then exts
        else if rest.length < len then exts
        else parseExtensionsFrom (exts.insert id (rest.take len)) (rest.drop len)
termination_by extData => extData.length

def parseExtensions (extData : Bytes) : Extensions :=
  parseExtensionsFrom AscendingMap.empty extData

/-- The block that goes between the sources and the payload; an empty object has none. -/
def extensionBlock (pkt : PacketObject) : Except String (Option Bytes) :=
  match pkt.extensions with
  | none => .ok none
  | some exts => if exts.entries.isEmpty then .ok none else some <$> writeExtensions exts

def serialize (pkt : PacketObject) : Except String Bytes := do
  let extBlock ← extensionBlock pkt
  let b0 := rtpVersion <<< 6 ||| (if pkt.padding then 1 else 0) <<< 5 |||
    (if extBlock.isSome then 0x10 else 0) ||| (pkt.csrc.length &&& 0x0F)
  let b1 := (if pkt.marker then 1 else 0) <<< 7 ||| wrapUnsigned 7 pkt.payloadType
  return byteAt b0 0 :: byteAt b1 0 ::
    (encodeBE 2 (wrapUnsigned 16 pkt.sequenceNumber) ++
      encodeBE 4 (wrapUnsigned 32 pkt.timestamp) ++
      encodeBE 4 (wrapUnsigned 32 pkt.ssrc) ++
      pkt.csrc.flatMap (fun source => encodeBE 4 (wrapUnsigned 32 source)) ++
      extBlock.getD [] ++ pkt.payload)

/-- Where the payload starts once the extension bit is read, and what the block holds. -/
def readExtensionBlock (buf : Bytes) (headerLen : Nat) : Nat × Option Extensions :=
  let profile := readBE 2 buf headerLen
  let extLen := readBE 2 buf (headerLen + 2) * 4
  let extDataStart := headerLen + 4
  let extDataEnd := extDataStart + extLen
  (if extDataEnd ≤ buf.length then extDataEnd else buf.length,
    if profile = 0xBEDE ∧ extDataEnd ≤ buf.length then
      some (parseExtensions ((buf.take extDataEnd).drop extDataStart))
    else none)

/-- An extension bit with no room for a block is ignored. -/
def extendedHeader (buf : Bytes) (extension : Bool) (headerLen : Nat) : Nat × Option Extensions :=
  if extension ∧ buf.length ≥ headerLen + 4 then readExtensionBlock buf headerLen
  else (headerLen, none)

/-- A pad count that reaches outside the payload is ignored. -/
def payloadEnd (buf : Bytes) (padding : Bool) (headerLen : Nat) : Nat :=
  if padding ∧ buf.length > headerLen then
    let padLen := readBE 1 buf (buf.length - 1)
    if padLen ≥ 1 ∧ headerLen + padLen ≤ buf.length then buf.length - padLen else buf.length
  else buf.length

def parse (buf : Bytes) : Option ParsedPacket :=
  if buf.length < 12 then none
  else
    let b0 := readBE 1 buf 0
    let b1 := readBE 1 buf 1
    let version := b0 / 64 % 4
    let padding := b0 / 32 % 2 = 1
    let extension := b0 / 16 % 2 = 1
    let csrcCount := b0 % 16
    let headerLen := 12 + csrcCount * 4
    if version ≠ rtpVersion then none
    else if buf.length < headerLen then none
    else
      let extended := extendedHeader buf extension headerLen
      some
        { version := version
          padding := padding
          extension := extension
          csrcCount := csrcCount
          marker := b1 / 128 % 2 = 1
          payloadType := b1 % 128
          sequenceNumber := readBE 2 buf 2
          timestamp := readBE 4 buf 4
          ssrc := readBE 4 buf 8
          csrc := (List.range csrcCount).map fun index => readBE 4 buf (12 + index * 4)
          payload := (buf.take (payloadEnd buf padding extended.1)).drop extended.1
          headerLength := extended.1
          extensions := extended.2 }

def fixedHeader (b0 b1 seq timestamp ssrc : Nat) : Bytes :=
  encodeBE 1 b0 ++ (encodeBE 1 b1 ++ (encodeBE 2 seq ++ (encodeBE 4 timestamp ++ encodeBE 4 ssrc)))

@[simp] theorem fixed_header_length (b0 b1 seq timestamp ssrc : Nat) :
    (fixedHeader b0 b1 seq timestamp ssrc).length = 12 := by
  simp [fixedHeader]

def headerBytes (extension : Bool) (b1 seq timestamp ssrc : Nat) (csrc : List Nat) : Bytes :=
  fixedHeader ((if extension then 144 else 128) + csrc.length) b1 seq timestamp ssrc ++
    csrc.flatMap (encodeBE 4)

theorem header_bytes_length (extension : Bool) (b1 seq timestamp ssrc : Nat) (csrc : List Nat) :
    (headerBytes extension b1 seq timestamp ssrc csrc).length = 12 + csrc.length * 4 := by
  rw [headerBytes, List.length_append, fixed_header_length, encode_many_length, Nat.mul_comm]

theorem parse_header_bytes (extension : Bool) {b1 : Nat} (seq timestamp ssrc : Nat)
    {csrc : List Nat} (count : csrc.length < 16) (b1Range : b1 < 256) {buf rest : Bytes}
    (layout : headerBytes extension b1 seq timestamp ssrc csrc ++ rest = buf) :
    parse buf = some
      { version := 2
        padding := false
        extension := extension
        csrcCount := csrc.length
        marker := b1 / 128 = 1
        payloadType := b1 % 128
        sequenceNumber := seq % 2 ^ 16
        timestamp := timestamp % 2 ^ 32
        ssrc := ssrc % 2 ^ 32
        csrc := csrc.map (· % 2 ^ 32)
        payload := buf.drop (extendedHeader buf extension (12 + csrc.length * 4)).1
        headerLength := (extendedHeader buf extension (12 + csrc.length * 4)).1
        extensions := (extendedHeader buf extension (12 + csrc.length * 4)).2 } := by
  obtain ⟨b0, flags⟩ : ∃ b0, b0 = (if extension then 144 else 128) + csrc.length := ⟨_, rfl⟩
  have size : buf.length = 12 + csrc.length * 4 + rest.length := by
    rw [← layout, List.length_append, header_bytes_length]
  rw [headerBytes, ← flags, List.append_assoc] at layout
  have first : readBE 1 buf 0 = b0 := by
    simp only [← layout, fixedHeader, List.append_assoc]
    rw [read_be_encode, Nat.mod_eq_of_lt]
    split_ifs at flags <;> omega
  have second : readBE 1 buf 1 = b1 := by
    simp only [← layout, fixedHeader, List.append_assoc]
    rw [read_be_skip 1 1 _ _ 0, read_be_encode]
    exact Nat.mod_eq_of_lt b1Range
  have sequenceNumber : readBE 2 buf 2 = seq % 2 ^ 16 := by
    simp only [← layout, fixedHeader, List.append_assoc]
    rw [read_be_skip 2 1 _ _ 1, read_be_skip 2 1 _ _ 0, read_be_encode]
    rfl
  have time : readBE 4 buf 4 = timestamp % 2 ^ 32 := by
    simp only [← layout, fixedHeader, List.append_assoc]
    rw [read_be_skip 4 1 _ _ 3, read_be_skip 4 1 _ _ 2, read_be_skip 4 2 _ _ 0, read_be_encode]
    norm_num
  have source : readBE 4 buf 8 = ssrc % 2 ^ 32 := by
    simp only [← layout, fixedHeader, List.append_assoc]
    rw [read_be_skip 4 1 _ _ 7, read_be_skip 4 1 _ _ 6, read_be_skip 4 2 _ _ 4,
      read_be_skip 4 4 _ _ 0, read_be_encode]
    norm_num
  have sources : ((List.range csrc.length).map fun index => readBE 4 buf (12 + index * 4)) =
      csrc.map (· % 2 ^ 32) := by
    have behind (index : Nat) : readBE 4 buf (12 + index * 4) =
        readBE 4 (csrc.flatMap (encodeBE 4) ++ rest) (index * 4) := by
      rw [← layout]
      exact read_be_past (fixed_header_length b0 b1 seq timestamp ssrc) _ _
    simp only [behind]
    exact read_be_many 4 csrc rest
  have version : b0 / 64 % 4 = 2 := by
    split_ifs at flags <;> omega
  have padding : ¬ b0 / 32 % 2 = 1 := by
    split_ifs at flags <;> omega
  have announced : (b0 / 16 % 2 = 1) ↔ extension = true := by
    cases extension <;> simp at flags <;> simp <;> omega
  have counted : b0 % 16 = csrc.length := by
    split_ifs at flags <;> omega
  have flag : b1 / 128 % 2 = b1 / 128 := by omega
  rw [parse, if_neg (by omega)]
  simp only [first, second, sequenceNumber, time, source, counted, sources, version, padding,
    announced, flag]
  rw [if_neg (by decide), if_neg (by omega)]
  simp [payloadEnd]

theorem parse_plain {b1 : Nat} (seq timestamp ssrc : Nat) {csrc : List Nat}
    (count : csrc.length < 16) (b1Range : b1 < 256) (payload : Bytes) :
    parse (headerBytes false b1 seq timestamp ssrc csrc ++ payload) = some
      { version := 2
        padding := false
        extension := false
        csrcCount := csrc.length
        marker := b1 / 128 = 1
        payloadType := b1 % 128
        sequenceNumber := seq % 2 ^ 16
        timestamp := timestamp % 2 ^ 32
        ssrc := ssrc % 2 ^ 32
        csrc := csrc.map (· % 2 ^ 32)
        payload := payload
        headerLength := 12 + csrc.length * 4
        extensions := none } := by
  have plain (buf : Bytes) : extendedHeader buf false (12 + csrc.length * 4) =
      (12 + csrc.length * 4, none) := by simp [extendedHeader]
  have past : (headerBytes false b1 seq timestamp ssrc csrc ++ payload).drop
      (12 + csrc.length * 4) = payload := List.drop_left' (header_bytes_length ..)
  rw [parse_header_bytes false seq timestamp ssrc count b1Range rfl, plain, past]

theorem second_byte_read (marker : Bool) {payloadType : Nat} (small : payloadType < 128) :
    (if marker then 128 else 0) + payloadType < 256 ∧
      decide (((if marker then 128 else 0) + payloadType) / 128 = 1) = marker ∧
      ((if marker then 128 else 0) + payloadType) % 128 = payloadType := by
  cases marker with
  | false =>
      simp only [Bool.false_eq_true, if_false, Nat.zero_add, decide_eq_false_iff_not]
      exact ⟨by omega, by omega, Nat.mod_eq_of_lt small⟩
  | true =>
      simp only [if_true, decide_eq_true_eq]
      exact ⟨by omega, by omega, by omega⟩

/-- Identifiers and lengths that the one-byte form can carry. -/
def ValidElement (entry : Nat × Bytes) : Prop :=
  1 ≤ entry.1 ∧ entry.1 ≤ 14 ∧ 1 ≤ entry.2.length ∧ entry.2.length ≤ 16

/-- What the form carries at all: identifier 0 stays apart from padding by a second byte. -/
def CarriedElement (entry : Nat × Bytes) : Prop :=
  entry.1 ≤ 14 ∧ 1 ≤ entry.2.length ∧ entry.2.length ≤ 16 ∧ (entry.1 = 0 → 2 ≤ entry.2.length)

theorem ValidElement.carried {entry : Nat × Bytes} (valid : ValidElement entry) :
    CarriedElement entry := by
  obtain ⟨positive, small, filled, short⟩ := valid
  exact ⟨small, filled, short, by omega⟩

theorem extension_element_head {entry : Nat × Bytes} (carried : CarriedElement entry) :
    (byteAt ((entry.1 &&& 0x0F) <<< 4 ||| ((entry.2.length - 1) &&& 0x0F)) 0).toNat =
      entry.1 * 16 + (entry.2.length - 1) := by
  obtain ⟨idRange, _, lengthRange, _⟩ := carried
  have id : entry.1 &&& 0x0F = entry.1 := by
    rw [Nat.and_two_pow_sub_one_eq_mod _ 4]
    omega
  have length : (entry.2.length - 1) &&& 0x0F = entry.2.length - 1 := by
    rw [Nat.and_two_pow_sub_one_eq_mod _ 4]
    omega
  have small : entry.2.length - 1 < 2 ^ 4 := by omega
  rw [id, length, byte_at_to_nat, ← Nat.shiftLeft_add_eq_or_of_lt small, Nat.shiftLeft_eq]
  omega

theorem parse_extension_element (exts : Extensions) {entry : Nat × Bytes}
    (carried : CarriedElement entry) (rest : Bytes) :
    parseExtensionsFrom exts (extensionElement entry ++ rest) =
      parseExtensionsFrom (exts.insert entry.1 entry.2) rest := by
  have head := extension_element_head carried
  obtain ⟨idRange, lengthPositive, lengthRange, apart⟩ := carried
  have nonzero : byteAt ((entry.1 &&& 0x0F) <<< 4 ||| ((entry.2.length - 1) &&& 0x0F)) 0 ≠ 0 := by
    intro zero
    rw [zero] at head
    simp at head
    omega
  have id : (entry.1 * 16 + (entry.2.length - 1)) / 16 = entry.1 := by omega
  have length : (entry.1 * 16 + (entry.2.length - 1)) % 16 + 1 = entry.2.length := by omega
  rw [extensionElement, List.cons_append, parseExtensionsFrom, if_neg nonzero]
  simp only [head, id, length]
  rw [if_neg (by omega), if_neg (by simp), List.take_left, List.drop_left]

theorem parse_extension_elements (exts : Extensions) {entries : List (Nat × Bytes)}
    (carried : ∀ entry ∈ entries, CarriedElement entry) (padding : Nat) :
    parseExtensionsFrom exts (entries.flatMap extensionElement ++ List.replicate padding 0) =
      entries.foldl (fun map entry => map.insert entry.1 entry.2) exts := by
  induction entries generalizing exts with
  | nil =>
      induction padding with
      | zero => simp [parseExtensionsFrom]
      | succ padding ih =>
          simp only [List.flatMap_nil, List.nil_append, List.foldl_nil] at ih
          simp [List.replicate_succ, parseExtensionsFrom, ih]
  | cons entry rest ih =>
      rw [List.flatMap_cons, List.append_assoc,
        parse_extension_element exts (carried entry List.mem_cons_self), List.foldl_cons]
      exact ih _ fun other member => carried other (List.mem_cons_of_mem _ member)

theorem extension_elements_length {entries : List (Nat × Bytes)}
    (carried : ∀ entry ∈ entries, CarriedElement entry) :
    (entries.flatMap extensionElement).length ≤ 17 * entries.length := by
  induction entries with
  | nil => simp
  | cons entry rest ih =>
      have one := (carried entry List.mem_cons_self).2.2.1
      have later := ih fun other member => carried other (List.mem_cons_of_mem _ member)
      rw [List.flatMap_cons, List.length_append, extensionElement, List.length_cons,
        List.length_cons]
      omega

theorem extension_count {exts : Extensions}
    (carried : ∀ entry ∈ exts.entries, CarriedElement entry) :
    exts.entries.length ≤ 15 := by
  have distinct : (exts.entries.map Prod.fst).Nodup :=
    (List.pairwise_map.mpr exts.ascending).imp (fun below => Nat.ne_of_lt below)
  have inside : exts.entries.map Prod.fst ⊆ List.range 15 := by
    intro id member
    obtain ⟨entry, entryMember, rfl⟩ := List.mem_map.mp member
    have small := (carried entry entryMember).1
    exact List.mem_range.mpr (by omega)
  have counted := (distinct.subperm inside).length_le
  simpa using counted

theorem check_extensions_ok {entries : List (Nat × Bytes)}
    (carried : ∀ entry ∈ entries, CarriedElement entry) : entries.forM checkExtension = .ok () := by
  induction entries with
  | nil => rfl
  | cons entry rest ih =>
      obtain ⟨_, low, high, _⟩ := carried entry List.mem_cons_self
      have passes : checkExtension entry = .ok () := if_neg (by omega)
      rw [List.forM, passes]
      exact ih fun other member => carried other (List.mem_cons_of_mem _ member)

theorem write_extensions_ok {exts : Extensions}
    (carried : ∀ entry ∈ exts.entries, CarriedElement entry) :
    ∃ words padding, words < 65536 ∧
      (exts.entries.flatMap extensionElement ++ List.replicate padding 0).length = words * 4 ∧
      writeExtensions exts = .ok (encodeBE 2 profileOneByte ++ encodeBE 2 words ++
        (exts.entries.flatMap extensionElement ++ List.replicate padding 0)) := by
  have checked := check_extensions_ok carried
  have count := extension_count carried
  have length := extension_elements_length carried
  refine ⟨((exts.entries.flatMap extensionElement).length + 3) / 4,
    ((exts.entries.flatMap extensionElement).length + 3) / 4 * 4 -
      (exts.entries.flatMap extensionElement).length, by omega, ?_, ?_⟩
  · rw [List.length_append, List.length_replicate]
    omega
  · rw [writeExtensions, checked]
    simp only [Nat.mul_div_cancel _ (show 0 < 4 by decide)]
    rfl

theorem read_extension_block (pre : Bytes) {data : Bytes} {words : Nat} (wordRange : words < 65536)
    (size : data.length = words * 4) (payload : Bytes) :
    readExtensionBlock
        (pre ++ (encodeBE 2 profileOneByte ++ encodeBE 2 words ++ data ++ payload)) pre.length =
      (pre.length + 4 + data.length, some (parseExtensions data)) := by
  have layout : pre ++ (encodeBE 2 profileOneByte ++ encodeBE 2 words ++ data ++ payload) =
      pre ++ (encodeBE 2 profileOneByte ++ (encodeBE 2 words ++ (data ++ payload))) := by
    simp only [List.append_assoc]
  obtain ⟨buf, whole⟩ : ∃ buf, pre ++ (encodeBE 2 profileOneByte ++ (encodeBE 2 words ++
    (data ++ payload))) = buf := ⟨_, rfl⟩
  have profile : readBE 2 buf pre.length = 0xBEDE := by
    rw [← whole]
    exact (read_be_append_right 2 pre _ 0).trans (read_be_encode 2 profileOneByte _)
  have length : readBE 2 buf (pre.length + 2) = words := by
    rw [← whole, read_be_append_right, read_be_skip 2 2 _ _ 0, read_be_encode]
    exact Nat.mod_eq_of_lt wordRange
  have inside : pre.length + 4 + words * 4 ≤ buf.length := by
    rw [← whole]
    simp only [List.length_append, encode_be_length]
    omega
  have elements : (buf.take (pre.length + 4 + words * 4)).drop (pre.length + 4) = data := by
    have grouped : buf = (pre ++ encodeBE 2 profileOneByte ++ encodeBE 2 words) ++
        (data ++ payload) := by
      simp only [← whole, List.append_assoc]
    have behind : (pre ++ encodeBE 2 profileOneByte ++ encodeBE 2 words).length =
        pre.length + 4 := by simp
    rw [List.drop_take, grouped, List.drop_left' behind, Nat.add_sub_cancel_left]
    exact List.take_left' size
  rw [layout, whole, readExtensionBlock]
  simp only [profile, length, inside, elements, if_true, and_self, size]

/-- A packet with a written block parses to the map it was written from. -/
theorem parse_extended {b1 : Nat} (seq timestamp ssrc : Nat) {csrc : List Nat}
    (count : csrc.length < 16) (b1Range : b1 < 256) {exts : Extensions}
    (carried : ∀ entry ∈ exts.entries, CarriedElement entry) (payload : Bytes) :
    ∃ block, writeExtensions exts = .ok block ∧
      parse (headerBytes true b1 seq timestamp ssrc csrc ++ (block ++ payload)) = some
        { version := 2
          padding := false
          extension := true
          csrcCount := csrc.length
          marker := b1 / 128 = 1
          payloadType := b1 % 128
          sequenceNumber := seq % 2 ^ 16
          timestamp := timestamp % 2 ^ 32
          ssrc := ssrc % 2 ^ 32
          csrc := csrc.map (· % 2 ^ 32)
          payload := payload
          headerLength := 12 + csrc.length * 4 + block.length
          extensions := some exts } := by
  obtain ⟨words, padding, wordRange, size, written⟩ := write_extensions_ok carried
  refine ⟨_, written, ?_⟩
  obtain ⟨data, elements⟩ : ∃ data, exts.entries.flatMap extensionElement ++
    List.replicate padding 0 = data := ⟨_, rfl⟩
  have values : parseExtensions data = exts := by
    rw [parseExtensions, ← elements, parse_extension_elements _ carried,
      AscendingMap.foldl_insert_entries]
  obtain ⟨pre, header⟩ : ∃ pre, headerBytes true b1 seq timestamp ssrc csrc = pre := ⟨_, rfl⟩
  have length : pre.length = 12 + csrc.length * 4 := by
    rw [← header, header_bytes_length]
  have blockLength : (encodeBE 2 profileOneByte ++ encodeBE 2 words ++ data).length =
      4 + data.length := by
    simp only [List.length_append, encode_be_length]
  have block := read_extension_block pre wordRange (elements ▸ size) payload
  have extended : extendedHeader
      (pre ++ (encodeBE 2 profileOneByte ++ encodeBE 2 words ++ data ++ payload)) true
      (12 + csrc.length * 4) = (12 + csrc.length * 4 + (4 + data.length), some exts) := by
    rw [extendedHeader, if_pos, ← length, block, values, Nat.add_assoc]
    refine ⟨rfl, ?_⟩
    rw [List.length_append, List.length_append, blockLength]
    omega
  have past : (pre ++ (encodeBE 2 profileOneByte ++ encodeBE 2 words ++ data ++ payload)).drop
      (12 + csrc.length * 4 + (4 + data.length)) = payload := by
    rw [← List.append_assoc]
    apply List.drop_left'
    rw [List.length_append, blockLength, length]
  rw [elements, blockLength, parse_header_bytes true seq timestamp ssrc count b1Range rfl, header,
    extended, past]

theorem flag_byte (padding extension : Bool) {count : Nat} (small : count < 16) :
    rtpVersion <<< 6 ||| (if padding then 1 else 0) <<< 5 |||
      (if extension then 0x10 else 0) ||| (count &&& 0x0F) =
      (if padding then 32 else 0) + ((if extension then 144 else 128) + count) := by
  have kept : count &&& 0x0F = count := by
    rw [Nat.and_two_pow_sub_one_eq_mod _ 4]
    omega
  have joined (high : Nat) := Nat.two_pow_add_eq_or_of_lt (show count < 2 ^ 4 from small) high
  rw [kept]
  cases padding with
  | false =>
      cases extension with
      | false => exact ((joined 8).symm.trans (Nat.zero_add _).symm)
      | true => exact ((joined 9).symm.trans (Nat.zero_add _).symm)
  | true =>
      cases extension with
      | false => exact (joined 10).symm.trans (Nat.add_assoc 32 128 count)
      | true => exact (joined 11).symm.trans (Nat.add_assoc 32 144 count)

theorem marker_byte (marker : Bool) {payloadType : Nat} (small : payloadType < 128) :
    (if marker then 1 else 0) <<< 7 ||| payloadType =
      (if marker then 128 else 0) + payloadType := by
  cases marker with
  | false => simp
  | true => exact (Nat.two_pow_add_eq_or_of_lt (show payloadType < 2 ^ 7 from small) 1).symm

theorem serialize_bytes {pkt : PacketObject} {extBlock : Option Bytes}
    (written : extensionBlock pkt = .ok extBlock) (count : pkt.csrc.length < 16) :
    serialize pkt = .ok
      (fixedHeader ((if pkt.padding then 32 else 0) +
          ((if extBlock.isSome then 144 else 128) + pkt.csrc.length))
        ((if pkt.marker then 128 else 0) + wrapUnsigned 7 pkt.payloadType)
        (wrapUnsigned 16 pkt.sequenceNumber) (wrapUnsigned 32 pkt.timestamp)
        (wrapUnsigned 32 pkt.ssrc) ++
          ((pkt.csrc.map (wrapUnsigned 32)).flatMap (encodeBE 4) ++
            (extBlock.getD [] ++ pkt.payload))) := by
  have first := flag_byte pkt.padding extBlock.isSome count
  have second := marker_byte pkt.marker (wrap_unsigned_lt 7 pkt.payloadType)
  rw [serialize, written]
  change Except.ok _ = _
  apply congrArg Except.ok
  rw [first, second, fixedHeader, List.flatMap_map]
  simp only [encodeBE, Nat.mul_zero, List.append_assoc, List.cons_append, List.nil_append]

theorem serialize_layout {pkt : PacketObject} {extBlock : Option Bytes}
    (written : extensionBlock pkt = .ok extBlock) (count : pkt.csrc.length < 16)
    (padding : pkt.padding = false) :
    serialize pkt = .ok
      (headerBytes extBlock.isSome
        ((if pkt.marker then 128 else 0) + wrapUnsigned 7 pkt.payloadType)
        (wrapUnsigned 16 pkt.sequenceNumber) (wrapUnsigned 32 pkt.timestamp)
        (wrapUnsigned 32 pkt.ssrc) (pkt.csrc.map (wrapUnsigned 32)) ++
        (extBlock.getD [] ++ pkt.payload)) := by
  rw [serialize_bytes written count, padding, headerBytes, List.length_map, List.append_assoc,
    if_neg Bool.false_ne_true, Nat.zero_add]

theorem extension_block_none {pkt : PacketObject}
    (empty : pkt.extensions.filter (fun exts => !exts.entries.isEmpty) = none) :
    extensionBlock pkt = .ok none := by
  unfold extensionBlock
  cases present : pkt.extensions with
  | none => rfl
  | some exts =>
      have none : exts.entries = [] := by simpa [present] using empty
      simp [none]

theorem extension_block_some {pkt : PacketObject} {exts : Extensions} {block : Bytes}
    (kept : pkt.extensions.filter (fun exts => !exts.entries.isEmpty) = some exts)
    (written : writeExtensions exts = .ok block) : extensionBlock pkt = .ok (some block) := by
  obtain ⟨present, nonempty⟩ := Option.filter_eq_some_iff.mp kept
  unfold extensionBlock
  rw [present]
  simp only [Bool.not_eq_true'] at nonempty
  simp [nonempty, written]

/-- A packet object without padding survives the wire, up to the width of each field. -/
theorem parse_serialize (pkt : PacketObject)
    (payloadType : 0 ≤ pkt.payloadType ∧ pkt.payloadType ≤ 127) (count : pkt.csrc.length ≤ 15)
    (padding : pkt.padding = false)
    (valid : ∀ exts ∈ pkt.extensions, ∀ entry ∈ exts.entries,
      1 ≤ entry.1 ∧ entry.1 ≤ 14 ∧ 1 ≤ entry.2.length ∧ entry.2.length ≤ 16) :
    ∃ buf, serialize pkt = .ok buf ∧ ∃ parsed, parse buf = some parsed ∧
      parsed.marker = pkt.marker ∧
      parsed.payloadType = pkt.payloadType ∧
      parsed.sequenceNumber = pkt.sequenceNumber % 2 ^ 16 ∧
      parsed.timestamp = pkt.timestamp % 2 ^ 32 ∧
      parsed.ssrc = pkt.ssrc % 2 ^ 32 ∧
      parsed.csrc.map (fun source : Nat => (source : Int)) = pkt.csrc.map (· % 2 ^ 32) ∧
      parsed.payload = pkt.payload ∧
      parsed.extensions = pkt.extensions.filter (fun exts => !exts.entries.isEmpty) := by
  obtain ⟨b1Range, markerBack, typeRead⟩ :=
    second_byte_read pkt.marker (wrap_unsigned_lt 7 pkt.payloadType)
  obtain ⟨b1, second⟩ : ∃ b1, b1 =
    (if pkt.marker then 128 else 0) + wrapUnsigned 7 pkt.payloadType := ⟨_, rfl⟩
  rw [← second] at b1Range markerBack typeRead
  have typeBack : ((b1 % 128 : Nat) : Int) = pkt.payloadType := by
    rw [typeRead, wrap_unsigned_cast]
    omega
  have countRange : (pkt.csrc.map (wrapUnsigned 32)).length < 16 := by
    rw [List.length_map]
    omega
  have sources : ((pkt.csrc.map (wrapUnsigned 32)).map (· % 2 ^ 32)).map
      (fun source : Nat => (source : Int)) = pkt.csrc.map (· % 2 ^ 32) := by
    rw [List.map_map, List.map_map]
    apply List.map_congr_left
    intro source _
    rw [Function.comp_apply, Function.comp_apply, wrap_unsigned_mod, wrap_unsigned_cast]
  have fields (width : Nat) (value : Int) :
      ((wrapUnsigned width value % 2 ^ width : Nat) : Int) = value % 2 ^ width := by
    rw [wrap_unsigned_mod, wrap_unsigned_cast]
  -- The block is there exactly when the map holds an entry.
  by_cases empty : pkt.extensions.filter (fun exts => !exts.entries.isEmpty) = none
  · have written := extension_block_none empty
    refine ⟨_, serialize_layout written (by omega) padding, _,
      parse_plain _ _ _ countRange (second ▸ b1Range) _, ?_⟩
    rw [← second, empty]
    exact ⟨markerBack, typeBack, fields 16 _, fields 32 _, fields 32 _, sources, rfl, rfl⟩
  · obtain ⟨exts, kept⟩ := Option.ne_none_iff_exists'.mp empty
    have present := (Option.filter_eq_some_iff.mp kept).1
    obtain ⟨block, written, parsed⟩ := parse_extended (wrapUnsigned 16 pkt.sequenceNumber)
      (wrapUnsigned 32 pkt.timestamp) (wrapUnsigned 32 pkt.ssrc) countRange b1Range
      (fun entry member => ValidElement.carried (valid exts present entry member)) pkt.payload
    have filled := extension_block_some kept written
    refine ⟨_, serialize_layout filled (by omega) padding, _, second ▸ parsed, ?_⟩
    rw [← second, kept]
    exact ⟨markerBack, typeBack, fields 16 _, fields 32 _, fields 32 _, sources, rfl, rfl⟩

def stampedPacket : PacketObject where
  payloadType := 96
  sequenceNumber := 70000
  timestamp := -1
  ssrc := 7
  marker := true
  padding := false
  extensions := some ((AscendingMap.empty.insert 3 [0, 0]).insert 14 [5])
  csrc := [2 ^ 32 + 9]
  payload := [0, 0xBE, 0xDE]

theorem parse_serialize_stamped :
    ∃ buf, serialize stampedPacket = .ok buf ∧ ∃ parsed, parse buf = some parsed ∧
      parsed.sequenceNumber = (4464 : Int) ∧ parsed.timestamp = (4294967295 : Int) ∧
      parsed.payload = stampedPacket.payload ∧
      parsed.extensions = stampedPacket.extensions := by
  obtain ⟨buf, written, parsed, read, _, _, seq, timestamp, _, _, payload, extensions⟩ :=
    parse_serialize stampedPacket (by decide) (by decide) rfl (by decide)
  exact ⟨buf, written, parsed, read, seq, timestamp, payload, extensions⟩

end RtpPacket.Rtp
