import RtpPacket.Rtp.Stamping

/-!
# Header extensions set one at a time

`setHeaderExtensions` merges a map of values in one pass where `setHeaderExtension` is called
once per entry, each call writing the packet anew. A call that finds the sources cut off leaves
bytes of its new buffer unwritten, and then the two part.
-/

namespace RtpPacket.Rtp

open ByteCodec Stores

set_option autoImplicit false

abbrev SetStep := (Nat → Byte) × (Int × Bytes)

def setEach (packet : Bytes) (steps : List SetStep) : Except String Bytes :=
  steps.foldlM (fun packet step => setHeaderExtension step.1 packet step.2.1 step.2.2) packet

/-- An entry that the one-byte form can carry. -/
def ValidEntry (entry : Int × Bytes) : Prop :=
  1 ≤ entry.1 ∧ entry.1 ≤ 14 ∧ 1 ≤ entry.2.length ∧ entry.2.length ≤ 16

instance (entry : Int × Bytes) : Decidable (ValidEntry entry) := inferInstanceAs (Decidable (_ ∧ _))

/-- The sources are cut off, and no X bit sends the packet through the checks of a block. -/
def Truncated (packet : Bytes) : Prop :=
  12 ≤ packet.length ∧ ¬ Extended packet ∧ packet.length < fixedHeaderEnd packet

instance (packet : Bytes) : Decidable (Truncated packet) := inferInstanceAs (Decidable (_ ∧ _))

/-- Neither parses, or both do and differ in the header length at most. -/
def ParseAlike (left right : Bytes) : Prop :=
  (parse left).map (fun parsed => { parsed with headerLength := 0 }) =
    (parse right).map fun parsed => { parsed with headerLength := 0 }

/-- The single pass against one call for each entry in any order. -/
structure BatchAlike (packet : Bytes) (entries : List (Int × Bytes)) : Prop where
  each : (∃ entry ∈ entries, ValidEntry entry) →
    ∀ memory, ∀ steps : List SetStep, (steps.map Prod.snd).Perm entries →
      ∃ out, setHeaderExtensions memory packet entries = .ok out ∧ setEach packet steps = .ok out
  none : (∀ entry ∈ entries, ¬ ValidEntry entry) →
    ∀ memory, ∃ out, setHeaderExtensions memory packet entries = .ok out ∧ ParseAlike packet out

def mergeEntry (exts : Extensions) (entry : Int × Bytes) : Extensions :=
  if ValidEntry entry then exts.insert entry.1.toNat entry.2 else exts

theorem add_extension_merge (existing : Extensions × Nat) (entry : Int × Bytes) :
    addExtension existing entry = (mergeEntry existing.1 entry,
      existing.2 + if ValidEntry entry then 1 else 0) := by
  rw [addExtension, mergeEntry]
  by_cases valid : ValidEntry entry
  · obtain ⟨low, high, filled, short⟩ := valid
    rw [if_neg (by omega), if_neg (by omega), if_pos ⟨low, high, filled, short⟩,
      if_pos ⟨low, high, filled, short⟩]
  · rw [if_neg valid, if_neg valid]
    rw [ValidEntry] at valid
    split_ifs
    · rfl
    · rfl
    · omega

theorem add_extensions_merge (entries : List (Int × Bytes)) (existing : Extensions × Nat) :
    entries.foldl addExtension existing =
      (entries.foldl mergeEntry existing.1, existing.2 + entries.countP (ValidEntry ·)) := by
  induction entries generalizing existing with
  | nil => rfl
  | cons entry rest ih =>
      rw [List.foldl_cons, List.foldl_cons, ih, add_extension_merge, List.countP_cons]
      simp only [decide_eq_true_eq, Nat.add_assoc, Nat.add_comm (List.countP _ _)]

theorem merge_entry_comm {left right : Int × Bytes} (apart : left.1 ≠ right.1)
    (exts : Extensions) :
    mergeEntry (mergeEntry exts left) right = mergeEntry (mergeEntry exts right) left := by
  simp only [mergeEntry]
  split_ifs with rightValid leftValid
  · obtain ⟨leftLow, _⟩ := leftValid
    obtain ⟨rightLow, _⟩ := rightValid
    exact exts.insert_comm (by omega) left.2 right.2
  · rfl
  · rfl
  · rfl

/-- Entries of distinct identifiers can be merged in any order. -/
theorem merge_entries_perm {entries order : List (Int × Bytes)} (perm : order.Perm entries)
    (distinct : (entries.map Prod.fst).Nodup) (exts : Extensions) :
    order.foldl mergeEntry exts = entries.foldl mergeEntry exts := by
  have orderDistinct := (perm.map Prod.fst).nodup_iff.mpr distinct
  apply perm.foldl_eq'
  intro left leftMember right rightMember exts
  by_cases same : left.1 = right.1
  · rw [List.inj_on_of_nodup_map orderDistinct leftMember rightMember same]
  · exact merge_entry_comm same exts

theorem merge_entry_carried {exts : Extensions}
    (carried : ∀ entry ∈ exts.entries, CarriedElement entry) (entry : Int × Bytes) :
    ∀ merged ∈ (mergeEntry exts entry).entries, CarriedElement merged := by
  intro merged member
  rw [mergeEntry] at member
  split_ifs at member with valid
  · cases AscendingMap.mem_insert member with
    | inl here =>
        obtain ⟨low, high, filled, short⟩ := valid
        rw [here]
        refine ⟨?_, filled, short, ?_⟩
        · change entry.1.toNat ≤ 14
          omega
        · change entry.1.toNat = 0 → _
          omega
    | inr old => exact carried merged old
  · exact carried merged member

theorem merge_entries_carried (entries : List (Int × Bytes)) {exts : Extensions}
    (carried : ∀ entry ∈ exts.entries, CarriedElement entry) :
    ∀ merged ∈ (entries.foldl mergeEntry exts).entries, CarriedElement merged := by
  induction entries generalizing exts with
  | nil => exact carried
  | cons entry rest ih => exact ih (merge_entry_carried carried entry)

def flagged (memory : Nat → Byte) (packet : Bytes) : Bytes :=
  store 0 (encodeBE 1 (readBE 1 packet 0 ||| 0x10))
    (copyFront memory packet (fixedHeaderEnd packet))

def framed (front : Bytes) (exts : Extensions) (tail : Bytes) : Except String Bytes :=
  (writeExtensions exts).map fun block => front ++ block ++ tail

theorem write_around_framed (memory : Nat → Byte) (packet : Bytes) (exts : Extensions)
    (extBlockLen : Nat) : writeAround memory packet exts extBlockLen =
      framed (flagged memory packet) exts (packet.drop (fixedHeaderEnd packet + extBlockLen)) := by
  rw [writeAround, framed]
  cases writeExtensions exts <;> rfl

theorem set_header_extension_valid (memory : Nat → Byte) {packet : Bytes}
    (long : 12 ≤ packet.length) {exts : Extensions} {extBlockLen : Nat}
    (decoded : existingBlock packet = some (exts, extBlockLen)) {entry : Int × Bytes}
    (valid : ValidEntry entry) :
    setHeaderExtension memory packet entry.1 entry.2 =
      framed (flagged memory packet) (mergeEntry exts entry)
        (packet.drop (fixedHeaderEnd packet + extBlockLen)) := by
  obtain ⟨low, high, filled, short⟩ := valid
  rw [setHeaderExtension, if_neg (by omega), if_neg (by omega), if_neg (by omega), decoded,
    mergeEntry, if_pos ⟨low, high, filled, short⟩]
  exact write_around_framed memory packet _ extBlockLen

theorem set_header_extension_invalid (memory : Nat → Byte) (packet : Bytes) {entry : Int × Bytes}
    (invalid : ¬ ValidEntry entry) :
    setHeaderExtension memory packet entry.1 entry.2 = .ok packet := by
  rw [ValidEntry] at invalid
  rw [setHeaderExtension]
  split_ifs
  · rfl
  · rfl
  · rfl
  · omega

/-- A front that announces a block and ends where it starts. -/
structure Front (front : Bytes) : Prop where
  extended : Extended front
  length : front.length = fixedHeaderEnd front

theorem copy_front_length (memory : Nat → Byte) (packet : Bytes) (count : Nat) :
    (copyFront memory packet count).length = count := by
  rw [copyFront, List.length_append, List.length_take, List.length_map, List.length_range']
  omega

theorem flagged_length (memory : Nat → Byte) (packet : Bytes) :
    (flagged memory packet).length = fixedHeaderEnd packet := by
  have copied := copy_front_length memory packet (fixedHeaderEnd packet)
  rw [flagged, stored_length, copied]
  rw [copied, fixedHeaderEnd]
  omega

theorem flagged_first (memory : Nat → Byte) (packet : Bytes) :
    readBE 1 (flagged memory packet) 0 = readBE 1 packet 0 ||| 0x10 := by
  have copied := copy_front_length memory packet (fixedHeaderEnd packet)
  have small := (extension_bit (read_be_lt 1 packet 0)).1
  rw [flagged, read_stored, pow_one, Nat.mod_eq_of_lt small]
  rw [copied, fixedHeaderEnd]
  omega

theorem flagged_front (memory : Nat → Byte) (packet : Bytes) : Front (flagged memory packet) := by
  obtain ⟨_, _, count, extended⟩ := extension_bit (read_be_lt 1 packet 0)
  constructor
  · rw [Extended, flagged_first]
    exact extended
  · rw [flagged_length, fixedHeaderEnd, fixedHeaderEnd, flagged_first, count]

section Framed

variable {front : Bytes} (ready : Front front) {exts : Extensions} {block : Bytes} (tail : Bytes)

include ready

theorem Front.read_first : readBE 1 (front ++ block ++ tail) 0 = readBE 1 front 0 := by
  have length := ready.length
  rw [fixedHeaderEnd] at length
  rw [List.append_assoc, read_be_append_left _ (by omega)]

theorem Front.fixed_header_end : fixedHeaderEnd (front ++ block ++ tail) = front.length := by
  rw [fixedHeaderEnd, ready.read_first, ready.length, fixedHeaderEnd]

theorem Front.flagged (memory : Nat → Byte) : flagged memory (front ++ block ++ tail) = front := by
  have length := ready.length
  rw [fixedHeaderEnd] at length
  have set : readBE 1 front 0 ||| 0x10 = readBE 1 front 0 := by
    have all : ∀ byte : Fin 256, byte.val / 16 % 2 = 1 → byte.val ||| 0x10 = byte.val := by
      decide +kernel
    exact all ⟨readBE 1 front 0, read_be_lt 1 front 0⟩ ready.extended
  rw [Rtp.flagged, ready.fixed_header_end, ready.read_first, set, copy_front,
    List.append_assoc, List.take_left]
  · exact store_read (by omega)
  · rw [List.append_assoc, List.length_append]
    omega

variable (carried : ∀ entry ∈ exts.entries, CarriedElement entry)
  (written : writeExtensions exts = .ok block)

include carried written

/-- A written block is decoded to what was written. -/
theorem Front.existing_block :
    existingBlock (front ++ block ++ tail) = some (exts, block.length) := by
  obtain ⟨words, padding, wordRange, size, shape⟩ := write_extensions_ok carried
  cases written.symm.trans shape
  have values : parseExtensions
      (exts.entries.flatMap extensionElement ++ List.replicate padding 0) = exts := by
    rw [parseExtensions, parse_extension_elements _ carried, AscendingMap.foldl_insert_entries]
  have seen := read_extension_block front wordRange size tail
  rw [values, ← List.append_assoc] at seen
  have extended : Extended (front ++ (encodeBE 2 profileOneByte ++ encodeBE 2 words ++
      (exts.entries.flatMap extensionElement ++ List.replicate padding 0)) ++ tail) := by
    rw [Extended, ready.read_first]
    exact ready.extended
  rw [← ready.fixed_header_end tail] at seen
  rw [existing_block_read extended _ seen, ready.fixed_header_end]
  · simp only [List.length_append, encode_be_length]
    congr 2
    omega
  · rw [ready.fixed_header_end]
    simp only [List.length_append, encode_be_length]
    omega

/-- One more call writes the merged block into the same place. -/
theorem Front.set_header_extension (memory : Nat → Byte) {entry : Int × Bytes}
    (valid : ValidEntry entry) :
    setHeaderExtension memory (front ++ block ++ tail) entry.1 entry.2 =
      framed front (mergeEntry exts entry) tail := by
  have length := ready.length
  rw [fixedHeaderEnd] at length
  have long : 12 ≤ (front ++ block ++ tail).length := by
    simp only [List.length_append]
    omega
  rw [set_header_extension_valid memory long (ready.existing_block tail carried written) valid,
    ready.flagged, ready.fixed_header_end, ← List.length_append, List.drop_left]

end Framed

theorem framed_ok (front : Bytes) {exts : Extensions} (tail : Bytes)
    (carried : ∀ entry ∈ exts.entries, CarriedElement entry) :
    ∃ block, writeExtensions exts = .ok block ∧
      framed front exts tail = .ok (front ++ block ++ tail) := by
  obtain ⟨words, padding, _, _, written⟩ := write_extensions_ok carried
  refine ⟨_, written, ?_⟩
  rw [framed, written]
  rfl

theorem set_each_framed {front : Bytes} (ready : Front front) (tail : Bytes)
    (steps : List SetStep) {exts : Extensions} {block : Bytes}
    (carried : ∀ entry ∈ exts.entries, CarriedElement entry)
    (written : writeExtensions exts = .ok block) :
    setEach (front ++ block ++ tail) steps =
      framed front ((steps.map Prod.snd).foldl mergeEntry exts) tail := by
  induction steps generalizing exts block with
  | nil =>
      change Except.ok _ = framed front exts tail
      rw [framed, written]
      rfl
  | cons step rest ih =>
      rw [setEach, List.foldlM_cons, List.map_cons, List.foldl_cons]
      by_cases valid : ValidEntry step.2
      · have mergedCarried := merge_entry_carried carried step.2
        obtain ⟨_, rewritten, assembled⟩ := framed_ok front tail mergedCarried
        rw [ready.set_header_extension tail carried written step.1 valid, assembled]
        exact ih mergedCarried rewritten
      · rw [set_header_extension_invalid step.1 _ valid, mergeEntry, if_neg valid]
        exact ih carried written

/-- The first call with a valid entry writes the packet anew. -/
theorem set_each_block {packet : Bytes} (long : 12 ≤ packet.length) {exts : Extensions}
    {extBlockLen : Nat} (decoded : existingBlock packet = some (exts, extBlockLen))
    (carried : ∀ entry ∈ exts.entries, CarriedElement entry)
    (sources : fixedHeaderEnd packet ≤ packet.length) (memory : Nat → Byte) {steps : List SetStep}
    (filled : ∃ entry ∈ steps.map Prod.snd, ValidEntry entry) :
    setEach packet steps =
      framed (flagged memory packet) ((steps.map Prod.snd).foldl mergeEntry exts)
        (packet.drop (fixedHeaderEnd packet + extBlockLen)) := by
  induction steps with
  | nil => simp at filled
  | cons step rest ih =>
      rw [setEach, List.foldlM_cons, List.map_cons, List.foldl_cons]
      by_cases valid : ValidEntry step.2
      · have mergedCarried := merge_entry_carried carried step.2
        obtain ⟨_, rewritten, assembled⟩ := framed_ok (flagged memory packet)
          (packet.drop (fixedHeaderEnd packet + extBlockLen)) mergedCarried
        have same : flagged step.1 packet = flagged memory packet := by
          rw [flagged, flagged, copy_front _ sources, copy_front _ sources]
        rw [set_header_extension_valid step.1 long decoded valid, same, assembled]
        exact set_each_framed (flagged_front memory packet) _ rest mergedCarried rewritten
      · rw [set_header_extension_invalid step.1 _ valid, mergeEntry, if_neg valid]
        apply ih
        rw [List.map_cons] at filled
        obtain ⟨entry, member, entryValid⟩ := filled
        cases List.mem_cons.mp member with
        | inl here => exact absurd (here ▸ entryValid) valid
        | inr later => exact ⟨entry, later, entryValid⟩

theorem set_header_extensions_merged (memory : Nat → Byte) {packet : Bytes}
    (long : 12 ≤ packet.length) {exts : Extensions} {extBlockLen : Nat}
    (decoded : existingBlock packet = some (exts, extBlockLen)) (entries : List (Int × Bytes)) :
    setHeaderExtensions memory packet entries =
      if entries.countP (ValidEntry ·) = 0 ∧ ¬ Extended packet then .ok packet
      else framed (flagged memory packet) (entries.foldl mergeEntry exts)
        (packet.drop (fixedHeaderEnd packet + extBlockLen)) := by
  rw [setHeaderExtensions, if_neg (Nat.not_lt.mpr long), decoded]
  simp only [add_extensions_merge, Nat.zero_add, write_around_framed]
  rfl

theorem set_each_unchanged {packet : Bytes}
    (unchanged : packet.length < 12 ∨ existingBlock packet = none) (steps : List SetStep) :
    setEach packet steps = .ok packet := by
  have one : ∀ memory id data, setHeaderExtension memory packet id data = .ok packet := by
    intro memory id data
    rw [setHeaderExtension]
    cases unchanged with
    | inl short => exact if_pos short
    | inr refused =>
        rw [refused]
        split_ifs
        all_goals rfl
  induction steps with
  | nil => rfl
  | cons step rest ih =>
      rw [setEach, List.foldlM_cons, one]
      exact ih

theorem unchanged_alike {packet : Bytes}
    (unchanged : packet.length < 12 ∨ existingBlock packet = none)
    (entries : List (Int × Bytes)) : BatchAlike packet entries := by
  have batch : ∀ memory, setHeaderExtensions memory packet entries = .ok packet := by
    intro memory
    rw [setHeaderExtensions]
    cases unchanged with
    | inl short => exact if_pos short
    | inr refused =>
        rw [refused]
        exact ite_self _
  constructor
  · intro _ memory steps _
    exact ⟨packet, batch memory, set_each_unchanged unchanged steps⟩
  · intro _ memory
    exact ⟨packet, batch memory, rfl⟩

/-- A block that can be read is inside the packet, and so are the sources. -/
theorem existing_block_inside {packet : Bytes} (whole : ¬ Truncated packet)
    (long : 12 ≤ packet.length) {exts : Extensions} {extBlockLen : Nat}
    (decoded : existingBlock packet = some (exts, extBlockLen)) :
    (∀ entry ∈ exts.entries, CarriedElement entry) ∧ fixedHeaderEnd packet ≤ packet.length := by
  by_cases extended : Extended packet
  · by_cases block : WholeBlock packet
    · rw [existing_block_whole block] at decoded
      cases decoded
      have room := block.room
      exact ⟨parsed_entries_carried _, by omega⟩
    · rw [existing_block_refused extended block] at decoded
      cases decoded
  · rw [existing_block_plain extended] at decoded
    cases decoded
    refine ⟨by simp [AscendingMap.empty], ?_⟩
    by_contra short
    exact whole ⟨long, extended, Nat.not_le.mp short⟩

theorem SameHeader.apart_length {before after : ParsedPacket} (header : SameHeader before after)
    (extension : after.extension = before.extension) (payload : after.payload = before.payload)
    (extensions : after.extensions = before.extensions) :
    { before with headerLength := 0 } = { after with headerLength := 0 } := by
  rw [ParsedPacket.mk.injEq]
  exact ⟨header.version.symm, header.padding.symm, extension.symm, header.csrcCount.symm,
    header.marker.symm, header.payloadType.symm, header.sequenceNumber.symm,
    header.timestamp.symm, header.ssrc.symm, header.csrc.symm, payload.symm, rfl,
    extensions.symm⟩

/-- Rewriting the block that a packet has leaves what is parsed of it. -/
theorem rewritten_parse_alike {packet : Bytes} (block : WholeBlock packet) (memory : Nat → Byte) :
    ∃ out, framed (flagged memory packet) (parseExtensions (blockData packet))
        (packet.drop (blockEnd packet)) = .ok out ∧ ParseAlike packet out := by
  have carried := parsed_entries_carried (blockData packet)
  have sources : fixedHeaderEnd packet ≤ packet.length := by
    have room := block.room
    omega
  obtain ⟨written, writes, assembled⟩ := framed_ok (flagged memory packet)
    (packet.drop (blockEnd packet)) carried
  refine ⟨_, assembled, ?_⟩
  obtain ⟨small, flags, count, extended⟩ := extension_bit (read_be_lt 1 packet 0)
  have shape : flagged memory packet ++ written ++ packet.drop (blockEnd packet) =
      rebuilt packet (readBE 1 packet 0 ||| 0x10) written (packet.drop (blockEnd packet)) := by
    rw [flagged, copy_front memory sources, rebuilt]
  have first := read_rebuilt_first sources written (packet.drop (blockEnd packet)) small
  rw [ParseAlike, shape]
  by_cases parseable : Parseable packet
  · obtain ⟨after, parses, header, extensions, payload⟩ := parse_rebuilt_block parseable
      written (packet.drop (blockEnd packet)) small flags count extended carried writes
    have extension : after.extension = (parsedFields packet).extension := by
      rw [(parse_eq_some_iff.mp parses).2]
      change decide (Extended _) = decide (Extended packet)
      apply decide_eq_decide.mpr
      exact iff_of_true (by rw [Extended, first, extended]) block.extended
    rw [parses, parse_eq_some parseable, Option.map_some, Option.map_some]
    apply congrArg some
    apply header.apart_length extension
    · rw [payload, parseable.payload, block.header_length]
    · rw [extensions, block.extensions]
  · -- Only the version can be wrong, and it stays.
    have version : ¬ readBE 1 packet 0 / 64 % 4 = 2 := by
      intro version
      refine parseable ⟨?_, version, sources⟩
      rw [fixedHeaderEnd] at sources
      omega
    rw [parse_eq, parse_eq, if_neg parseable, if_neg]
    intro rewritten
    have same := rewritten.version
    rw [first] at same
    omega

theorem some_entry_counted {entries : List (Int × Bytes)}
    (valid : ∃ entry ∈ entries, ValidEntry entry) : entries.countP (ValidEntry ·) ≠ 0 := by
  obtain ⟨entry, member, entryValid⟩ := valid
  exact Nat.ne_of_gt (List.countP_pos_iff.mpr ⟨entry, member, decide_eq_true entryValid⟩)

theorem merge_invalid {entries : List (Int × Bytes)}
    (invalid : ∀ entry ∈ entries, ¬ ValidEntry entry) (exts : Extensions) :
    entries.foldl mergeEntry exts = exts := by
  induction entries with
  | nil => rfl
  | cons entry rest ih =>
      rw [List.foldl_cons, mergeEntry, if_neg (invalid entry List.mem_cons_self)]
      exact ih fun other member => invalid other (List.mem_cons_of_mem _ member)

/-- The byte behind a packet whose sources are cut off is what the memory held. -/
theorem unwritten_byte {packet : Bytes} (cut : Truncated packet) {entries : List (Int × Bytes)}
    (valid : ∃ entry ∈ entries, ValidEntry entry) (memory : Nat → Byte) :
    ∃ out, setHeaderExtensions memory packet entries = .ok out ∧
      out[packet.length]? = some (memory packet.length) := by
  obtain ⟨long, plain, short⟩ := cut
  have carried := merge_entries_carried entries
    (show ∀ entry ∈ (AscendingMap.empty : Extensions).entries, CarriedElement entry by
      simp [AscendingMap.empty])
  obtain ⟨block, _, assembled⟩ := framed_ok (flagged memory packet)
    (packet.drop (fixedHeaderEnd packet + 0)) carried
  have one := encode_be_length 1 (readBE 1 packet 0 ||| 0x10)
  have copied := copy_front_length memory packet (fixedHeaderEnd packet)
  refine ⟨flagged memory packet ++ block ++ packet.drop (fixedHeaderEnd packet + 0), ?_, ?_⟩
  · rw [set_header_extensions_merged memory long (existing_block_plain plain),
      if_neg fun both => some_entry_counted valid both.1]
    exact assembled
  · rw [List.append_assoc, List.getElem?_append_left (by rwa [flagged_length]), flagged,
      get_store_outside (by omega) (by omega), copyFront,
      List.take_of_length_le (Nat.le_of_lt short), List.getElem?_append_right (le_refl _),
      Nat.sub_self, List.getElem?_map, List.getElem?_range' (by omega)]
    rfl

theorem sources_cut {packet : Bytes} (cut : Truncated packet) {entries : List (Int × Bytes)}
    (valid : ∃ entry ∈ entries, ValidEntry entry) : ¬ BatchAlike packet entries := by
  intro alike
  have order : ((entries.map fun entry => ((fun _ => 0, entry) : SetStep)).map Prod.snd).Perm
      entries := by
    rw [List.map_map]
    exact List.Perm.of_eq (List.map_id entries)
  have held : ∀ value, ∃ out, setEach packet (entries.map fun entry => (fun _ => 0, entry)) =
      .ok out ∧ out[packet.length]? = some value := by
    intro value
    obtain ⟨out, batch, byte⟩ := unwritten_byte cut valid fun _ => value
    obtain ⟨same, again, each⟩ := alike.each valid (fun _ => value) _ order
    cases batch.symm.trans again
    exact ⟨out, each, byte⟩
  obtain ⟨out, each, zero⟩ := held 0
  obtain ⟨same, again, one⟩ := held 1
  cases each.symm.trans again
  cases zero.symm.trans one

/-- The calls one by one write what the single pass writes, and a pass that sets nothing leaves
what is parsed, unless an entry is set on a packet whose sources are cut off. -/
theorem batch_alike_iff (packet : Bytes) {entries : List (Int × Bytes)}
    (distinct : (entries.map Prod.fst).Nodup) :
    BatchAlike packet entries ↔ ¬ (Truncated packet ∧ ∃ entry ∈ entries, ValidEntry entry) := by
  constructor
  · intro alike both
    exact sources_cut both.1 both.2 alike
  · intro apart
    by_cases short : packet.length < 12
    · exact unchanged_alike (Or.inl short) entries
    have long := Nat.not_lt.mp short
    cases decoded : existingBlock packet with
    | none => exact unchanged_alike (Or.inr decoded) entries
    | some existing =>
        obtain ⟨exts, extBlockLen⟩ := existing
        constructor
        · intro valid memory steps order
          obtain ⟨carried, sources⟩ :=
            existing_block_inside (fun cut => apart ⟨cut, valid⟩) long decoded
          obtain ⟨block, _, assembled⟩ := framed_ok (flagged memory packet)
            (packet.drop (fixedHeaderEnd packet + extBlockLen))
            (merge_entries_carried entries carried)
          have filled : ∃ entry ∈ steps.map Prod.snd, ValidEntry entry := by
            obtain ⟨entry, member, entryValid⟩ := valid
            exact ⟨entry, order.mem_iff.mpr member, entryValid⟩
          refine ⟨flagged memory packet ++ block ++
            packet.drop (fixedHeaderEnd packet + extBlockLen), ?_, ?_⟩
          · rw [set_header_extensions_merged memory long decoded,
              if_neg fun both => some_entry_counted valid both.1]
            exact assembled
          · rw [set_each_block long decoded carried sources memory filled,
              merge_entries_perm order distinct]
            exact assembled
        · intro invalid memory
          rw [set_header_extensions_merged memory long decoded, merge_invalid invalid]
          by_cases extended : Extended packet
          · rw [if_neg fun both => both.2 extended]
            have block : WholeBlock packet := by
              by_contra cut
              rw [existing_block_refused extended cut] at decoded
              cases decoded
            rw [existing_block_whole block] at decoded
            cases decoded
            rw [← Nat.add_assoc]
            exact rewritten_parse_alike block memory
          · have nothing : entries.countP (ValidEntry ·) = 0 :=
              List.countP_eq_zero.mpr fun entry member valid =>
                invalid entry member (of_decide_eq_true valid)
            rw [if_pos ⟨nothing, extended⟩]
            exact ⟨packet, rfl, rfl⟩

theorem batch_alike_two_extensions : BatchAlike twoExtensions [(2, [9]), (15, []), (7, [1, 2])] :=
  (batch_alike_iff twoExtensions (by decide)).mpr fun both => absurd both.1 (by decide)

def cutSources : Bytes := [0x81, 0x60, 0, 1, 0, 0, 0, 0, 0, 0, 0, 7]

theorem batch_differs_on_cut_sources :
    ¬ ∀ (packet : Bytes) (entries : List (Int × Bytes)), (entries.map Prod.fst).Nodup →
      BatchAlike packet entries := by
  intro always
  exact sources_cut (show Truncated cutSources by decide) ⟨(1, [5]), by decide, by decide⟩
    (always cutSources [(1, [5])] (by decide))

end RtpPacket.Rtp
