import RtpPacket.Rtp.Extensions
import RtpPacket.Rtp.PayloadOffset

/-!
# Renaming header extensions in place

A forwarder writes other identifiers over the ones of a block and zeroes the elements that
have none. The rewriter takes a terminator for one more element to zero, so that what a
reader does not see behind it comes to light.
-/

namespace RtpPacket.Rtp

open Associations ByteCodec Stores Word

set_option autoImplicit false

/-- An object from our identifiers to theirs. -/
abbrev IdMap := Nat → Option Int

def remapElements (idMap : IdMap) : Bytes → Bytes
  | [] => []
  | b :: rest =>
      if b = 0 then 0 :: remapElements idMap rest
      else
        let len := b.toNat % 16 + 1
        match idMap (b.toNat / 16) with
        | some mapped =>
            byteAt (wrapUnsigned 4 mapped * 16 + b.toNat % 16) 0 ::
              (rest.take len ++ remapElements idMap (rest.drop len))
        | none =>
            0 :: (List.replicate (min len rest.length) 0 ++ remapElements idMap (rest.drop len))
termination_by data => data.length

def remapExtensionIds (buf : Bytes) (idMap : Option IdMap) : Bytes × Int :=
  let start := payloadOffset buf
  if start < 0 then (buf, -1)
  else
    match idMap with
    | none => (buf, start)
    | some idMap =>
        if ¬ readBE 1 buf 0 / 16 % 2 = 1 then (buf, start)
        else
          let blockStart := 12 + readBE 1 buf 0 % 16 * 4
          if blockStart + 4 > buf.length then (buf, start)
          else if readBE 2 buf blockStart ≠ 0xBEDE then (buf, start)
          else
            let stop := min (blockStart + 4 + readBE 2 buf (blockStart + 2) * 4) buf.length
            (buf.take (blockStart + 4) ++
              remapElements idMap ((buf.take stop).drop (blockStart + 4)) ++ buf.drop stop, start)

/-- All elements up to one that is cut off, terminators among them. -/
def walked : Bytes → List (Nat × Bytes)
  | [] => []
  | head :: rest =>
      if head = 0 then walked rest
      else
        let len := head.toNat % 16 + 1
        if rest.length < len then []
        else (head.toNat / 16, rest.take len) :: walked (rest.drop len)
termination_by data => data.length

theorem walked_padding (rest : Bytes) : walked (0 :: rest) = walked rest := by
  rw [walked, if_pos rfl]

theorem walked_cut {head : Byte} {rest : Bytes} (nonzero : head ≠ 0)
    (short : rest.length < head.toNat % 16 + 1) : walked (head :: rest) = [] := by
  rw [walked, if_neg nonzero]
  exact if_pos short

theorem walked_element {head : Byte} {rest : Bytes} (nonzero : head ≠ 0)
    (whole : ¬ rest.length < head.toNat % 16 + 1) :
    walked (head :: rest) = (head.toNat / 16, rest.take (head.toNat % 16 + 1)) ::
      walked (rest.drop (head.toNat % 16 + 1)) := by
  rw [walked, if_neg nonzero]
  exact if_neg whole

/-- A reader sees what comes before the first terminator. -/
theorem elements_walked (data : Bytes) :
    elements data = (walked data).takeWhile (·.1 ≠ 15) := by
  fun_induction elements data with
  | case1 => simp [walked]
  | case2 rest ih => rw [walked_padding, ih]
  | case3 head rest nonzero id terminator =>
      by_cases short : rest.length < head.toNat % 16 + 1
      · rw [walked_cut nonzero short, List.takeWhile_nil]
      · rw [walked_element nonzero short, List.takeWhile_cons_of_neg]
        simpa using terminator
  | case4 head rest nonzero id len element short =>
      rw [walked_cut nonzero short, List.takeWhile_nil]
  | case5 head rest nonzero id len element whole ih =>
      rw [walked_element nonzero whole, List.takeWhile_cons_of_pos (by simpa using element), ih]

def hidden (data : Bytes) : List (Nat × Bytes) := (walked data).dropWhile (·.1 ≠ 15)

theorem walked_split (data : Bytes) : walked data = elements data ++ hidden data := by
  rw [elements_walked, hidden, List.takeWhile_append_dropWhile]

theorem remap_length (idMap : IdMap) (data : Bytes) :
    (remapElements idMap data).length = data.length := by
  fun_induction remapElements idMap data with
  | case1 => rfl
  | case2 rest ih => rw [List.length_cons, ih, List.length_cons]
  | case3 b rest nonzero len mapped found ih =>
      rw [List.length_cons, List.length_append, ih, ← List.length_append, List.take_append_drop,
        List.length_cons]
  | case4 b rest nonzero len unmapped ih =>
      rw [List.length_cons, List.length_append, ih, List.length_replicate, List.length_drop,
        List.length_cons]
      omega

/-- Distinct identifiers of the one-byte form for some of ours. -/
structure Renaming where
  target : Nat → Option Nat
  sources : ∀ id newId, target id = some newId → 1 ≤ id ∧ id ≤ 14
  targets : ∀ id newId, target id = some newId → 1 ≤ newId ∧ newId ≤ 14
  injective : ∀ left right newId, target left = some newId → target right = some newId →
    left = right

def Renaming.idMap (names : Renaming) : IdMap :=
  fun id => (names.target id).map fun newId : Nat => (newId : Int)

theorem elements_zeros (count : Nat) (rest : Bytes) :
    elements (List.replicate count 0 ++ rest) = elements rest := by
  induction count with
  | zero => rfl
  | succ count ih => rw [List.replicate_succ, List.cons_append, elements_padding, ih]

theorem renamed_head {newId len : Nat} (low : 1 ≤ newId) (high : newId ≤ 14) (short : len < 16) :
    byteAt (wrapUnsigned 4 newId * 16 + len) 0 ≠ 0 ∧
      (byteAt (wrapUnsigned 4 newId * 16 + len) 0).toNat / 16 = newId ∧
      (byteAt (wrapUnsigned 4 newId * 16 + len) 0).toNat % 16 = len := by
  have id : wrapUnsigned 4 newId = newId := wrap_unsigned_of_lt (by omega)
  have byte : (byteAt (wrapUnsigned 4 newId * 16 + len) 0).toNat = newId * 16 + len := by
    rw [byte_at_low, id]
    omega
  refine ⟨?_, by omega, by omega⟩
  intro zero
  rw [zero] at byte
  simp at byte
  omega

/-- Afterwards a reader sees everything that was walked over, renamed. -/
theorem elements_remapped (names : Renaming) (data : Bytes) :
    elements (remapElements names.idMap data) = renamed names.target (walked data) := by
  fun_induction remapElements names.idMap data with
  | case1 => simp [elements, walked, renamed]
  | case2 rest ih => rw [elements_padding, walked_padding, ih]
  | case3 b rest nonzero len mapped found ih =>
      obtain ⟨newId, target, rfl⟩ := Option.map_eq_some_iff.mp found
      obtain ⟨low, high⟩ := names.targets _ _ target
      obtain ⟨head, id, length⟩ := renamed_head low high (Nat.mod_lt b.toNat (by decide : 0 < 16))
      have size : (rest.take len ++ remapElements names.idMap (rest.drop len)).length =
          rest.length := by
        rw [List.length_append, remap_length, ← List.length_append, List.take_append_drop]
      by_cases short : rest.length < len
      · rw [walked_cut nonzero short, elements_stop head (Or.inr (by rwa [size, length]))]
        rfl
      · rw [walked_element nonzero short, elements_element head (by omega) (by rwa [size, length]),
          id, length, renamed_cons_of_some target, List.take_left', List.drop_left', ih]
        all_goals exact List.length_take_of_le (Nat.not_lt.mp short)
  | case4 b rest nonzero len unmapped ih =>
      rw [elements_padding, elements_zeros, ih]
      by_cases short : rest.length < len
      · rw [walked_cut nonzero short, List.drop_of_length_le short.le]
        simp [walked]
      · rw [walked_element nonzero short,
          renamed_cons_of_none (Option.map_eq_none_iff.mp unmapped)]

theorem remap_of_block {buf : Bytes} (parseable : Parseable buf) (block : WholeBlock buf)
    (idMap : IdMap) :
    remapExtensionIds buf (some idMap) =
      (store (fixedHeaderEnd buf + 4) (remapElements idMap (blockData buf)) buf,
        ((parsedFields buf).headerLength : Int)) := by
  have nonneg : ¬ ((parsedFields buf).headerLength : Int) < 0 := by omega
  rw [remapExtensionIds, payload_offset_eq, if_pos parseable]
  refine (if_neg nonneg).trans ?_
  refine (if_neg (not_not.mpr block.extended)).trans ?_
  refine (if_neg (Nat.not_lt.mpr block.room)).trans ?_
  refine (if_neg (not_not.mpr block.profile)).trans ?_
  change (_ ++ remapElements idMap ((buf.take (min (blockEnd buf) buf.length)).drop _) ++
    buf.drop (min (blockEnd buf) buf.length), _) = _
  rw [Nat.min_eq_left block.complete, store, remap_length, block.data_length]
  rfl

namespace WholeBlock

variable {buf data : Bytes}

theorem store_data (block : WholeBlock buf) (size : data.length = (blockData buf).length) :
    SameFront buf (store (fixedHeaderEnd buf + 4) data buf) ∧
      WholeBlock (store (fixedHeaderEnd buf + 4) data buf) ∧
      blockEnd (store (fixedHeaderEnd buf + 4) data buf) = blockEnd buf ∧
      blockData (store (fixedHeaderEnd buf + 4) data buf) = data := by
  have inside : fixedHeaderEnd buf + 4 + data.length ≤ buf.length := by
    rw [size, block.data_length]
    exact block.complete
  have length := store_length inside
  have outside {width offset : Nat} (before : offset + width ≤ fixedHeaderEnd buf + 4) :
      readBE width (store (fixedHeaderEnd buf + 4) data buf) offset = readBE width buf offset := by
    apply read_be_congr
    intro index low high
    exact get_store_outside inside (Or.inl (by omega))
  have first : readBE 1 (store (fixedHeaderEnd buf + 4) data buf) 0 = readBE 1 buf 0 :=
    outside (by rw [fixedHeaderEnd]; omega)
  have front : SameFront buf (store (fixedHeaderEnd buf + 4) data buf) :=
    ⟨by rw [first], by rw [first], fun index _ high =>
      get_store_outside inside (Or.inl (by omega))⟩
  have fixed := front.fixed_header_end
  have stop : blockEnd (store (fixedHeaderEnd buf + 4) data buf) = blockEnd buf := by
    rw [blockEnd, fixed, outside (by omega), blockEnd]
  refine ⟨front, ⟨⟨?_, ?_, ?_⟩, ?_⟩, stop, ?_⟩
  · rw [Extended, first]
    exact block.extended
  · rw [fixed, length]
    exact block.room
  · rw [fixed, outside (by omega)]
    exact block.profile
  · rw [stop, length]
    exact block.complete
  · rw [blockData, stop, fixed, ← block.data_length, ← size, List.drop_take,
      Nat.add_sub_cancel_left, stored_field inside]

end WholeBlock

structure Renames (names : Renaming) (before after : ParsedPacket) : Prop where
  header : SameHeader before after
  extensions : ∃ exts, after.extensions = some exts ∧ ∀ newId value,
    exts.get newId = some value ↔
      ∃ id, names.target id = some newId ∧ extensionValue before.extensions id = some value
  payload : after.payload = before.payload
  headerLength : after.headerLength = before.headerLength

structure RemapsExactly (names : Renaming) (buf : Bytes) (before : ParsedPacket) : Prop where
  length : (remapExtensionIds buf (some names.idMap)).1.length = buf.length
  outside : ∀ index, index < fixedHeaderEnd buf + 4 ∨ blockEnd buf ≤ index →
    (remapExtensionIds buf (some names.idMap)).1[index]? = buf[index]?
  parsed : ∃ after, parse (remapExtensionIds buf (some names.idMap)).1 = some after ∧
    Renames names before after

/-- Every identifier gets the last of the values that were walked over. -/
theorem get_remapped (names : Renaming) (data : Bytes) {id newId : Nat}
    (target : names.target id = some newId) :
    (parseExtensions (remapElements names.idMap data)).get newId =
      (valuesOf id (hidden data)).getLast?.or (valuesOf id (elements data)).getLast? := by
  rw [get_parse_extensions, elements_remapped, values_renamed names.injective target, walked_split,
    values_append, List.getLast?_append]

theorem get_remapped_unmapped (names : Renaming) (data : Bytes) {newId : Nat}
    (unmapped : ∀ id, names.target id ≠ some newId) :
    (parseExtensions (remapElements names.idMap data)).get newId = none := by
  rw [get_parse_extensions, elements_remapped, values_renamed_of_unmapped unmapped]
  rfl

/-- The names come out exactly when nothing that a terminator hides gets a name and a value
of its own. -/
theorem get_remapped_iff (names : Renaming) (data : Bytes) :
    (∀ newId value, (parseExtensions (remapElements names.idMap data)).get newId = some value ↔
      ∃ id, names.target id = some newId ∧
        (valuesOf id (elements data)).getLast? = some value) ↔
    ∀ id newId, names.target id = some newId → ∀ value,
      (valuesOf id (hidden data)).getLast? = some value →
        (valuesOf id (elements data)).getLast? = some value := by
  constructor
  · intro exactly id newId target value last
    have got := get_remapped names data target
    rw [last, Option.some_or] at got
    obtain ⟨other, sameTarget, visible⟩ := (exactly newId value).mp got
    rwa [names.injective id other newId target sameTarget]
  · intro quiet newId value
    by_cases mapped : ∃ id, names.target id = some newId
    · obtain ⟨id, target⟩ := mapped
      have got : (parseExtensions (remapElements names.idMap data)).get newId =
          (valuesOf id (elements data)).getLast? := by
        rw [get_remapped names data target]
        cases last : (valuesOf id (hidden data)).getLast? with
        | none => rfl
        | some late => rw [Option.some_or, quiet id newId target late last]
      rw [got]
      constructor
      · intro visible
        exact ⟨id, target, visible⟩
      · intro found
        obtain ⟨other, sameTarget, visible⟩ := found
        rwa [names.injective id other newId target sameTarget]
    · rw [get_remapped_unmapped names data fun id target => mapped ⟨id, target⟩]
      constructor
      · intro impossible
        cases impossible
      · intro found
        obtain ⟨id, target, _⟩ := found
        exact absurd ⟨id, target⟩ mapped

/-- What holds of every rewritten packet. -/
theorem remap_parses {buf : Bytes} (parseable : Parseable buf) (block : WholeBlock buf)
    (idMap : IdMap) :
    ∃ after, parse (remapExtensionIds buf (some idMap)).1 = some after ∧
      SameHeader (parsedFields buf) after ∧
      after.extensions = some (parseExtensions (remapElements idMap (blockData buf))) ∧
      after.payload = (parsedFields buf).payload ∧
      after.headerLength = (parsedFields buf).headerLength := by
  have size := remap_length idMap (blockData buf)
  obtain ⟨front, whole, stop, data⟩ := block.store_data size
  have inside : fixedHeaderEnd buf + 4 + (remapElements idMap (blockData buf)).length ≤
      blockEnd buf := by
    rw [size, block.data_length]
  have length := store_length (inside.trans block.complete)
  have parses := front.parseable parseable (by rw [length]; exact parseable.sources)
  have headerLength : (parsedFields (store (fixedHeaderEnd buf + 4)
      (remapElements idMap (blockData buf)) buf)).headerLength =
      (parsedFields buf).headerLength := by
    rw [whole.header_length, stop, block.header_length]
  rw [remap_of_block parseable block]
  refine ⟨_, parse_eq_some parses, front.header, ?_, ?_, headerLength⟩
  · rw [whole.extensions, data]
  · rw [parses.payload, parseable.payload, headerLength, block.header_length,
      drop_store inside block.complete, decide_eq_decide.mpr front.padded]

theorem remap_outside {buf : Bytes} (parseable : Parseable buf) (block : WholeBlock buf)
    (idMap : IdMap) :
    (remapExtensionIds buf (some idMap)).1.length = buf.length ∧
      ∀ index, index < fixedHeaderEnd buf + 4 ∨ blockEnd buf ≤ index →
        (remapExtensionIds buf (some idMap)).1[index]? = buf[index]? := by
  have inside : fixedHeaderEnd buf + 4 + (remapElements idMap (blockData buf)).length =
      blockEnd buf := by
    rw [remap_length, block.data_length]
  have complete := block.complete
  rw [remap_of_block parseable block]
  exact ⟨store_length (by omega), fun index outside => get_store_outside (by omega) (by omega)⟩

theorem remaps_exactly_iff {buf : Bytes} {parsed : ParsedPacket} (parses : parse buf = some parsed)
    (block : WholeBlock buf) (names : Renaming) :
    RemapsExactly names buf parsed ↔
      ∀ id newId, names.target id = some newId → ∀ value,
        (valuesOf id (hidden (blockData buf))).getLast? = some value →
          (valuesOf id (elements (blockData buf))).getLast? = some value := by
  obtain ⟨parseable, rfl⟩ := parse_eq_some_iff.mp parses
  obtain ⟨length, outside⟩ := remap_outside parseable block names.idMap
  obtain ⟨after, afterParses, header, extensions, payload, headerLength⟩ :=
    remap_parses parseable block names.idMap
  have before (id : Nat) : extensionValue (parsedFields buf).extensions id =
      (valuesOf id (elements (blockData buf))).getLast? := by
    rw [block.extensions]
    exact get_parse_extensions _ id
  rw [← get_remapped_iff]
  simp only [← before]
  constructor
  · intro exactly
    obtain ⟨other, otherParses, renames⟩ := exactly.parsed
    obtain ⟨exts, present, values⟩ := renames.extensions
    rw [afterParses] at otherParses
    rw [← Option.some.inj otherParses, extensions] at present
    rw [Option.some.inj present]
    exact values
  · intro values
    exact ⟨length, outside, after, afterParses, header, ⟨_, extensions, values⟩, payload,
      headerLength⟩

def Renaming.single (id newId : Nat) (source : 1 ≤ id ∧ id ≤ 14)
    (target : 1 ≤ newId ∧ newId ≤ 14) : Renaming where
  target other := if other = id then some newId else none
  sources other _ mapped := by
    split_ifs at mapped with here
    exact here ▸ source
  targets other newOther mapped := by
    split_ifs at mapped
    exact Option.some.inj mapped ▸ target
  injective left right _ leftMapped rightMapped := by
    split_ifs at leftMapped rightMapped with leftHere rightHere
    exact leftHere.trans rightHere.symm

theorem remaps_two_extensions :
    RemapsExactly (.single 2 5 (by decide) (by decide)) twoExtensions
      (parsedFields twoExtensions) := by
  refine (remaps_exactly_iff (parse_eq_some (by decide))
    ⟨⟨by decide, by decide, by decide⟩, by decide⟩ _).mpr ?_
  have nothing : hidden (blockData twoExtensions) = [] := by decide +kernel
  intro id newId _ value last
  rw [nothing, values_nil] at last
  cases last

def hiddenElement : Bytes :=
  [0x90, 0x60, 0, 0, 0, 0, 0, 0, 0, 0, 0, 7, 0xBE, 0xDE, 0, 1, 0xF0, 0, 0x10, 0xAA]

theorem hidden_element_exposed :
    (parse hiddenElement).map (extensionValue ·.extensions 1) = some none ∧
      (parse (remapExtensionIds hiddenElement
        (some (Renaming.single 1 2 (by decide) (by decide)).idMap)).1).map
          (extensionValue ·.extensions 2) = some (some [0xAA]) ∧
      ¬ RemapsExactly (.single 1 2 (by decide) (by decide)) hiddenElement
        (parsedFields hiddenElement) := by
  have exposed : (parse (remapExtensionIds hiddenElement
      (some (Renaming.single 1 2 (by decide) (by decide)).idMap)).1).map
        (extensionValue ·.extensions 2) = some (some [0xAA]) := by decide +kernel
  refine ⟨by decide +kernel, exposed, ?_⟩
  intro exactly
  obtain ⟨after, parses, renames⟩ := exactly.parsed
  obtain ⟨exts, present, values⟩ := renames.extensions
  rw [parses, Option.map_some, present] at exposed
  obtain ⟨id, target, visible⟩ := (values 2 [0xAA]).mp (Option.some.inj exposed)
  have one : id = 1 := by
    by_contra other
    cases (if_neg other).symm.trans target
  rw [one] at visible
  exact absurd visible (by decide +kernel)

end RtpPacket.Rtp
