import RtpPacket.Rtp.Parsing

/-!
# Reading one header extension

`readExtension` looks for one value in the block where `parse` collects them all. The one
stops at the first element of an identifier, the other overwrites; the one reads what is
there of a block that overruns the packet, the other ignores it.
-/

namespace RtpPacket.Rtp

open Associations ByteCodec

set_option autoImplicit false

/-- What a reader sees, up to a terminator or an element that is cut off. -/
def elements : Bytes → List (Nat × Bytes)
  | [] => []
  | head :: rest =>
      if head = 0 then elements rest
      else
        let id := head.toNat / 16
        let len := head.toNat % 16 + 1
        if id = 15 then []
        else if rest.length < len then []
        else (id, rest.take len) :: elements (rest.drop len)
termination_by data => data.length

theorem elements_padding (rest : Bytes) : elements (0 :: rest) = elements rest := by
  rw [elements, if_pos rfl]

theorem elements_stop {head : Byte} {rest : Bytes} (nonzero : head ≠ 0)
    (stop : head.toNat / 16 = 15 ∨ rest.length < head.toNat % 16 + 1) :
    elements (head :: rest) = [] := by
  rw [elements, if_neg nonzero]
  cases stop with
  | inl terminator => exact if_pos terminator
  | inr short => simp only [short, if_true, ite_self]

theorem elements_element {head : Byte} {rest : Bytes} (nonzero : head ≠ 0)
    (element : head.toNat / 16 ≠ 15) (whole : ¬ rest.length < head.toNat % 16 + 1) :
    elements (head :: rest) = (head.toNat / 16, rest.take (head.toNat % 16 + 1)) ::
      elements (rest.drop (head.toNat % 16 + 1)) := by
  rw [elements, if_neg nonzero]
  exact (if_neg element).trans (if_neg whole)

theorem parse_extensions_from_elements (exts : Extensions) (data : Bytes) :
    parseExtensionsFrom exts data =
      (elements data).foldl (fun map entry => map.insert entry.1 entry.2) exts := by
  fun_induction parseExtensionsFrom exts data with
  | case1 exts => simp [elements]
  | case2 exts rest ih => rw [elements_padding, ih]
  | case3 exts head rest nonzero id terminator =>
      rw [elements_stop nonzero (Or.inl terminator)]
      rfl
  | case4 exts head rest nonzero id len element short =>
      rw [elements_stop nonzero (Or.inr short)]
      rfl
  | case5 exts head rest nonzero id len element whole ih =>
      rw [elements_element nonzero element whole, List.foldl_cons]
      exact ih

theorem get_parse_extensions (data : Bytes) (id : Nat) :
    (parseExtensions data).get id = (valuesOf id (elements data)).getLast? := by
  rw [parseExtensions, parse_extensions_from_elements, AscendingMap.get_foldl_insert,
    AscendingMap.get_empty, Option.or_none]

def readElement (id : Nat) : Bytes → Option Bytes
  | [] => none
  | b :: rest =>
      if b = 0 then readElement id rest
      else
        let eid := b.toNat / 16
        let len := b.toNat % 16 + 1
        if eid = 15 then none
        else if rest.length < len then none
        else if eid = id then some (rest.take len)
        else readElement id (rest.drop len)
termination_by data => data.length

def readExtension (buf : Bytes) (id : Nat) : Option Bytes :=
  if buf.length < 12 then none
  else if ¬ readBE 1 buf 0 / 16 % 2 = 1 then none
  else
    let start := 12 + readBE 1 buf 0 % 16 * 4
    if start + 4 > buf.length then none
    else if readBE 2 buf start ≠ 0xBEDE then none
    else
      let blockEnd := start + 4 + readBE 2 buf (start + 2) * 4
      let stop := if blockEnd > buf.length then buf.length else blockEnd
      readElement id ((buf.take stop).drop (start + 4))

theorem read_element_first (id : Nat) (data : Bytes) :
    readElement id data = (valuesOf id (elements data)).head? := by
  fun_induction readElement id data with
  | case1 => simp [elements, valuesOf]
  | case2 rest ih => rw [elements_padding, ih]
  | case3 head rest nonzero eid terminator =>
      rw [elements_stop nonzero (Or.inl terminator)]
      rfl
  | case4 head rest nonzero eid len element short =>
      rw [elements_stop nonzero (Or.inr short)]
      rfl
  | case5 head rest nonzero eid len element whole here =>
      rw [elements_element nonzero element whole, show head.toNat / 16 = id from here,
        values_cons_self]
      rfl
  | case6 head rest nonzero eid len element whole other ih =>
      rw [elements_element nonzero element whole, values_cons_of_ne other]
      exact ih

theorem take_block_end (buf : Bytes) :
    buf.take (if blockEnd buf > buf.length then buf.length else blockEnd buf) =
      buf.take (blockEnd buf) := by
  split_ifs with overrun
  · rw [List.take_length, List.take_of_length_le overrun.le]
  · rfl

theorem read_extension_of_block {buf : Bytes} (block : HasBlock buf) (id : Nat) :
    readExtension buf id = (valuesOf id (elements (blockData buf))).head? := by
  have room := block.room
  have long : ¬ buf.length < 12 := by
    rw [fixedHeaderEnd] at room
    omega
  rw [readExtension, if_neg long]
  refine (if_neg (not_not.mpr block.extended)).trans ?_
  refine (if_neg (Nat.not_lt.mpr room)).trans ?_
  refine (if_neg (not_not.mpr block.profile)).trans ?_
  refine Eq.trans ?_ (read_element_first id (blockData buf))
  rw [blockData, ← take_block_end]
  rfl

theorem read_extension_without_block {buf : Bytes} (plain : ¬ HasBlock buf) (id : Nat) :
    readExtension buf id = none := by
  rw [readExtension]
  dsimp only
  split_ifs with short extended room profile
  all_goals
    first
    | rfl
    | exact absurd ⟨extended, Nat.not_lt.mp room, not_not.mp profile⟩ plain

def extensionValue (extensions : Option Extensions) (id : Nat) : Option Bytes :=
  extensions.bind fun exts => exts.get id

theorem extension_value_parsed (buf : Bytes) (id : Nat) :
    extensionValue (parsedFields buf).extensions id =
      if HasBlock buf ∧ blockEnd buf ≤ buf.length then
        (valuesOf id (elements (blockData buf))).getLast?
      else none := by
  rw [parsed_extensions]
  split_ifs
  · exact get_parse_extensions (blockData buf) id
  · rfl

/-- One reader agrees with the other when no repetition of the identifier ends in another
value, and when a block that overruns the packet does not hold the identifier. -/
theorem read_extension_agrees_iff {buf : Bytes} {parsed : ParsedPacket}
    (parses : parse buf = some parsed) (id : Nat) :
    readExtension buf id = extensionValue parsed.extensions id ↔
      (HasBlock buf →
        if blockEnd buf ≤ buf.length then
          (valuesOf id (elements (blockData buf))).head? =
            (valuesOf id (elements (blockData buf))).getLast?
        else ∀ value, (id, value) ∉ elements (blockData buf)) := by
  obtain ⟨_, rfl⟩ := parse_eq_some_iff.mp parses
  rw [extension_value_parsed]
  by_cases block : HasBlock buf
  · rw [read_extension_of_block block]
    by_cases complete : blockEnd buf ≤ buf.length
    · rw [if_pos ⟨block, complete⟩, if_pos complete]
      exact ⟨fun same _ => same, fun agrees => agrees block⟩
    · rw [if_neg fun both => complete both.2, if_neg complete, List.head?_eq_none_iff,
        List.eq_nil_iff_forall_not_mem]
      simp only [mem_values]
      exact ⟨fun absent _ => absent, fun agrees => agrees block⟩
  · rw [read_extension_without_block block, if_neg fun both => block both.1]
    exact ⟨fun _ impossible => absurd impossible block, fun _ => rfl⟩

def twoExtensions : Bytes :=
  [0x90, 0x60, 0, 0, 0, 0, 0, 0, 0, 0, 0, 7, 0xBE, 0xDE, 0, 2, 0x10, 0xAA, 0, 0x21, 0xBB, 0xCC,
    0, 0]

theorem read_extension_agrees_two :
    readExtension twoExtensions 2 = extensionValue (parsedFields twoExtensions).extensions 2 :=
  (read_extension_agrees_iff (parse_eq_some (by decide)) 2).mpr fun _ => by
    rw [if_pos (by decide)]
    decide +kernel

def repeatedElement : Bytes :=
  [0x90, 0x60, 0, 0, 0, 0, 0, 0, 0, 0, 0, 7, 0xBE, 0xDE, 0, 1, 0x10, 0xAA, 0x10, 0xBB]

def overrunningBlock : Bytes :=
  [0x90, 0x60, 0, 0, 0, 0, 0, 0, 0, 0, 0, 7, 0xBE, 0xDE, 0, 2, 0x10, 0xAA, 0, 0]

theorem read_extension_disagrees :
    (readExtension repeatedElement 1 = some [0xAA] ∧
      (parse repeatedElement).map (extensionValue ·.extensions 1) = some (some [0xBB])) ∧
    (readExtension overrunningBlock 1 = some [0xAA] ∧
      (parse overrunningBlock).map (extensionValue ·.extensions 1) = some none) ∧
    ¬ ∀ buf parsed, parse buf = some parsed → ∀ id, 1 ≤ id → id ≤ 14 →
      readExtension buf id = extensionValue parsed.extensions id := by
  refine ⟨by decide +kernel, by decide +kernel, ?_⟩
  intro agrees
  have same := agrees repeatedElement _ (parse_eq_some (by decide)) 1 (by decide) (by decide)
  exact absurd same (by decide +kernel)

end RtpPacket.Rtp
