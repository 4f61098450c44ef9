import RtpPacket.Codec.Vp8

/-!
# VP8 frames of several partitions

The descriptors that the payload format allows, and frames that other senders cut
into packets: the S bit starts a partition, and only partition 0 starts a frame.
The depacketizer takes every start of a partition for the start of a frame.
-/

namespace RtpPacket.Codec.Vp8

open ByteCodec Rtp Run

set_option autoImplicit false

structure Extension where
  pictureId : Option PictureIdField
  tl0PicIdx : Option Byte
  /-- The temporal layer and its sync bit. -/
  tid : Option (Fin 4 × Bool)
  keyIdx : Option (Fin 0x20)
  deriving DecidableEq, Repr

namespace Extension

def flags (ext : Extension) : Nat :=
  bit 0x80 ext.pictureId.isSome + bit 0x40 ext.tl0PicIdx.isSome + bit 0x20 ext.tid.isSome +
    bit 0x10 ext.keyIdx.isSome

def pictureIdBytes (ext : Extension) : Bytes := (ext.pictureId.map PictureIdField.bytes).getD []

/-- T and K share one byte, present if either is set; a part that is not has zero bits. -/
def sharedByte (ext : Extension) : Bytes :=
  if ext.tid.isSome || ext.keyIdx.isSome then
    let layer := ext.tid.getD (0, false)
    [byteAt (layer.1 * 64 + bit 32 layer.2 + ext.keyIdx.getD 0) 0]
  else []

def bytes (ext : Extension) : Bytes :=
  byteAt ext.flags 0 :: (ext.pictureIdBytes ++ (ext.tl0PicIdx.toList ++ ext.sharedByte))

end Extension

structure WireDescriptor where
  extension : Option Extension
  notReference : Bool
  start : Bool
  partition : Fin 8
  deriving DecidableEq, Repr

namespace WireDescriptor

def first (desc : WireDescriptor) : Nat :=
  bit 0x80 desc.extension.isSome + bit 0x20 desc.notReference + bit 0x10 desc.start +
    desc.partition

def bytes (desc : WireDescriptor) : Bytes :=
  byteAt desc.first 0 :: (desc.extension.map Extension.bytes).getD []

end WireDescriptor

theorem Extension.flag_bits (ext : Extension) :
    let flags := ext.flags % 256
    (flags &&& 0x80 ≠ 0 ↔ ext.pictureId.isSome = true) ∧
      (flags &&& 0x40 ≠ 0 ↔ ext.tl0PicIdx.isSome = true) ∧
      (flags &&& 0x20 ≠ 0 ↔ ext.tid.isSome = true) ∧
      (flags &&& 0x10 ≠ 0 ↔ ext.keyIdx.isSome = true) ∧
      (flags &&& 0x30 ≠ 0 ↔ (ext.tid.isSome || ext.keyIdx.isSome) = true) := by
  simp only [flags]
  generalize ext.pictureId.isSome = pictureId
  generalize ext.tl0PicIdx.isSome = tl0PicIdx
  generalize ext.tid.isSome = tid
  generalize ext.keyIdx.isSome = keyIdx
  revert pictureId tl0PicIdx tid keyIdx
  decide +kernel

theorem WireDescriptor.first_bits (desc : WireDescriptor) :
    let first := desc.first % 256
    (first &&& 0x80 ≠ 0 ↔ desc.extension.isSome = true) ∧ (first &&& 0x10 != 0) = desc.start := by
  simp only [first]
  generalize desc.extension.isSome = extension
  generalize desc.notReference = notReference
  generalize desc.start = start
  generalize desc.partition = partition
  revert extension notReference start partition
  decide +kernel

theorem shared_fields (layer : Fin 4) (sync : Bool) (index : Fin 0x20) :
    let shared := (layer.val * 64 + bit 32 sync + index) % 256
    shared >>> 6 &&& 0x03 = layer ∧ shared &&& 0x1F = index := by
  revert layer sync index
  decide +kernel

theorem Extension.read_shared (ext : Extension) (front suffix : Bytes) :
    let together := (ext.tid.isSome || ext.keyIdx.isSome) = true
    let payload := front ++ (ext.sharedByte ++ suffix)
    let shared := together ∧ front.length < payload.length
    let byte := (payload.getD front.length 0).toNat
    (if together then front.length + 1 else front.length) =
        front.length + ext.sharedByte.length ∧
      (if shared ∧ ext.tid.isSome = true then some (byte >>> 6 &&& 0x03) else none) =
        ext.tid.map (fun tid => tid.1.val) ∧
      (if shared ∧ ext.keyIdx.isSome = true then some (byte &&& 0x1F) else none) =
        ext.keyIdx.map Fin.val := by
  intro together payload shared byte
  by_cases present : together
  · have written : payload = front ++ byteAt ((ext.tid.getD (0, false)).1 * 64 +
        bit 32 (ext.tid.getD (0, false)).2 + ext.keyIdx.getD 0) 0 :: suffix := by
      rw [← List.singleton_append]
      exact congrArg (fun bytes => front ++ (bytes ++ suffix)) (if_pos present)
    have inside : shared := by
      refine ⟨present, ?_⟩
      rw [written, List.length_append, List.length_cons]
      omega
    have here : byte = ((ext.tid.getD (0, false)).1.val * 64 +
        bit 32 (ext.tid.getD (0, false)).2 + (ext.keyIdx.getD 0).val) % 256 := by
      change (payload.getD front.length 0).toNat = _
      rw [written, List.getD_eq_getElem?_getD, List.getElem?_append_right (Nat.le_refl _),
        Nat.sub_self, List.getElem?_cons_zero, Option.getD_some, byte_at_low]
    obtain ⟨layer, index⟩ :=
      shared_fields (ext.tid.getD (0, false)).1 (ext.tid.getD (0, false)).2 (ext.keyIdx.getD 0)
    refine ⟨?_, ?_, ?_⟩
    · rw [if_pos present, sharedByte, if_pos present]
      rfl
    · simp only [inside, true_and, here, layer]
      cases ext.tid <;> rfl
    · simp only [inside, true_and, here, index]
      cases ext.keyIdx <;> rfl
  · have absent : ext.tid = none ∧ ext.keyIdx = none := by
      simpa [together] using present
    refine ⟨?_, ?_, ?_⟩
    · rw [if_neg present, sharedByte, if_neg present]
      rfl
    · rw [if_neg fun both => present both.1.1, absent.1]
      rfl
    · rw [if_neg fun both => present both.1.1, absent.2]
      rfl

theorem WireDescriptor.bytes_extended {desc : WireDescriptor} {ext : Extension}
    (present : desc.extension = some ext) (suffix : Bytes) :
    desc.bytes ++ suffix = [byteAt desc.first 0, byteAt ext.flags 0] ++
      (ext.pictureIdBytes ++ (ext.tl0PicIdx.toList ++ (ext.sharedByte ++ suffix))) := by
  rw [bytes, present, Option.map_some, Option.getD_some, Extension.bytes]
  simp only [List.cons_append, List.nil_append, List.append_assoc]

theorem WireDescriptor.length_extended {desc : WireDescriptor} {ext : Extension}
    (present : desc.extension = some ext) :
    desc.bytes.length = 2 + ext.pictureIdBytes.length + ext.tl0PicIdx.toList.length +
      ext.sharedByte.length := by
  have total := congrArg List.length (bytes_extended present [])
  simp only [List.length_append, List.length_cons, List.length_nil] at total
  omega

theorem WireDescriptor.read_wire (desc : WireDescriptor) {piece : Bytes} (some : piece ≠ []) :
    readDescriptor (desc.bytes ++ piece) =
      { ok := true
        hdrLen := desc.bytes.length
        start := desc.start
        tid := desc.extension.bind fun ext => ext.tid.map fun tid => tid.1.val
        keyIdx := desc.extension.bind fun ext => ext.keyIdx.map Fin.val } := by
  obtain ⟨extended, start⟩ := desc.first_bits
  have positive := List.length_pos_iff.mpr some
  have nonempty : ¬ (desc.bytes ++ piece).length < 1 := by
    rw [List.length_append]
    omega
  have first : ((desc.bytes ++ piece).getD 0 0).toNat = desc.first % 256 := by
    rw [bytes, List.cons_append, List.getD_cons_zero, byte_at_low]
  rw [readDescriptor, if_neg nonempty]
  simp only [first, extended, start]
  cases present : desc.extension with
  | none =>
      have lone : desc.bytes.length = 1 := by
        rw [bytes, present]
        rfl
      simp [lone, positive]
  | some ext =>
      obtain ⟨pictured, indexed, layered, keyed, shared⟩ := ext.flag_bits
      have written := bytes_extended present piece
      have length := length_extended present
      have long : ¬ (desc.bytes ++ piece).length < 2 := by
        rw [written, List.length_append, List.length_cons, List.length_singleton]
        omega
      have flags : ((desc.bytes ++ piece).getD 1 0).toNat = ext.flags % 256 := by
        rw [written, List.cons_append, List.getD_cons_succ, List.cons_append, List.getD_cons_zero,
          byte_at_low]
      have pictureId : (if ext.pictureId.isSome = true then
          if 2 < (desc.bytes ++ piece).length ∧
            ((desc.bytes ++ piece).getD 2 0).toNat &&& 0x80 ≠ 0 then 2 else 1
          else 0) = ext.pictureIdBytes.length := by
        rw [written]
        exact PictureIdField.read_length ext.pictureId [byteAt desc.first 0, byteAt ext.flags 0] _
      have tl0PicIdx : (if ext.tl0PicIdx.isSome = true then 1 else 0) =
          ext.tl0PicIdx.toList.length := by
        cases ext.tl0PicIdx <;> rfl
      have sharing := ext.read_shared ([byteAt desc.first 0, byteAt ext.flags 0] ++
        (ext.pictureIdBytes ++ ext.tl0PicIdx.toList)) piece
      have front : ([byteAt desc.first 0, byteAt ext.flags 0] ++
          (ext.pictureIdBytes ++ ext.tl0PicIdx.toList)).length =
          2 + ext.pictureIdBytes.length + ext.tl0PicIdx.toList.length := by
        simp only [List.length_append, List.length_cons, List.length_nil]
        omega
      have whole : [byteAt desc.first 0, byteAt ext.flags 0] ++
          (ext.pictureIdBytes ++ ext.tl0PicIdx.toList) ++ (ext.sharedByte ++ piece) =
          desc.bytes ++ piece := by
        rw [written]
        simp only [List.append_assoc]
      rw [whole, front] at sharing
      obtain ⟨walked, layer, index⟩ := sharing
      have behind : desc.bytes.length < (desc.bytes ++ piece).length := by
        rw [List.length_append]
        omega
      simp only [Option.isSome_some, if_true, long, if_false, flags, pictured, indexed, layered,
        keyed, shared, pictureId, tl0PicIdx, walked, layer, index, ← length, behind, decide_true,
        Option.bind_some]

structure Part where
  descriptor : WireDescriptor
  piece : Bytes
  nonempty : piece ≠ []
  deriving DecidableEq, Repr

def Part.payload (part : Part) : Bytes := part.descriptor.bytes ++ part.piece

def partsOutgoing (rtpTs : Nat) : List Part → List Outgoing
  | [] => []
  | part :: rest => ⟨part.payload, rtpTs, rest.isEmpty⟩ :: partsOutgoing rtpTs rest

/-- A frame cut anywhere: the first part starts partition 0, a later one starts
another partition or none. -/
structure SplitFrame where
  first : Part
  later : List Part
  starts : first.descriptor.start = true
  partition : first.descriptor.partition = 0
  partitions : ∀ part ∈ later, part.descriptor.start = true → part.descriptor.partition ≠ 0

namespace SplitFrame

def parts (frame : SplitFrame) : List Part := frame.first :: frame.later

def data (frame : SplitFrame) : Bytes := (frame.parts.map (·.piece)).flatten

def outgoing (frame : SplitFrame) (rtpTs : Nat) : List Outgoing := partsOutgoing rtpTs frame.parts

end SplitFrame

theorem depacketize_part (callbacks : Callbacks) (listening : callbacks.output = true)
    (held : List Bytes) (part : Part) (rtpTs : Nat) (last : Bool) :
    depacketize ⟨callbacks, held⟩ (Outgoing.packet ⟨part.payload, rtpTs, last⟩) =
      let taken := FrameDepacketizer.take ⟨callbacks, held⟩ part.descriptor.start part.piece
      if last then taken.handOut frameType rtpTs else (taken, []) := by
  have read := part.descriptor.read_wire part.nonempty
  have long : 1 ≤ (part.descriptor.bytes ++ part.piece).length := by
    rw [List.length_append]
    exact Nat.le_add_left_of_le (List.length_pos_iff.mpr part.nonempty)
  simp only [depacketize, Outgoing.packet, Part.payload, Callbacks.checkDepacketizePayload,
    listening, long, decide_true, Bool.and_self, Bool.not_true, Bool.false_eq_true, if_false, read,
    List.drop_left]
  cases last <;> cases part.descriptor.start <;> simp [FrameDepacketizer.take]

/-- What is held behind the parts: those from the last start of a partition on. -/
def keep : List Bytes → List Part → List Bytes
  | held, [] => held
  | held, part :: rest =>
      keep (if part.descriptor.start then [part.piece] else held ++ [part.piece]) rest

theorem run_parts (callbacks : Callbacks) (listening : callbacks.output = true) (rtpTs : Nat)
    {parts : List Part} (some : parts ≠ []) (held : List Bytes) :
    run (fun state out => depacketize state out.packet) ⟨callbacks, held⟩
        (partsOutgoing rtpTs parts) =
      FrameDepacketizer.handOut ⟨callbacks, keep held parts⟩ frameType rtpTs := by
  induction parts generalizing held with
  | nil => exact absurd rfl some
  | cons part rest ih =>
      have here := depacketize_part callbacks listening held part rtpTs
      rw [partsOutgoing, run, keep]
      cases rest with
      | nil =>
          simp only [here, List.isEmpty_nil, if_true, partsOutgoing, run, List.append_nil,
            keep, FrameDepacketizer.take]
      | cons next others =>
          simp only [here, List.isEmpty_cons, Bool.false_eq_true, if_false]
          exact ih (List.cons_ne_nil _ _) _

theorem keep_length (held : List Bytes) (parts : List Part) :
    (keep held parts).flatten.length ≤
      held.flatten.length + (parts.map (·.piece)).flatten.length := by
  induction parts generalizing held with
  | nil => exact Nat.le_refl _
  | cons part rest ih =>
      rw [keep, List.map_cons, List.flatten_cons, List.length_append]
      cases part.descriptor.start with
      | true =>
          have later := ih [part.piece]
          rw [List.flatten_singleton] at later
          rw [if_pos rfl]
          omega
      | false =>
          have later := ih (held ++ [part.piece])
          rw [List.flatten_append, List.flatten_singleton, List.length_append] at later
          rw [if_neg (by decide)]
          omega

/-- The pieces come out whole exactly when none of them starts a partition. -/
theorem keep_whole_iff {held : List Bytes} (some : held.flatten ≠ []) (parts : List Part) :
    (keep held parts).flatten = held.flatten ++ (parts.map (·.piece)).flatten ↔
      ∀ part ∈ parts, part.descriptor.start = false := by
  induction parts generalizing held with
  | nil => simp [keep]
  | cons part rest ih =>
      rw [keep, List.forall_mem_cons, List.map_cons, List.flatten_cons]
      cases part.descriptor.start with
      | true =>
          -- What was held is gone, so that too few bytes are left.
          have fewer := keep_length [part.piece] rest
          have positive := List.length_pos_iff.mpr some
          rw [List.flatten_singleton] at fewer
          rw [if_pos rfl]
          constructor
          · intro whole
            have length := congrArg List.length whole
            rw [List.length_append, List.length_append] at length
            omega
          · intro none
            exact absurd none.1 (by decide)
      | false =>
          have extended : (held ++ [part.piece]).flatten = held.flatten ++ part.piece := by
            rw [List.flatten_append, List.flatten_singleton]
          have later := @ih (held ++ [part.piece]) (by
            rw [extended]
            exact List.append_ne_nil_of_left_ne_nil some _)
          rw [extended, List.append_assoc] at later
          rw [if_neg (by decide), later, eq_self_iff_true, true_and]

theorem parts_outgoing_member {rtpTs : Nat} {parts : List Part} {out : Outgoing}
    (member : out ∈ partsOutgoing rtpTs parts) : ∃ part ∈ parts, out.payload = part.payload := by
  induction parts with
  | nil => cases member
  | cons part rest ih =>
      cases List.mem_cons.mp member with
      | inl here => exact ⟨part, List.mem_cons_self, congrArg Outgoing.payload here⟩
      | inr later =>
          obtain ⟨other, otherMember, same⟩ := ih later
          exact ⟨other, List.mem_cons_of_mem _ otherMember, same⟩

theorem peek_keyframe_continuation (part : Part) (continues : part.descriptor.start = false) :
    peekKeyframe part.payload = false := by
  have read := part.descriptor.read_wire part.nonempty
  rw [peekKeyframe, Part.payload]
  simp only [read, continues]
  rfl

namespace SplitFrame

/-- One chunk comes out, the whole frame, and only the first packet passes for a
keyframe. -/
def ReceivedWhole (frame : SplitFrame) (self : FrameDepacketizer) (packets : List ParsedPacket) :
    Prop :=
  (∃ chunk : OutputChunk, (run depacketize self packets).2 = [.output chunk] ∧
      chunk.data = frame.data) ∧
    ∀ packet ∈ packets.tail, peekKeyframe packet.payload = false

theorem ReceivedWhole.data_eq {frame : SplitFrame} {self : FrameDepacketizer}
    {packets : List ParsedPacket} (received : frame.ReceivedWhole self packets)
    {chunk : OutputChunk} (handed : (run depacketize self packets).2 = [.output chunk]) :
    chunk.data = frame.data := by
  obtain ⟨⟨other, only, same⟩, _⟩ := received
  rw [handed] at only
  injection only with event
  injection event with chunkIs
  rw [chunkIs, same]

theorem received_whole_iff (frame : SplitFrame) (rtpTs : Nat) {self : FrameDepacketizer}
    (listening : self.callbacks.output = true) {packets : List ParsedPacket}
    (described : packets.map (·.outgoing) = frame.outgoing rtpTs) :
    frame.ReceivedWhole self packets ↔
      ∀ part ∈ frame.later, part.descriptor.start = false := by
  have kept : keep self.fragments frame.parts = keep [frame.first.piece] frame.later := by
    rw [parts, keep, if_pos frame.starts]
  have handed : (run depacketize self packets).2 =
      [.output ⟨(keep [frame.first.piece] frame.later).flatten, rtpTs,
        frameType (keep [frame.first.piece] frame.later).flatten⟩] := by
    have received := run_parts self.callbacks listening rtpTs
      (List.cons_ne_nil frame.first frame.later) self.fragments
    rw [run_received fun _ _ => rfl, described, outgoing, parts, received]
    rw [parts] at kept
    rw [FrameDepacketizer.handOut, kept]
  have whole : (keep [frame.first.piece] frame.later).flatten = frame.data ↔
      ∀ part ∈ frame.later, part.descriptor.start = false := by
    have first : [frame.first.piece].flatten = frame.first.piece := List.flatten_singleton
    have some : [frame.first.piece].flatten ≠ [] := by
      rw [first]
      exact frame.first.nonempty
    have pieces := keep_whole_iff some frame.later
    rw [first] at pieces
    rw [← pieces, data, parts, List.map_cons, List.flatten_cons]
  constructor
  · intro received
    exact whole.mp (received.data_eq handed)
  · intro continues
    refine ⟨⟨_, handed, whole.mpr continues⟩, ?_⟩
    intro packet member
    have later : packet.outgoing ∈ partsOutgoing rtpTs frame.later := by
      have tail := congrArg List.tail described
      rw [← List.map_tail] at tail
      change packets.tail.map (·.outgoing) = partsOutgoing rtpTs frame.later at tail
      rw [← tail]
      exact List.mem_map_of_mem member
    obtain ⟨part, partMember, payload⟩ := parts_outgoing_member later
    change packet.payload = part.payload at payload
    rw [payload]
    exact peek_keyframe_continuation part (continues part partMember)

end SplitFrame

-- Named instances: the literals of the example then share no proof with another module.
local instance partitionNonzero : NeZero 8 := ⟨by decide⟩

local instance layerNonzero : NeZero 4 := ⟨by decide⟩

local instance keyIndexNonzero : NeZero 32 := ⟨by decide⟩

def secondPart (cut : Bool) : Part :=
  ⟨⟨some ⟨some (.short 5), some 9, some (1, false), some 3⟩, false, cut, 1⟩, [0x20], by decide⟩

theorem second_part_partition (cut : Bool) :
    ∀ part ∈ [secondPart cut], part.descriptor.start = true → part.descriptor.partition ≠ 0 := by
  intro part member _
  rw [List.mem_singleton.mp member]
  exact (by decide : (1 : Fin 8) ≠ 0)

def twoParts (cut : Bool) : SplitFrame where
  first := ⟨⟨none, false, true, 0⟩, [0x10, 0x02], by decide⟩
  later := [secondPart cut]
  starts := rfl
  partition := rfl
  partitions := second_part_partition cut

def twoPackets (cut : Bool) : List ParsedPacket := ((twoParts cut).outgoing 7).map Outgoing.packet

def emptyDepacketizer : FrameDepacketizer := ⟨⟨true, true⟩, []⟩

theorem received_whole_two_parts :
    (twoParts false).ReceivedWhole emptyDepacketizer (twoPackets false) :=
  ((twoParts false).received_whole_iff 7 rfl rfl).mpr (by decide)

/-- The second partition comes out alone, and its packet passes for a keyframe. -/
theorem later_partition_alone :
    ¬ (twoParts true).ReceivedWhole emptyDepacketizer (twoPackets true) ∧
      (twoPackets true).tail.all (fun packet => peekKeyframe packet.payload) = true := by
  have handed : (run depacketize emptyDepacketizer (twoPackets true)).2 =
      [.output ⟨[0x20], 7, .key⟩] := by
    decide +kernel
  constructor
  · intro received
    exact absurd (received.data_eq handed) (by decide)
  · decide +kernel

end RtpPacket.Codec.Vp8
