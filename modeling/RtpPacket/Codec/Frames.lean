import RtpPacket.Codec.Fragments

/-!
# Codecs that cut frames anywhere

VP8, VP9 and AV1 put a short descriptor in front of each piece of a frame. The
packetizers are one loop with a codec's own descriptor; the depacketizers collect
pieces until their descriptor or the marker ends the frame.
-/

namespace RtpPacket.Codec

open ByteCodec Rtp Run Cutting

set_option autoImplicit false

def videoClockRate : Nat := 90000

structure FrameChunk extends Chunk where
  type : Option FrameType

/-- The bytes written in place, of which a codec uses the first few. -/
structure InlinePrefix where
  p0 : Nat
  p1 : Nat
  p2 : Nat
  p3 : Nat

def InlinePrefix.bytes (inline : InlinePrefix) (prefixLen : Nat) : Bytes :=
  [byteAt inline.p0 0, byteAt inline.p1 0, byteAt inline.p2 0, byteAt inline.p3 0].take prefixLen

theorem InlinePrefix.bytes_length (inline : InlinePrefix) {prefixLen : Nat}
    (short : prefixLen ≤ 4) : (inline.bytes prefixLen).length = prefixLen := by
  rw [InlinePrefix.bytes, List.length_take]
  simp only [List.length_cons, List.length_nil]
  omega

def frameLoop (descriptor : Bool → Bool → InlinePrefix) (prefixLen maxPayload fragCount : Nat)
    (data : Bytes) (rtpTs : Nat) (withMeta : Bool) :
    Nat → Nat → Packetizer → List Packet × Packetizer
  | 0, _, self => ([], self)
  | remaining + 1, offset, self =>
      let i := fragCount - (remaining + 1)
      let isFirst := i == 0
      let isLast := i == fragCount - 1
      let size := min maxPayload (data.length - offset)
      let inline := descriptor isFirst isLast
      let made := self.makePacketWithPrefix inline.p0 inline.p1 inline.p2 inline.p3 prefixLen
        data offset size rtpTs isLast withMeta
      let later := frameLoop descriptor prefixLen maxPayload fragCount data rtpTs withMeta
        remaining (offset + size) made.2
      (made.1 :: later.1, later.2)

/-- A frame that fits goes out in one packet that is both first and last. -/
def packetizeFrame (descriptor : Bool → Bool → InlinePrefix) (prefixLen : Nat) (data : Bytes)
    (rtpTs : Nat) (withMeta : Bool) (self : Packetizer) : List Packet × Packetizer :=
  let maxPayload := self.mtu - prefixLen
  if data.length ≤ maxPayload then
    let inline := descriptor true true
    let made := self.makePacketWithPrefix inline.p0 inline.p1 inline.p2 inline.p3 prefixLen
      data 0 data.length rtpTs true withMeta
    ([made.1], made.2)
  else
    let fragCount := needed maxPayload data.length
    frameLoop descriptor prefixLen maxPayload fragCount data rtpTs withMeta fragCount 0 self

def framePieces (prefixLen mtu : Nat) (data : Bytes) : List Bytes :=
  let maxPayload := mtu - prefixLen
  if data.length ≤ maxPayload then [data] else cut maxPayload (needed maxPayload data.length) data

def frameOutgoing (descriptor : Bool → Bool → InlinePrefix) (prefixLen mtu rtpTs : Nat)
    (data : Bytes) : List Outgoing :=
  fragmentOutgoing (fun first last => (descriptor first last).bytes prefixLen) rtpTs true true
    (framePieces prefixLen mtu data)

section Sending

variable {descriptor : Bool → Bool → InlinePrefix} {prefixLen mtu rtpTs : Nat}

theorem frame_loop_sends (maxPayload : Nat) {fragCount : Nat} (data : Bytes) (withMeta : Bool)
    {remaining : Nat} (within : remaining ≤ fragCount) (offset : Nat) (self : Packetizer) :
    frameLoop descriptor prefixLen maxPayload fragCount data rtpTs withMeta remaining offset self =
      Packetizer.sendAll withMeta
        (fragmentOutgoing (fun first last => (descriptor first last).bytes prefixLen) rtpTs true
          (remaining == fragCount) (cut maxPayload remaining (data.drop offset)))
        self := by
  induction remaining generalizing offset self with
  | zero => rfl
  | succ remaining ih =>
      have first : (fragCount - (remaining + 1) == 0) = (remaining + 1 == fragCount) := by
        rw [Bool.eq_iff_iff, beq_iff_eq, beq_iff_eq]
        omega
      have last : (fragCount - (remaining + 1) == fragCount - 1) =
          (cut maxPayload remaining ((data.drop offset).drop maxPayload)).isEmpty := by
        rw [Bool.eq_iff_iff, beq_iff_eq, List.isEmpty_iff_length_eq_zero, cut_length]
        omega
      have notFirst : (remaining == fragCount) = false := by
        rw [beq_eq_false_iff_ne]
        omega
      have left : data.length - offset = (data.drop offset).length := by
        rw [List.length_drop]
      rw [frameLoop, cut, fragmentOutgoing, Packetizer.sendAll]
      simp only [first, last, Packetizer.make_packet_with_prefix_eq, left, take_bounded,
        drop_bounded, ih (Nat.le_of_succ_le within), notFirst, Bool.and_true, InlinePrefix.bytes]

theorem packetize_frame_sends (data : Bytes) (withMeta : Bool) (self : Packetizer) :
    packetizeFrame descriptor prefixLen data rtpTs withMeta self =
      Packetizer.sendAll withMeta (frameOutgoing descriptor prefixLen self.mtu rtpTs data)
        self := by
  rw [packetizeFrame, frameOutgoing, framePieces]
  dsimp only
  split_ifs with fits
  · simp [fragmentOutgoing, Packetizer.sendAll, Packetizer.make_packet_with_prefix_eq,
      InlinePrefix.bytes]
  · rw [frame_loop_sends _ data withMeta (Nat.le_refl (needed (self.mtu - prefixLen) data.length)),
      beq_self_eq_true, List.drop_zero]

theorem frame_pieces {data : Bytes} (short : prefixLen ≤ 4) (mtuRange : 100 ≤ mtu)
    (nonempty : data ≠ []) :
    framePieces prefixLen mtu data ≠ [] ∧
      (∀ piece ∈ framePieces prefixLen mtu data,
        piece ≠ [] ∧ piece.length ≤ mtu - prefixLen) ∧
      (framePieces prefixLen mtu data).flatten = data := by
  have positive : 0 < mtu - prefixLen := by omega
  rw [framePieces]
  split_ifs with fits
  · refine ⟨by simp, ?_, by simp⟩
    intro piece member
    rw [List.mem_singleton.mp member]
    exact ⟨nonempty, fits⟩
  · have tight : needed (mtu - prefixLen) data.length * (mtu - prefixLen) <
        data.length + (mtu - prefixLen) := needed_tight positive
    have whole := cut_flatten (needed_covers positive data.length)
    refine ⟨?_, ?_, whole⟩
    · intro none
      rw [none] at whole
      exact nonempty whole.symm
    · intro piece member
      exact ⟨cut_piece_nonempty positive tight piece member, cut_piece_length piece member⟩

theorem frame_outgoing_markers {data : Bytes} (short : prefixLen ≤ 4) (mtuRange : 100 ≤ mtu)
    (nonempty : data ≠ []) :
    ∃ count, (frameOutgoing descriptor prefixLen mtu rtpTs data).map (·.marker) =
      List.replicate count false ++ [true] :=
  ⟨_, fragment_outgoing_markers true (frame_pieces short mtuRange nonempty).1⟩

theorem frame_outgoing_member {data : Bytes} (short : prefixLen ≤ 4) (mtuRange : 100 ≤ mtu)
    (nonempty : data ≠ []) {out : Outgoing}
    (member : out ∈ frameOutgoing descriptor prefixLen mtu rtpTs data) :
    out.timestamp = rtpTs ∧ ∃ first last piece,
      out.payload = (descriptor first last).bytes prefixLen ++ piece ∧
        piece ≠ [] ∧ out.payload.length ≤ mtu := by
  obtain ⟨time, first, last, piece, pieceMember, payload, _⟩ := fragment_outgoing_member member
  obtain ⟨_, pieces, _⟩ := frame_pieces short mtuRange nonempty
  obtain ⟨pieceNonempty, pieceShort⟩ := pieces piece pieceMember
  refine ⟨time, first, last, piece, payload, pieceNonempty, ?_⟩
  rw [payload, List.length_append, InlinePrefix.bytes_length _ short]
  omega

end Sending

def bit (weight : Nat) (set : Bool) : Nat := if set then weight else 0

inductive PictureIdOption where
  | off
  | random
  | initial (value : Int)

structure PictureId where
  hasPid : Bool
  /-- `_pid`, the identifier of the next frame. -/
  pid : Nat
  pid_range : pid < 0x8000

namespace PictureId

def new (randomPid : Fin 0x8000) : PictureIdOption → PictureId
  | .off => { hasPid := false, pid := 0, pid_range := by decide }
  | .random => { hasPid := true, pid := randomPid, pid_range := randomPid.isLt }
  | .initial value =>
      { hasPid := true
        pid := Word.wrapUnsigned 15 value
        pid_range := Word.wrap_unsigned_lt 15 value }

def pidHi (self : PictureId) : Nat :=
  if self.hasPid then 0x80 ||| (self.pid >>> 8 &&& 0x7F) else 0

def pidLo (self : PictureId) : Nat := if self.hasPid then self.pid &&& 0xFF else 0

/-- After a frame; every fragment of it carried the same identifier. -/
def advance (self : PictureId) : PictureId :=
  if self.hasPid then
    { self with
      pid := (self.pid + 1) % 0x8000
      pid_range := Nat.mod_lt _ (by decide) }
  else self

theorem advance_iterate (self : PictureId) (present : self.hasPid = true) (count : Nat) :
    (advance^[count] self).hasPid = true ∧
      (advance^[count] self).pid = (self.pid + count) % 0x8000 := by
  induction count with
  | zero => exact ⟨present, (Nat.mod_eq_of_lt self.pid_range).symm⟩
  | succ count ih =>
      obtain ⟨still, value⟩ := ih
      rw [Function.iterate_succ_apply', advance, if_pos still]
      refine ⟨still, ?_⟩
      simp only [value]
      omega

theorem pid_field (self : PictureId) (present : self.hasPid = true) :
    [byteAt self.pidHi 0, byteAt self.pidLo 0] = encodeBE 2 (0x8000 + self.pid) := by
  have range := self.pid_range
  have high : self.pid >>> 8 &&& 0x7F = self.pid / 256 := by
    rw [Nat.and_two_pow_sub_one_eq_mod _ 7, Nat.shiftRight_eq_div_pow]
    omega
  have low : self.pid &&& 0xFF = self.pid % 256 := Nat.and_two_pow_sub_one_eq_mod _ 8
  have set : 0x80 ||| self.pid / 256 = 0x80 + self.pid / 256 :=
    (Nat.two_pow_add_eq_or_of_lt (show self.pid / 256 < 2 ^ 7 by omega) 1).symm
  have hi : self.pidHi = 0x80 + self.pid / 256 := by
    rw [pidHi, if_pos present, high, set]
  have lo : self.pidLo = self.pid % 256 := by
    rw [pidLo, if_pos present, low]
  have highByte : byteAt self.pidHi 0 = byteAt (0x8000 + self.pid) 8 := by
    apply UInt8.toNat_inj.mp
    rw [byte_at_to_nat, byte_at_to_nat, hi]
    norm_num
    omega
  have lowByte : byteAt self.pidLo 0 = byteAt (0x8000 + self.pid) 0 := by
    apply UInt8.toNat_inj.mp
    rw [byte_at_to_nat, byte_at_to_nat, lo]
    norm_num
    omega
  rw [highByte, lowByte]
  rfl

theorem read_pid_field (self : PictureId) (present : self.hasPid = true) (before after : Bytes) :
    readBE 2 (before ++ [byteAt self.pidHi 0, byteAt self.pidLo 0] ++ after) before.length =
      0x8000 + self.pid := by
  have range := self.pid_range
  have read := read_be_append_right 2 before
    ([byteAt self.pidHi 0, byteAt self.pidLo 0] ++ after) 0
  rw [Nat.add_zero, pid_field self present, read_be_encode] at read
  rw [List.append_assoc, pid_field self present, read]
  omega

/-- The bit that says that the identifier has two bytes. -/
theorem pid_hi_marked (self : PictureId) (present : self.hasPid = true) :
    self.pidHi % 256 &&& 0x80 ≠ 0 := by
  have bit : ∀ high < 128, (0x80 ||| high) % 256 &&& 0x80 ≠ 0 := by decide
  rw [pidHi, if_pos present]
  exact bit _ (Nat.lt_of_le_of_lt Nat.and_le_right (by decide))

end PictureId

/-- An identifier as it stands in a descriptor: in one byte, or in two under the M bit. -/
inductive PictureIdField where
  | short (pid : Fin 0x80)
  | long (pid : Fin 0x8000)
  deriving DecidableEq, Repr

def PictureIdField.bytes : PictureIdField → Bytes
  | .short pid => [byteAt pid 0]
  | .long pid => encodeBE 2 (0x8000 + pid)

theorem PictureIdField.marked (field : PictureIdField) (suffix : Bytes) :
    field.bytes.length =
      if ((field.bytes ++ suffix).getD 0 0).toNat &&& 0x80 ≠ 0 then 2 else 1 := by
  have bit : ∀ byte < 256, (byte &&& 0x80 ≠ 0 ↔ 0x80 ≤ byte) := by
    decide +kernel
  cases field with
  | short pid =>
      have small := pid.isLt
      have clear : ¬ (byteAt pid 0).toNat &&& 0x80 ≠ 0 := by
        rw [bit _ (UInt8.toNat_lt _), byte_at_low]
        omega
      exact (if_neg clear).symm
  | long pid =>
      have small := pid.isLt
      have set : (byteAt (0x8000 + pid) 8).toNat &&& 0x80 ≠ 0 := by
        rw [bit _ (UInt8.toNat_lt _), byte_at_to_nat]
        omega
      exact (if_pos set).symm

theorem PictureIdField.read_length (field : Option PictureIdField) (front suffix : Bytes) :
    let written := (field.map PictureIdField.bytes).getD []
    let payload := front ++ (written ++ suffix)
    (if field.isSome = true then
        if front.length < payload.length ∧ (payload.getD front.length 0).toNat &&& 0x80 ≠ 0 then 2
        else 1
      else 0) = written.length := by
  intro written payload
  cases field with
  | none => rfl
  | some field =>
      have marked := field.marked suffix
      have positive : 0 < field.bytes.length := by
        rw [marked]
        split_ifs <;> decide
      have inside : front.length < payload.length := by
        simp only [payload, written, Option.map_some, Option.getD_some, List.length_append]
        omega
      have here : payload.getD front.length 0 = (field.bytes ++ suffix).getD 0 0 := by
        rw [List.getD_eq_getElem?_getD, List.getElem?_append_right (Nat.le_refl _), Nat.sub_self]
        rfl
      simp only [inside, here, true_and]
      exact marked.symm

structure PictureIdPacketizer where
  base : Packetizer
  picture : PictureId

def PictureIdPacketizer.new (name : String) (random : Fin 0x10000) (randomPid : Fin 0x8000)
    (opts : PacketizerOptions) (pictureId : PictureIdOption) :
    Except String PictureIdPacketizer := do
  let base ← initPacketizer name random opts
  return { base := base, picture := .new randomPid pictureId }

structure FrameDepacketizer where
  callbacks : Callbacks
  fragments : List Bytes
  deriving DecidableEq, Repr

namespace FrameDepacketizer

def new (name : String) (opts : DepacketizerOptions) : Except String FrameDepacketizer := do
  let callbacks ← initDepacketizer name opts
  return { callbacks := callbacks, fragments := [] }

/-- A piece that starts a frame drops what was held. -/
def take (self : FrameDepacketizer) (start : Bool) (data : Bytes) : FrameDepacketizer :=
  { self with fragments := if start then [data] else self.fragments ++ [data] }

def handOut (self : FrameDepacketizer) (frameType : Bytes → FrameType) (timestamp : Nat) :
    FrameDepacketizer × List DepacketizerEvent :=
  ({ self with fragments := [] },
    [.output
      { data := self.fragments.flatten
        timestamp := timestamp
        type := frameType self.fragments.flatten }])

def reset (self : FrameDepacketizer) : FrameDepacketizer := { self with fragments := [] }

def close (self : FrameDepacketizer) : FrameDepacketizer :=
  { self.reset with callbacks := { output := false, error := false } }

theorem run_frame
    {receive : FrameDepacketizer → Outgoing → FrameDepacketizer × List DepacketizerEvent}
    {descriptor : Bool → Bool → InlinePrefix} {prefixLen mtu rtpTs : Nat}
    (frameType : Bytes → FrameType) (callbacks : Callbacks)
    (reads : ∀ held first last piece, piece ≠ [] →
      receive ⟨callbacks, held⟩ ⟨(descriptor first last).bytes prefixLen ++ piece, rtpTs, last⟩ =
        if last then (take ⟨callbacks, held⟩ first piece).handOut frameType rtpTs
        else (take ⟨callbacks, held⟩ first piece, []))
    (short : prefixLen ≤ 4) (mtuRange : 100 ≤ mtu) {data : Bytes} (nonempty : data ≠ [])
    (held : List Bytes) :
    run receive ⟨callbacks, held⟩ (frameOutgoing descriptor prefixLen mtu rtpTs data) =
      (⟨callbacks, []⟩, [.output ⟨data, rtpTs, frameType data⟩]) := by
  obtain ⟨some, pieces, whole⟩ := frame_pieces short mtuRange nonempty
  have finished : run receive ⟨callbacks, held⟩
      (fragmentOutgoing (fun first last => (descriptor first last).bytes prefixLen) rtpTs true true
        (framePieces prefixLen mtu data)) =
      (⟨callbacks, framePieces prefixLen mtu data⟩ : FrameDepacketizer).handOut frameType
        rtpTs := by
    apply run_pieces (fun kept => ⟨callbacks, kept⟩)
      (fun kept => (⟨callbacks, kept⟩ : FrameDepacketizer).handOut frameType rtpTs)
    · exact fun piece some => reads held true true piece some
    · exact fun piece some => reads held true false piece some
    · exact fun kept piece some => reads kept false false piece some
    · exact fun kept piece some => reads kept false true piece some
    · exact some
    · exact fun piece member => (pieces piece member).1
  rw [frameOutgoing, finished, handOut, whole]

end FrameDepacketizer

end RtpPacket.Codec
