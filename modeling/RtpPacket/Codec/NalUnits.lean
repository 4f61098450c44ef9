import Mathlib.Tactic
import RtpPacket.Rtp.Packetizer

/-!
# NAL units in a buffer

The two framings of an access unit, and the fragmentation of a unit that does not
fit a packet. A cursor into the buffer is modelled by the bytes from it on.
-/

namespace RtpPacket.Codec

open ByteCodec Rtp

set_option autoImplicit false

def startsWithStartCode (buf : Bytes) : Bool :=
  [0, 0, 1].isPrefixOf buf || [0, 0, 0, 1].isPrefixOf buf

/-- The start code at the cursor, `0` when there is none. A code in the last three
bytes is not seen. -/
def startCodeLength : Bytes → Nat
  | b0 :: b1 :: b2 :: b3 :: _ =>
      if b0 = 0 ∧ b1 = 0 then
        if b2 = 1 then 3 else if b2 = 0 ∧ b3 = 1 then 4 else 0
      else 0
  | _ => 0

/-- The first loop of `_splitAnnexB`. Without a start code it stops three bytes before the end. -/
def skipToStartCode : Bytes → Bytes
  | [] => []
  | byte :: rest =>
      let scLen := startCodeLength (byte :: rest)
      if rest.length < 3 then byte :: rest
      else if scLen > 0 then (byte :: rest).drop scLen
      else skipToStartCode rest

/-- The second loop; `nalu` is what lies between `naluStart` and the cursor. -/
def nalusFrom (nalu : Bytes) : Bytes → List Bytes
  | [] => if nalu.isEmpty then [] else [nalu]
  | byte :: rest =>
      let scLen := startCodeLength (byte :: rest)
      if rest.length < 3 then [nalu ++ byte :: rest]
      else if scLen > 0 then
        (if nalu.isEmpty then [] else [nalu]) ++ nalusFrom [] (rest.drop (scLen - 1))
      else nalusFrom (nalu ++ [byte]) rest
termination_by bytes => bytes.length

def splitAnnexB (buf : Bytes) : List Bytes := nalusFrom [] (skipToStartCode buf)

/-- The walk over 4-byte lengths that have to tile the buffer exactly. -/
def lengthPrefixedFrom (bytes : Bytes) : Option (List Bytes) :=
  if bytes.isEmpty then some []
  else if bytes.length < 4 then none
  else
    let len := readBE 4 bytes 0
    let rest := bytes.drop 4
    if len = 0 ∨ rest.length < len then none
    else if rest.headD 0 &&& 0x80 ≠ 0 then none
    else (lengthPrefixedFrom (rest.drop len)).map (rest.take len :: ·)
termination_by bytes.length
decreasing_by
  simp only [List.length_drop]
  omega

def splitLengthPrefixed (least : Nat) (buf : Bytes) : Option (List Bytes) :=
  if buf.length < least then none
  else (lengthPrefixedFrom buf).filter (fun nalus => 0 < nalus.length)

/-- The fragments of a unit from number `i` on, `dataStart` bytes of the unit having
gone into `header`, the bytes before the FU header. -/
def fragmentLoop (header : List Nat) (naluType dataStart maxPayload fragCount : Nat) (nalu : Bytes)
    (rtpTs : Nat) (isLastNalu withMeta : Bool) :
    Nat → Nat → Packetizer → List Packet × Packetizer
  | 0, _, self => ([], self)
  | remaining + 1, offset, self =>
      let i := fragCount - (remaining + 1)
      let start := i == 0
      let last := i == fragCount - 1
      let size := min maxPayload (nalu.length - dataStart - offset)
      let fuHeader := (if start then 0x80 else 0) ||| (if last then 0x40 else 0) ||| naluType
      let inline := header ++ [fuHeader]
      let made := self.makePacketWithPrefix (inline.getD 0 0) (inline.getD 1 0) (inline.getD 2 0) 0
        inline.length nalu (dataStart + offset) size rtpTs (last && isLastNalu) withMeta
      let later := fragmentLoop header naluType dataStart maxPayload fragCount nalu rtpTs
        isLastNalu withMeta remaining (offset + size) made.2
      (made.1 :: later.1, later.2)

def fragments (header : List Nat) (naluType dataStart maxPayload : Nat) (nalu : Bytes)
    (rtpTs : Nat) (isLastNalu withMeta : Bool) (self : Packetizer) : List Packet × Packetizer :=
  let fragCount := (nalu.length - dataStart + maxPayload - 1) / maxPayload
  fragmentLoop header naluType dataStart maxPayload fragCount nalu rtpTs isLastNalu withMeta
    fragCount 0 self

def packetizeNalus (fragment : Packetizer → Bytes → Nat → Bool → Bool → List Packet × Packetizer)
    (rtpTs : Nat) (withMeta : Bool) : List Bytes → Packetizer → List Packet × Packetizer
  | [], self => ([], self)
  | nalu :: rest, self =>
      let isLastNalu := rest.isEmpty
      let made :=
        if nalu.length ≤ self.mtu then
          let packet := self.makePacket nalu rtpTs isLastNalu withMeta
          ([packet.1], packet.2)
        else fragment self nalu rtpTs isLastNalu withMeta
      let later := packetizeNalus fragment rtpTs withMeta rest made.2
      (made.1 ++ later.1, later.2)

def lengthPrefixed (nalus : List Bytes) : Bytes :=
  nalus.flatMap (fun nalu => encodeBE 4 nalu.length ++ nalu)

@[simp] theorem length_prefixed_nil : lengthPrefixed [] = [] := by
  rw [lengthPrefixed, List.flatMap_nil]

@[simp] theorem length_prefixed_cons (nalu : Bytes) (rest : List Bytes) :
    lengthPrefixed (nalu :: rest) = encodeBE 4 nalu.length ++ (nalu ++ lengthPrefixed rest) := by
  simp [lengthPrefixed]

theorem start_code_zeros {bytes : Bytes} (code : 0 < startCodeLength bytes) :
    ∃ rest, bytes = 0 :: 0 :: rest := by
  unfold startCodeLength at code
  split at code
  · next b0 b1 b2 b3 rest =>
      split at code
      · next zeros => exact ⟨b2 :: b3 :: rest, by rw [zeros.1, zeros.2]⟩
      · omega
  · omega

theorem start_code_long {bytes : Bytes} (code : 0 < startCodeLength bytes) : 4 ≤ bytes.length := by
  unfold startCodeLength at code
  split at code
  · simp
  · omega

theorem skip_to_start_code {bytes : Bytes} (code : 0 < startCodeLength bytes) :
    skipToStartCode bytes = bytes.drop (startCodeLength bytes) := by
  have long := start_code_long code
  cases bytes with
  | nil => simp at long
  | cons byte rest =>
      rw [List.length_cons] at long
      rw [skipToStartCode, if_neg (by omega), if_pos code]

theorem nalus_from_code (nalu : Bytes) {bytes : Bytes} (code : 0 < startCodeLength bytes) :
    nalusFrom nalu bytes =
      (if nalu.isEmpty then [] else [nalu]) ++
        nalusFrom [] (bytes.drop (startCodeLength bytes)) := by
  have long := start_code_long code
  cases bytes with
  | nil => simp at long
  | cons byte rest =>
      rw [List.length_cons] at long
      obtain ⟨scLen, same⟩ := Nat.exists_eq_succ_of_ne_zero code.ne'
      rw [nalusFrom, if_neg (by omega), if_pos code, same]
      rfl

end RtpPacket.Codec
