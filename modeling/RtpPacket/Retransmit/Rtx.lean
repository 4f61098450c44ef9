import RtpPacket.Lib.Stores
import RtpPacket.Rtp.Parsing
import RtpPacket.Srtp.Rtp

/-!
# Retransmission packets

A lost packet is sent again in a stream of its own: with the payload type, the source and
the next number of that stream, and with its own number before the payload. The receiver
puts it back under the number it had, without its padding.
-/

namespace RtpPacket.Retransmit

open ByteCodec Rtp Srtp Stores Word

set_option autoImplicit false

structure RtxOptions where
  rtxSsrc : Option Int
  rtxPt : Option Int
  rtxSeq : Option Int

structure PrimaryOptions where
  primarySsrc : Option Int
  primaryPt : Option Int

/-- Fixed part, sources and the extension block where there is room for one. -/
def rtxHeaderLen (pkt : Bytes) : Nat :=
  let cc := readBE 1 pkt 0 % 16
  let hasExt := readBE 1 pkt 0 / 16 % 2 = 1
  let headerLen := 12 + cc * 4
  if hasExt ∧ pkt.length ≥ headerLen + 4 then
    headerLen + (4 + readBE 2 pkt (headerLen + 2) * 4)
  else headerLen

/-- The three fields that tell streams apart; the marker bit stays. -/
def patchStream (b1 : Nat) (pt ssrc : Int) (seq : Nat) (header : Bytes) : Bytes :=
  store 8 (encodeBE 4 (wrapUnsigned 32 ssrc))
    (store 2 (encodeBE 2 seq)
      (store 1 (encodeBE 1 (b1 / 128 * 128 + wrapUnsigned 7 pt)) header))

def buildRtxPacket (origPkt : Bytes) (opts : Option RtxOptions) : Option Bytes :=
  if origPkt.length < 12 then none
  else
    match opts with
    | some ⟨some rtxSsrc, some rtxPt, some rtxSeq⟩ =>
        let headerLen := rtxHeaderLen origPkt
        if origPkt.length < headerLen then none
        else
          let origSeq := readBE 2 origPkt 2
          some (patchStream (readBE 1 origPkt 1) rtxPt rtxSsrc (wrapUnsigned 16 rtxSeq)
            (origPkt.take headerLen) ++ encodeBE 2 origSeq ++ origPkt.drop headerLen)
    | _ => none

def rtxPayloadEnd (rtxPkt : Bytes) (headerLen : Nat) : Nat :=
  if readBE 1 rtxPkt 0 / 32 % 2 = 1 then
    let padLen := readBE 1 rtxPkt (rtxPkt.length - 1)
    if padLen ≥ 1 ∧ headerLen + padLen ≤ rtxPkt.length then rtxPkt.length - padLen
    else rtxPkt.length
  else rtxPkt.length

/-- A first byte without its P bit. -/
def clearPadding (b0 : Nat) : Nat := b0 - b0 / 32 % 2 * 32

def parseRtxPacket (rtxPkt : Bytes) (opts : Option PrimaryOptions) : Option Bytes :=
  if rtxPkt.length < 12 then none
  else
    match opts with
    | some ⟨some primarySsrc, some primaryPt⟩ =>
        let headerLen := rtxHeaderLen rtxPkt
        let payloadEnd := rtxPayloadEnd rtxPkt headerLen
        if payloadEnd < headerLen + 2 then none
        else
          let osn := readBE 2 rtxPkt headerLen
          some (patchStream (readBE 1 rtxPkt 1) primaryPt primarySsrc osn
            (store 0 (encodeBE 1 (clearPadding (readBE 1 rtxPkt 0))) (rtxPkt.take headerLen)) ++
              (rtxPkt.take payloadEnd).drop (headerLen + 2))
    | _ => none

theorem rtx_header_len (pkt : Bytes) : rtxHeaderLen pkt = rtpHeaderLength pkt := by
  rw [rtxHeaderLen, rtpHeaderLength]

section Patches

variable {header : Bytes}

theorem patched_lengths (long : 12 ≤ header.length) (b1 : Nat) (pt : Int) (seq : Nat) :
    (store 1 (encodeBE 1 (b1 / 128 * 128 + wrapUnsigned 7 pt)) header).length = header.length ∧
      (store 2 (encodeBE 2 seq)
        (store 1 (encodeBE 1 (b1 / 128 * 128 + wrapUnsigned 7 pt)) header)).length =
          header.length := by
  have type := stored_length (show 1 + 1 ≤ header.length by omega)
    (b1 / 128 * 128 + wrapUnsigned 7 pt)
  exact ⟨type, (stored_length (by omega) seq).trans type⟩

theorem patch_stream_length (long : 12 ≤ header.length) (b1 : Nat) (pt ssrc : Int) (seq : Nat) :
    (patchStream b1 pt ssrc seq header).length = header.length := by
  obtain ⟨_, number⟩ := patched_lengths long b1 pt seq
  exact (stored_length (by omega) _).trans number

theorem get_patch_stream (long : 12 ≤ header.length) (b1 : Nat) (pt ssrc : Int) (seq index : Nat) :
    (patchStream b1 pt ssrc seq header)[index]? =
      if 8 ≤ index ∧ index < 12 then (encodeBE 4 (wrapUnsigned 32 ssrc))[index - 8]?
      else if 2 ≤ index ∧ index < 4 then (encodeBE 2 seq)[index - 2]?
      else if 1 ≤ index ∧ index < 2 then
        (encodeBE 1 (b1 / 128 * 128 + wrapUnsigned 7 pt))[index - 1]?
      else header[index]? := by
  obtain ⟨type, number⟩ := patched_lengths long b1 pt seq
  rw [patchStream, get_store (by rw [encode_be_length]; omega),
    get_store (by rw [encode_be_length]; omega), get_store (by rw [encode_be_length]; omega)]
  simp only [encode_be_length]

/-- The bytes of the payload type, the number and the source. -/
def StreamField (index : Nat) : Prop := (1 ≤ index ∧ index < 4) ∨ (8 ≤ index ∧ index < 12)

theorem patch_stream_outside (long : 12 ≤ header.length) (b1 : Nat) (pt ssrc : Int) (seq : Nat)
    {index : Nat} (outside : ¬ StreamField index) :
    (patchStream b1 pt ssrc seq header)[index]? = header[index]? := by
  rw [StreamField] at outside
  rw [get_patch_stream long, if_neg (by omega), if_neg (by omega), if_neg (by omega)]

theorem patch_patch (long : 12 ≤ header.length) (b1 other : Nat) (pt ssrc otherPt otherSsrc : Int)
    (seq otherSeq : Nat) :
    patchStream other otherPt otherSsrc otherSeq (patchStream b1 pt ssrc seq header) =
      patchStream other otherPt otherSsrc otherSeq header := by
  have length := patch_stream_length long b1 pt ssrc seq
  apply List.ext_getElem?
  intro index
  rw [get_patch_stream (by omega), get_patch_stream long, get_patch_stream long]
  split_ifs <;> rfl

theorem patch_self (long : 12 ≤ header.length) :
    patchStream (readBE 1 header 1) (readBE 1 header 1 % 128 : Nat) (readBE 4 header 8 : Nat)
      (readBE 2 header 2) header = header := by
  have type : readBE 1 header 1 / 128 * 128 + wrapUnsigned 7 (readBE 1 header 1 % 128 : Nat) =
      readBE 1 header 1 := by
    have small : readBE 1 header 1 % 128 < 2 ^ 7 := Nat.mod_lt _ (by decide)
    rw [wrap_unsigned_of_lt small]
    exact Nat.div_add_mod' _ _
  have source : wrapUnsigned 32 (readBE 4 header 8 : Nat) = readBE 4 header 8 :=
    wrap_unsigned_of_lt (read_be_lt 4 header 8)
  rw [patchStream, type, source, store_read (by omega), store_read (by omega),
    store_read (by omega)]

theorem patch_store_first (long : 12 ≤ header.length) (b0 b1 : Nat) (pt ssrc : Int) (seq : Nat) :
    patchStream b1 pt ssrc seq (store 0 (encodeBE 1 b0) header) =
      store 0 (encodeBE 1 b0) (patchStream b1 pt ssrc seq header) := by
  have inside : 0 + (encodeBE 1 b0).length ≤ header.length := by
    rw [encode_be_length]
    omega
  have length := store_length inside
  have patched := patch_stream_length long b1 pt ssrc seq
  apply List.ext_getElem?
  intro index
  rw [get_patch_stream (by omega), get_store inside, get_store (by omega), get_patch_stream long,
    encode_be_length]
  split_ifs <;> first | rfl | omega

theorem read_patch_stream (long : 12 ≤ header.length) (b1 : Nat) (pt ssrc : Int) (seq : Nat)
    {width offset : Nat}
    (outside : offset + width ≤ 1 ∨ (4 ≤ offset ∧ offset + width ≤ 8) ∨ 12 ≤ offset) :
    readBE width (patchStream b1 pt ssrc seq header) offset = readBE width header offset := by
  apply read_be_congr
  intro index low high
  apply patch_stream_outside long
  rw [StreamField]
  omega

theorem read_patched_type (long : 12 ≤ header.length) (b1 : Nat) (pt ssrc : Int) (seq : Nat) :
    readBE 1 (patchStream b1 pt ssrc seq header) 1 =
      (b1 / 128 * 128 + wrapUnsigned 7 pt) % 256 := by
  obtain ⟨type, number⟩ := patched_lengths long b1 pt seq
  rw [patchStream, read_stored_elsewhere (by omega) _ (by omega),
    read_stored_elsewhere (by omega) _ (by omega), read_stored (by omega), pow_one]

theorem read_patched_seq (long : 12 ≤ header.length) (b1 : Nat) (pt ssrc : Int) (seq : Nat) :
    readBE 2 (patchStream b1 pt ssrc seq header) 2 = seq % 2 ^ 16 := by
  obtain ⟨type, number⟩ := patched_lengths long b1 pt seq
  rw [patchStream, read_stored_elsewhere (by omega) _ (by omega), read_stored (by omega)]
  rfl

theorem read_patched_ssrc (long : 12 ≤ header.length) (b1 : Nat) (pt ssrc : Int) (seq : Nat) :
    readBE 4 (patchStream b1 pt ssrc seq header) 8 = wrapUnsigned 32 ssrc := by
  obtain ⟨type, number⟩ := patched_lengths long b1 pt seq
  rw [patchStream, read_stored (by omega)]
  exact Nat.mod_eq_of_lt (wrap_unsigned_lt 32 ssrc)

end Patches

/-- A header that is all there. -/
structure WholeHeader (packet : Bytes) : Prop where
  long : 12 ≤ packet.length
  fits : rtpHeaderLength packet ≤ packet.length
  block : Extended packet → fixedHeaderEnd packet + 4 ≤ packet.length

/-- The P bit announces padding behind the header. -/
def ValidPadding (packet : Bytes) : Prop :=
  Padded packet → 1 ≤ padCount packet ∧ rtpHeaderLength packet + padCount packet ≤ packet.length

def paddingLength (packet : Bytes) : Nat := if Padded packet then padCount packet else 0

/-- The packet without its padding and without the bit that announces it. -/
def withoutPadding (packet : Bytes) : Bytes :=
  if Padded packet then
    store 0 (encodeBE 1 (readBE 1 packet 0 - 32)) (packet.take (packet.length - padCount packet))
  else packet

/-- The packet in another stream, with its number before the payload. -/
structure Wraps (packet rtx : Bytes) (ssrc : Int) (pt : Int) (seq : Int) : Prop where
  length : rtx.length = packet.length + 2
  header : ∀ index < rtpHeaderLength packet, ¬ StreamField index → rtx[index]? = packet[index]?
  marker : readBE 1 rtx 1 / 128 = readBE 1 packet 1 / 128
  payloadType : (readBE 1 rtx 1 % 128 : Nat) = pt % 2 ^ 7
  sequenceNumber : (readBE 2 rtx 2 : Nat) = seq % 2 ^ 16
  ssrc : (readBE 4 rtx 8 : Nat) = ssrc % 2 ^ 32
  osn : readBE 2 rtx (rtpHeaderLength packet) = readBE 2 packet 2
  payload : rtx.drop (rtpHeaderLength packet + 2) = packet.drop (rtpHeaderLength packet)

theorem header_split {packet : Bytes} (fits : rtpHeaderLength packet ≤ packet.length) :
    ∃ header payload, packet = header ++ payload ∧
      rtpHeaderLength packet = header.length :=
  ⟨packet.take (rtpHeaderLength packet), packet.drop (rtpHeaderLength packet),
    (List.take_append_drop _ _).symm, (List.length_take_of_le fits).symm⟩

theorem header_length_ge (packet : Bytes) : fixedHeaderEnd packet ≤ rtpHeaderLength packet := by
  rw [rtpHeaderLength, fixedHeaderEnd]
  split_ifs <;> omega

theorem header_length_extended {packet : Bytes} (extended : Extended packet)
    (room : fixedHeaderEnd packet + 4 ≤ packet.length) :
    rtpHeaderLength packet =
      fixedHeaderEnd packet + (4 + readBE 2 packet (fixedHeaderEnd packet + 2) * 4) :=
  if_pos ⟨extended, room⟩

theorem header_length_plain {packet : Bytes} (plain : ¬ Extended packet) :
    rtpHeaderLength packet = fixedHeaderEnd packet :=
  if_neg fun both => plain both.1

theorem header_length_congr {left right : Bytes} (first : readBE 1 left 0 = readBE 1 right 0)
    (block : Extended left →
      fixedHeaderEnd left + 4 ≤ left.length ∧ fixedHeaderEnd left + 4 ≤ right.length ∧
        readBE 2 left (fixedHeaderEnd left + 2) = readBE 2 right (fixedHeaderEnd left + 2)) :
    rtpHeaderLength left = rtpHeaderLength right := by
  have fixed : fixedHeaderEnd right = fixedHeaderEnd left := by
    rw [fixedHeaderEnd, fixedHeaderEnd, first]
  have flag : Extended right ↔ Extended left := by
    rw [Extended, Extended, first]
  by_cases extended : Extended left
  · obtain ⟨room, otherRoom, words⟩ := block extended
    rw [header_length_extended extended room,
      header_length_extended (flag.mpr extended) (by rwa [fixed]), fixed, words]
  · rw [header_length_plain extended, header_length_plain (mt flag.mp extended), fixed]

section Wrapping

variable {header payload : Bytes}

theorem wraps_patched (long : 12 ≤ header.length)
    (ends : rtpHeaderLength (header ++ payload) = header.length) (pt ssrc seq : Int) :
    Wraps (header ++ payload)
      (patchStream (readBE 1 header 1) pt ssrc (wrapUnsigned 16 seq) header ++
        encodeBE 2 (readBE 2 header 2) ++ payload) ssrc pt seq := by
  have length := patch_stream_length long (readBE 1 header 1) pt ssrc (wrapUnsigned 16 seq)
  have type := read_patched_type long (readBE 1 header 1) pt ssrc (wrapUnsigned 16 seq)
  have inside {width offset : Nat} (short : offset + width ≤ header.length) :
      readBE width (patchStream (readBE 1 header 1) pt ssrc (wrapUnsigned 16 seq) header ++
          encodeBE 2 (readBE 2 header 2) ++ payload) offset =
        readBE width (patchStream (readBE 1 header 1) pt ssrc (wrapUnsigned 16 seq) header)
          offset := by
    rw [List.append_assoc]
    exact read_be_append_left _ (by omega)
  have small := wrap_unsigned_lt 7 pt
  have byte := read_be_lt 1 header 1
  have first := read_be_append_left payload (show 1 + 1 ≤ header.length by omega)
  constructor
  · simp only [List.length_append, length, encode_be_length]
    omega
  · intro index before outside
    rw [ends] at before
    rw [List.append_assoc, List.getElem?_append_left (by omega),
      patch_stream_outside long _ _ _ _ outside, List.getElem?_append_left before]
  · rw [inside (by omega), type, first]
    omega
  · rw [inside (by omega), type, ← wrap_unsigned_cast]
    omega
  · rw [inside (by omega), read_patched_seq long, wrap_unsigned_mod, wrap_unsigned_cast]
  · rw [inside (by omega), read_patched_ssrc long, wrap_unsigned_cast]
  · rw [ends, List.append_assoc]
    refine (read_be_past length _ 0).trans ?_
    rw [read_be_encode, read_be_append_left payload (by omega)]
    exact Nat.mod_eq_of_lt (read_be_lt 2 header 2)
  · rw [ends, List.drop_left, List.drop_left' (by simp [length])]

theorem build_rtx (long : 12 ≤ header.length)
    (ends : rtpHeaderLength (header ++ payload) = header.length) (rtxSsrc rtxPt rtxSeq : Int) :
    buildRtxPacket (header ++ payload) (some ⟨some rtxSsrc, some rtxPt, some rtxSeq⟩) =
      some (patchStream (readBE 1 header 1) rtxPt rtxSsrc (wrapUnsigned 16 rtxSeq) header ++
        encodeBE 2 (readBE 2 header 2) ++ payload) := by
  have enough : ¬ (header ++ payload).length < 12 := by
    rw [List.length_append]
    omega
  have fits : ¬ (header ++ payload).length < header.length := by
    rw [List.length_append]
    omega
  rw [buildRtxPacket, if_neg enough]
  simp only [rtx_header_len, ends]
  rw [if_neg fits, List.take_left, List.drop_left, read_be_append_left payload (by omega),
    read_be_append_left payload (by omega)]

end Wrapping

theorem build_rtx_options {packet rtx : Bytes} {opts : Option RtxOptions}
    (built : buildRtxPacket packet opts = some rtx) :
    ∃ rtxSsrc rtxPt rtxSeq, opts = some ⟨some rtxSsrc, some rtxPt, some rtxSeq⟩ ∧
      rtpHeaderLength packet ≤ packet.length := by
  unfold buildRtxPacket at built
  by_cases short : packet.length < 12
  · rw [if_pos short] at built
    cases built
  · rw [if_neg short] at built
    split at built
    · dsimp only at built
      split_ifs at built with unfit
      exact ⟨_, _, _, rfl, Nat.not_lt.mp unfit⟩
    · cases built

theorem build_rtx_wraps {packet rtx : Bytes} {rtxSsrc rtxPt rtxSeq : Int}
    (built : buildRtxPacket packet (some ⟨some rtxSsrc, some rtxPt, some rtxSeq⟩) = some rtx) :
    Wraps packet rtx rtxSsrc rtxPt rtxSeq := by
  obtain ⟨_, _, _, _, fits⟩ := build_rtx_options built
  obtain ⟨header, payload, rfl, ends⟩ := header_split fits
  have long : 12 ≤ header.length := by
    have fixed := header_length_ge (header ++ payload)
    rw [ends, fixedHeaderEnd] at fixed
    omega
  rw [build_rtx long ends] at built
  rw [← Option.some.inj built]
  exact wraps_patched long ends rtxPt rtxSsrc rtxSeq

theorem patch_stream_marker {b1 other : Nat} (marker : b1 / 128 = other / 128) (pt ssrc : Int)
    (seq : Nat) (header : Bytes) :
    patchStream b1 pt ssrc seq header = patchStream other pt ssrc seq header := by
  rw [patchStream, patchStream, marker]

/-- Unwrapped, a packet has its own header again, without the P bit. -/
theorem unpatch {header : Bytes} (long : 12 ≤ header.length) {b1 : Nat}
    (marker : b1 / 128 = readBE 1 header 1 / 128) (b0 : Nat) (pt ssrc : Int) (seq : Nat) :
    patchStream b1 (readBE 1 header 1 % 128 : Nat) (readBE 4 header 8 : Nat) (readBE 2 header 2)
        (store 0 (encodeBE 1 b0) (patchStream (readBE 1 header 1) pt ssrc seq header)) =
      store 0 (encodeBE 1 b0) header := by
  have length := patch_stream_length long (readBE 1 header 1) pt ssrc seq
  rw [patch_store_first (by omega), patch_patch long, patch_stream_marker marker, patch_self long]

theorem without_padding_split {header payload : Bytes} (long : 12 ≤ header.length)
    (room : header.length + paddingLength (header ++ payload) ≤ (header ++ payload).length) :
    withoutPadding (header ++ payload) =
      store 0 (encodeBE 1 (clearPadding (readBE 1 header 0))) header ++
        payload.take (payload.length - paddingLength (header ++ payload)) := by
  have first := read_be_append_left payload (show 0 + 1 ≤ header.length by omega)
  rw [List.length_append] at room
  rw [withoutPadding]
  by_cases padded : Padded (header ++ payload)
  · have cleared : clearPadding (readBE 1 header 0) = readBE 1 header 0 - 32 := by
      rw [Padded, first] at padded
      rw [clearPadding, padded]
    rw [paddingLength, if_pos padded] at room
    rw [if_pos padded, paddingLength, if_pos padded, first, cleared, List.length_append,
      Nat.add_sub_assoc (by omega), List.take_length_add_append, store_append]
    rw [encode_be_length]
    omega
  · have kept : clearPadding (readBE 1 header 0) = readBE 1 header 0 := by
      rw [Padded, first] at padded
      rw [clearPadding]
      omega
    rw [if_neg padded, paddingLength, if_neg padded, kept, store_read (by omega), Nat.sub_zero,
      List.take_length]

/-- What a receiver computes of a wrapped packet. -/
theorem Wraps.same_header {packet rtx : Bytes} {ssrc pt seq : Int}
    (wraps : Wraps packet rtx ssrc pt seq) (whole : WholeHeader packet) :
    readBE 1 rtx 0 = readBE 1 packet 0 ∧ rtpHeaderLength rtx = rtpHeaderLength packet := by
  have fixed := header_length_ge packet
  have length := wraps.length
  have first : readBE 1 rtx 0 = readBE 1 packet 0 := by
    apply read_be_congr
    intro index low high
    apply wraps.header index
    · rw [fixedHeaderEnd] at fixed
      omega
    · rw [StreamField]
      omega
  refine ⟨first, (header_length_congr first.symm ?_).symm⟩
  intro extended
  have room := whole.block extended
  have ends := header_length_extended extended room
  refine ⟨room, by omega, (read_be_congr ?_).symm⟩
  intro index low high
  apply wraps.header index (by omega)
  rw [fixedHeaderEnd] at low
  rw [StreamField]
  omega

theorem Wraps.same_padding {packet rtx : Bytes} {ssrc pt seq : Int}
    (wraps : Wraps packet rtx ssrc pt seq)
    (payload : rtpHeaderLength packet < packet.length) : padCount rtx = padCount packet := by
  have last := read_be_drop 1 (rtpHeaderLength packet) packet
    (packet.length - 1 - rtpHeaderLength packet)
  have wrapped := read_be_drop 1 (rtpHeaderLength packet + 2) rtx
    (packet.length - 1 - rtpHeaderLength packet)
  have length := wraps.length
  rw [wraps.payload, last] at wrapped
  rw [padCount, padCount]
  convert wrapped.symm using 2 <;> omega

theorem Wraps.payload_end {packet rtx : Bytes} {ssrc pt seq : Int}
    (wraps : Wraps packet rtx ssrc pt seq) (whole : WholeHeader packet)
    (valid : ValidPadding packet) :
    rtpHeaderLength packet + paddingLength packet ≤ packet.length ∧
      rtxPayloadEnd rtx (rtpHeaderLength packet) = rtx.length - paddingLength packet := by
  obtain ⟨first, _⟩ := wraps.same_header whole
  have fits := whole.fits
  have length := wraps.length
  have flag : Padded rtx ↔ Padded packet := by
    rw [Padded, Padded, first]
  by_cases padded : Padded packet
  · obtain ⟨positive, room⟩ := valid padded
    have count := wraps.same_padding (by omega)
    rw [paddingLength, if_pos padded]
    refine ⟨room, (if_pos (flag.mpr padded)).trans ?_⟩
    refine (if_pos ?_).trans (by rw [← count]; rfl)
    change 1 ≤ padCount rtx ∧ _ + padCount rtx ≤ _
    omega
  · rw [paddingLength, if_neg padded]
    exact ⟨fits, if_neg (mt flag.mp padded)⟩

theorem parse_rtx {header payload : Bytes} {seq pad : Nat} (long : 12 ≤ header.length)
    (ends : rtpHeaderLength (header ++ encodeBE 2 seq ++ payload) = header.length)
    (seqRange : seq < 2 ^ 16) (room : pad ≤ payload.length)
    (stop : rtxPayloadEnd (header ++ encodeBE 2 seq ++ payload) header.length =
      (header ++ encodeBE 2 seq ++ payload).length - pad) (primarySsrc primaryPt : Int) :
    parseRtxPacket (header ++ encodeBE 2 seq ++ payload)
        (some ⟨some primarySsrc, some primaryPt⟩) =
      some (patchStream (readBE 1 header 1) primaryPt primarySsrc seq
        (store 0 (encodeBE 1 (clearPadding (readBE 1 header 0))) header) ++
          payload.take (payload.length - pad)) := by
  have length : (header ++ encodeBE 2 seq ++ payload).length =
      header.length + 2 + payload.length := by
    simp only [List.length_append, encode_be_length]
  have field {width offset : Nat} (inside : offset + width ≤ header.length) :
      readBE width (header ++ encodeBE 2 seq ++ payload) offset = readBE width header offset := by
    rw [List.append_assoc]
    exact read_be_append_left _ inside
  have number : readBE 2 (header ++ encodeBE 2 seq ++ payload) header.length = seq := by
    rw [List.append_assoc]
    refine (read_be_past rfl _ 0).trans ?_
    rw [read_be_encode]
    exact Nat.mod_eq_of_lt seqRange
  have taken : (header ++ encodeBE 2 seq ++ payload).take header.length = header := by
    rw [List.append_assoc, List.take_left]
  have kept : ((header ++ encodeBE 2 seq ++ payload).take (header.length + 2 + payload.length -
      pad)).drop (header.length + 2) = payload.take (payload.length - pad) := by
    rw [List.drop_take, List.drop_left' (by rw [List.length_append, encode_be_length])]
    congr 1
    omega
  rw [parseRtxPacket, if_neg (by omega)]
  simp only [rtx_header_len, ends, stop, length, taken, number, kept, field (show 0 + 1 ≤
    header.length by omega), field (show 1 + 1 ≤ header.length by omega)]
  rw [if_neg (by omega)]

theorem rtx_round_trip {packet : Bytes} (whole : WholeHeader packet) (valid : ValidPadding packet)
    (rtxSsrc rtxPt rtxSeq : Int) :
    ∃ rtx, buildRtxPacket packet (some ⟨some rtxSsrc, some rtxPt, some rtxSeq⟩) = some rtx ∧
      Wraps packet rtx rtxSsrc rtxPt rtxSeq ∧
      parseRtxPacket rtx
        (some ⟨some (readBE 4 packet 8 : Nat), some (readBE 1 packet 1 % 128 : Nat)⟩) =
          some (withoutPadding packet) := by
  obtain ⟨header, payload, rfl, ends⟩ := header_split whole.fits
  have long : 12 ≤ header.length := by
    have fixed := header_length_ge (header ++ payload)
    rw [ends, fixedHeaderEnd] at fixed
    omega
  have built := build_rtx long ends rtxSsrc rtxPt rtxSeq
  have wraps := build_rtx_wraps built
  refine ⟨_, built, wraps, ?_⟩
  have patched := patch_stream_length long (readBE 1 header 1) rtxPt rtxSsrc
    (wrapUnsigned 16 rtxSeq)
  obtain ⟨_, rtxEnds⟩ := wraps.same_header whole
  obtain ⟨room, stop⟩ := wraps.payload_end whole valid
  have marker := wraps.marker
  rw [ends] at room stop rtxEnds
  have field {width offset : Nat} (inside : offset + width ≤ header.length) :
      readBE width (header ++ payload) offset = readBE width header offset :=
    read_be_append_left payload inside
  have padRoom : paddingLength (header ++ payload) ≤ payload.length := by
    rw [List.length_append] at room
    omega
  rw [List.append_assoc, read_be_append_left _ (by omega), field (by omega)] at marker
  have flags := read_patch_stream long (readBE 1 header 1) rtxPt rtxSsrc (wrapUnsigned 16 rtxSeq)
    (Or.inl (show 0 + 1 ≤ 1 by omega))
  rw [parse_rtx (patched ▸ long) (rtxEnds.trans patched.symm) (read_be_lt 2 header 2) padRoom
    (patched.symm ▸ stop), flags, without_padding_split long room,
    field (show 1 + 1 ≤ header.length by omega), field (show 8 + 4 ≤ header.length by omega),
    unpatch long marker]

/-- Marker, one source, an extension block of one word, and two bytes of padding. -/
def paddedMedia : Bytes :=
  [0xB1, 0xE0, 0, 5, 0, 0, 0, 9, 0, 0, 0, 7, 0, 0, 0, 1, 0xBE, 0xDE, 0, 1, 0x10, 0xAA, 0, 0,
    0x55, 0, 2]

theorem rtx_round_trip_padded_media :
    withoutPadding paddedMedia =
        [0x91, 0xE0, 0, 5, 0, 0, 0, 9, 0, 0, 0, 7, 0, 0, 0, 1, 0xBE, 0xDE, 0, 1, 0x10, 0xAA, 0, 0,
          0x55] ∧
      ∃ rtx, buildRtxPacket paddedMedia (some ⟨some 8, some 97, some 70000⟩) = some rtx ∧
        Wraps paddedMedia rtx 8 97 70000 ∧
        parseRtxPacket rtx (some ⟨some (readBE 4 paddedMedia 8 : Nat),
          some (readBE 1 paddedMedia 1 % 128 : Nat)⟩) = some (withoutPadding paddedMedia) :=
  ⟨by decide, rtx_round_trip ⟨by decide, by decide, fun _ => by decide⟩ (fun _ => by decide)
    8 97 70000⟩

theorem WholeHeader.build {packet : Bytes} (whole : WholeHeader packet)
    (rtxSsrc rtxPt rtxSeq : Int) :
    ∃ rtx, buildRtxPacket packet (some ⟨some rtxSsrc, some rtxPt, some rtxSeq⟩) = some rtx ∧
      Wraps packet rtx rtxSsrc rtxPt rtxSeq := by
  obtain ⟨header, payload, rfl, ends⟩ := header_split whole.fits
  have fixed := header_length_ge (header ++ payload)
  rw [ends, fixedHeaderEnd] at fixed
  have built := build_rtx (show 12 ≤ header.length by omega) ends rtxSsrc rtxPt rtxSeq
  exact ⟨_, built, build_rtx_wraps built⟩

theorem seq_without_padding {packet : Bytes}
    (valid : ValidPadding packet) : seqOf (withoutPadding packet) = seqOf packet := by
  have fixed := header_length_ge packet
  rw [fixedHeaderEnd] at fixed
  rw [withoutPadding]
  split_ifs with padded
  · obtain ⟨_, room⟩ := valid padded
    have taken : (packet.take (packet.length - padCount packet)).length =
        packet.length - padCount packet := by
      rw [List.length_take]
      omega
    rw [seqOf, read_stored_elsewhere (by omega) _ (.inr (by omega)), seqOf]
    apply read_be_congr
    intro index _ high
    exact List.getElem?_take_of_lt (by omega)
  · rfl

/-- Of the number only its place in the cycle is on the wire. -/
theorem Wraps.renumber {packet rtx : Bytes} {ssrc pt seq other : Int}
    (wraps : Wraps packet rtx ssrc pt seq) (same : seq % 2 ^ 16 = other % 2 ^ 16) :
    Wraps packet rtx ssrc pt other :=
  { wraps with sequenceNumber := wraps.sequenceNumber.trans same }

theorem patch_stream_congr {header other : Bytes} (long : 12 ≤ header.length)
    (length : other.length = header.length)
    (agree : ∀ index, ¬ StreamField index → other[index]? = header[index]?) (b1 : Nat)
    (pt ssrc : Int) (seq : Nat) :
    patchStream b1 pt ssrc seq other = patchStream b1 pt ssrc seq header := by
  apply List.ext_getElem?
  intro index
  rw [get_patch_stream (by omega), get_patch_stream long]
  by_cases field : StreamField index
  · rw [StreamField] at field
    split_ifs <;> first | rfl | omega
  · rw [agree index field]

theorem Wraps.unpatch_header {packet rtx : Bytes} {ssrc pt seq : Int}
    (wraps : Wraps packet rtx ssrc pt seq) (whole : WholeHeader packet) (b0 : Nat) :
    patchStream (readBE 1 rtx 1) (readBE 1 packet 1 % 128 : Nat) (readBE 4 packet 8 : Nat)
        (readBE 2 packet 2) (store 0 (encodeBE 1 b0) (rtx.take (rtpHeaderLength packet))) =
      store 0 (encodeBE 1 b0) (packet.take (rtpHeaderLength packet)) := by
  obtain ⟨header, payload, rfl, ends⟩ := header_split whole.fits
  have fixed := header_length_ge (header ++ payload)
  rw [ends, fixedHeaderEnd] at fixed
  have long : 12 ≤ header.length := by omega
  have length := wraps.length
  rw [List.length_append] at length
  have taken : (rtx.take header.length).length = header.length := by
    rw [List.length_take]
    omega
  have agree : ∀ index, ¬ StreamField index →
      (rtx.take header.length)[index]? = header[index]? := by
    intro index outside
    by_cases inside : index < header.length
    · rw [List.getElem?_take_of_lt inside, wraps.header index (ends ▸ inside) outside,
        List.getElem?_append_left inside]
    · rw [List.getElem?_eq_none (by omega), List.getElem?_eq_none (by omega)]
  have marker := wraps.marker
  have field {width offset : Nat} (inside : offset + width ≤ header.length) :
      readBE width (header ++ payload) offset = readBE width header offset :=
    read_be_append_left payload inside
  rw [field (by omega)] at marker
  rw [ends, List.take_left, field (by omega), field (by omega), field (by omega),
    patch_store_first (by omega), patch_stream_congr long taken agree,
    patch_stream_marker marker, patch_self long]

/-- Whoever wrapped a packet, unwrapped it is the packet again. -/
theorem Wraps.unwrap {packet rtx : Bytes} {ssrc pt seq : Int}
    (wraps : Wraps packet rtx ssrc pt seq) (whole : WholeHeader packet)
    (valid : ValidPadding packet) :
    parseRtxPacket rtx
        (some ⟨some (readBE 4 packet 8 : Nat), some (readBE 1 packet 1 % 128 : Nat)⟩) =
      some (withoutPadding packet) := by
  have fixed := header_length_ge packet
  rw [fixedHeaderEnd] at fixed
  have fits := whole.fits
  have length := wraps.length
  obtain ⟨first, rtxEnds⟩ := wraps.same_header whole
  obtain ⟨room, stop⟩ := wraps.payload_end whole valid
  have unpatched := wraps.unpatch_header whole (clearPadding (readBE 1 packet 0))
  have osn : (rtx.drop (rtpHeaderLength packet)).take 2 = encodeBE 2 (readBE 2 packet 2) := by
    rw [← wraps.osn, encode_be_read_be (by omega)]
  have split : rtx = rtx.take (rtpHeaderLength packet) ++ encodeBE 2 (readBE 2 packet 2) ++
      packet.drop (rtpHeaderLength packet) := by
    rw [← wraps.payload, ← osn, List.append_assoc, ← List.drop_drop, List.take_append_drop,
      List.take_append_drop]
  obtain ⟨rtxHeader, cut⟩ : ∃ rtxHeader, rtx.take (rtpHeaderLength packet) = rtxHeader := ⟨_, rfl⟩
  have taken : rtxHeader.length = rtpHeaderLength packet := by
    rw [← cut, List.length_take]
    omega
  have field {width offset : Nat} (inside : offset + width ≤ rtxHeader.length) :
      readBE width rtx offset = readBE width rtxHeader offset := by
    conv_lhs => rw [split, cut, List.append_assoc]
    exact read_be_append_left _ inside
  rw [field (by omega), cut] at unpatched
  rw [field (by omega)] at first
  rw [cut] at split
  have padRoom : paddingLength packet ≤ (packet.drop (rtpHeaderLength packet)).length := by
    rw [List.length_drop]
    omega
  have parsed := parse_rtx (show 12 ≤ rtxHeader.length by omega)
    (by rw [← split, rtxEnds, taken]) (read_be_lt 2 packet 2) padRoom
    (by rw [← split, taken, stop]) (readBE 4 packet 8 : Nat) (readBE 1 packet 1 % 128 : Nat)
  rw [← split, first, unpatched] at parsed
  obtain ⟨header, payload, same, ends⟩ := header_split whole.fits
  subst same
  rw [ends, List.take_left, List.drop_left] at parsed
  rw [parsed, without_padding_split (by omega) (by rw [← ends]; exact room),
    read_be_append_left payload (by omega)]

end RtpPacket.Retransmit
