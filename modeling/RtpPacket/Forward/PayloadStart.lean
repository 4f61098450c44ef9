import RtpPacket.Retransmit.Rtx
import RtpPacket.Rtp.Remapping

/-!
# One payload offset

The parser, the forwarder, the retransmission and the encryption of a packet each compute
where its payload starts, and agree on every buffer.
-/

namespace RtpPacket.Forward

open ByteCodec Retransmit Rtp Srtp

set_option autoImplicit false

theorem header_length_clamped {buf : Bytes} (parseable : Parseable buf) :
    (parsedFields buf).headerLength = min (rtpHeaderLength buf) buf.length := by
  have sources := parseable.sources
  rw [parsed_header_length]
  by_cases extended : Rtp.Extended buf
  · by_cases room : fixedHeaderEnd buf + 4 ≤ buf.length
    · rw [if_pos ⟨extended, room⟩, header_length_extended extended room, blockEnd, Nat.add_assoc]
    · have short : rtpHeaderLength buf = fixedHeaderEnd buf := if_neg fun both => room both.2
      rw [if_neg fun both => room both.2, short, Nat.min_eq_left sources]
  · rw [if_neg fun both => extended both.1, header_length_plain extended, Nat.min_eq_left sources]

theorem remap_offset (buf : Bytes) (idMap : Option IdMap) :
    (remapExtensionIds buf idMap).2 = payloadOffset buf := by
  have offset := payload_offset_eq buf
  unfold remapExtensionIds
  dsimp only
  by_cases refused : payloadOffset buf < 0
  · rw [offset] at refused ⊢
    split_ifs at refused ⊢ with parseable
    · omega
    · rfl
  · refine (congrArg Prod.snd (if_neg refused)).trans ?_
    cases idMap with
    | none => rfl
    | some idMap =>
        dsimp only
        split_ifs <;> rfl

theorem wraps_behind_header {packet rtx : Bytes} {ssrc pt seq : Int}
    (wraps : Wraps packet rtx ssrc pt seq) (fits : rtpHeaderLength packet ≤ packet.length) :
    rtx.drop (rtpHeaderLength packet) =
      encodeBE 2 (readBE 2 packet 2) ++ packet.drop (rtpHeaderLength packet) := by
  have length := wraps.length
  have split := List.take_append_drop 2 (rtx.drop (rtpHeaderLength packet))
  rw [← encode_be_read_be (by omega), List.drop_drop, wraps.osn, wraps.payload] at split
  exact split.symm

def countedPadding (buf : Bytes) (start : Nat) : Nat :=
  if Padded buf ∧ 1 ≤ padCount buf ∧ padCount buf ≤ buf.length - start then padCount buf else 0

/-- Where the payload of a parsed packet starts, for all who compute it. -/
structure PayloadStart (buf : Bytes) (parsed : ParsedPacket) : Prop where
  offset : payloadOffset buf = parsed.headerLength
  encryption : parsed.headerLength = min (rtpHeaderLength buf) buf.length
  low : 12 ≤ parsed.headerLength
  high : parsed.headerLength ≤ buf.length
  remapping : ∀ idMap, (remapExtensionIds buf idMap).2 = parsed.headerLength
  retransmission : ∀ opts rtx, buildRtxPacket buf opts = some rtx →
    rtx.length = buf.length + 2 ∧
      rtx.drop parsed.headerLength =
        encodeBE 2 (readBE 2 buf 2) ++ buf.drop parsed.headerLength
  payload : parsed.payload =
    (buf.take (buf.length - countedPadding buf parsed.headerLength)).drop parsed.headerLength

theorem payload_end_counted {buf : Bytes} {start : Nat} (inside : start ≤ buf.length) :
    payloadEnd buf (decide (Padded buf)) start = buf.length - countedPadding buf start := by
  rw [payload_end_trimmed inside, countedPadding]
  by_cases announced : Padded buf ∧ 1 ≤ padCount buf ∧ padCount buf ≤ buf.length - start
  · rw [pad_count_drop (by omega), if_pos announced,
      if_pos ⟨decide_eq_true announced.1, announced.2⟩]
  · rw [if_neg announced, if_neg, Nat.sub_zero]
    intro both
    by_cases payload : start < buf.length
    · rw [pad_count_drop payload] at both
      exact announced ⟨of_decide_eq_true both.1, both.2⟩
    · omega

/-- Five computations of one offset. -/
theorem payload_start (buf : Bytes) :
    (payloadOffset buf = -1 ↔ parse buf = none) ∧
      ∀ parsed, parse buf = some parsed → PayloadStart buf parsed := by
  constructor
  · rw [payload_offset_eq, parse_eq]
    split_ifs with parseable
    · constructor
      · intro negative
        omega
      · intro impossible
        cases impossible
    · exact ⟨fun _ => rfl, fun _ => rfl⟩
  · intro parsed parses
    have offset := payload_offset_parsed parses
    obtain ⟨parseable, rfl⟩ := parse_eq_some_iff.mp parses
    obtain ⟨low, high⟩ := parseable.header_fits
    have clamped := header_length_clamped parseable
    refine ⟨offset, clamped, low, high, ?_, ?_, ?_⟩
    · intro idMap
      rw [remap_offset, offset]
    · intro opts rtx built
      obtain ⟨rtxSsrc, rtxPt, rtxSeq, rfl, fits⟩ := build_rtx_options built
      have wraps := build_rtx_wraps built
      rw [clamped, Nat.min_eq_left fits]
      exact ⟨wraps.length, wraps_behind_header wraps fits⟩
    · rw [← payload_end_counted high]
      rfl

end RtpPacket.Forward
