import RtpPacket.Rtp.Parsing

/-!
# Where the payload starts

`payloadOffset` answers for a forwarder what `parse` reports as the header length.
-/

namespace RtpPacket.Rtp

open ByteCodec

set_option autoImplicit false

def payloadOffset (buf : Bytes) : Int :=
  if buf.length < 12 then -1
  else if readBE 1 buf 0 / 64 % 4 ≠ rtpVersion then -1
  else
    let headerLen := 12 + readBE 1 buf 0 % 16 * 4
    if buf.length < headerLen then -1
    else if readBE 1 buf 0 / 16 % 2 = 1 ∧ buf.length ≥ headerLen + 4 then
      let extEnd := headerLen + 4 + readBE 2 buf (headerLen + 2) * 4
      ((if extEnd ≤ buf.length then extEnd else buf.length : Nat) : Int)
    else headerLen

theorem payload_offset_eq (buf : Bytes) :
    payloadOffset buf = if Parseable buf then ((parsedFields buf).headerLength : Int) else -1 := by
  rw [payloadOffset]
  by_cases parseable : Parseable buf
  · rw [if_neg (Nat.not_lt.mpr parseable.long)]
    refine (if_neg (not_not.mpr parseable.version)).trans ?_
    refine (if_neg (Nat.not_lt.mpr parseable.sources)).trans ?_
    rw [if_pos parseable, parsed_header_length, Nat.min_def]
    by_cases room : Extended buf ∧ fixedHeaderEnd buf + 4 ≤ buf.length
    · rw [if_pos room]
      exact if_pos room
    · rw [if_neg room]
      exact if_neg room
  · rw [if_neg parseable]
    dsimp only
    split_ifs with short version sources
    all_goals
      first
      | rfl
      | exact absurd ⟨Nat.not_lt.mp short, not_not.mp version, Nat.not_lt.mp sources⟩ parseable

theorem payload_offset_parsed {buf : Bytes} {parsed : ParsedPacket}
    (parses : parse buf = some parsed) : payloadOffset buf = parsed.headerLength := by
  obtain ⟨parseable, rfl⟩ := parse_eq_some_iff.mp parses
  rw [payload_offset_eq, if_pos parseable]

end RtpPacket.Rtp
