import RtpPacket.Rtcp.Reports

/-!
# What the builders write is read

One dispatcher reads the packets of all builders, by type, count and least size. Reports,
keyframe requests, descriptions and goodbyes come back with their arguments.
-/

namespace RtpPacket.Rtcp

open ByteCodec Utf8 Checked

set_option autoImplicit false

/-- What a call tells whose arguments fit their fields. -/
inductive Tells : BuilderCall → Body → Prop where
  | sr (now : Nat) {opts : SenderReport} {msw lsw : Nat}
      (ntp : opts.ntpTimestamp = some (msw, lsw)) (ssrc : opts.ssrc < 2 ^ 32)
      (high : msw < 2 ^ 32) (low : lsw < 2 ^ 32) (rtpTimestamp : opts.rtpTimestamp < 2 ^ 32)
      (packetCount : opts.packetCount < 2 ^ 32) (octetCount : opts.octetCount < 2 ^ 32) :
      Tells (.sr now opts)
        (.sr opts.ssrc msw lsw opts.rtpTimestamp opts.packetCount opts.octetCount [])
  | rr {ssrc : Nat} {block : ReportBlock} (source : ssrc < 2 ^ 32) (inRange : block.InRange) :
      Tells (.rr ssrc block) (.rr ssrc block [block])
  | pli {senderSsrc mediaSsrc : Nat} (sender : senderSsrc < 2 ^ 32) (media : mediaSsrc < 2 ^ 32) :
      Tells (.pli senderSsrc mediaSsrc) (.pli senderSsrc mediaSsrc)
  | fir {senderSsrc mediaSsrc seqNr : Nat} (sender : senderSsrc < 2 ^ 32)
      (media : mediaSsrc < 2 ^ 32) (number : seqNr < 2 ^ 8) :
      Tells (.fir senderSsrc mediaSsrc seqNr) (.fir senderSsrc mediaSsrc seqNr)
  | sdes {ssrc : Nat} {cname : String} (source : ssrc < 2 ^ 32)
      (short : (utf8Bytes cname).length ≤ 255) :
      Tells (.sdes ssrc cname) (.sdes ssrc [{ type := 1, value := cname }] (some cname))
  | bye {ssrcs : List Nat} {reason : Option String} (few : ssrcs.length ≤ 31)
      (sources : ∀ ssrc ∈ ssrcs, ssrc < 2 ^ 32)
      (short : ∀ text ∈ reason, 1 ≤ (utf8Bytes text).length ∧ (utf8Bytes text).length ≤ 255) :
      Tells (.bye ssrcs reason) (.bye ssrcs reason)

theorem read_word {values : List Nat} {index value : Nat} (found : values[index]? = some value)
    (small : value < 2 ^ 32) (suffix : Bytes) :
    readBE 4 (values.flatMap (encodeBE 4) ++ suffix) (index * 4) = value := by
  have inside := (List.getElem?_eq_some_iff.mp found).1
  have many := congrArg (·[index]?) (read_be_many 4 values suffix)
  simp only [List.getElem?_map, List.getElem?_range inside, found, Option.map_some,
    Option.some.injEq] at many
  exact many.trans (Nat.mod_eq_of_lt small)

theorem read_wire_word {type : Byte} {count : Fin 0x20} {values : List Nat} {suffix : Bytes}
    {index value : Nat} (found : values[index]? = some value) (small : value < 2 ^ 32) :
    readBE 4 (wirePacket type count (values.flatMap (encodeBE 4) ++ suffix) none)
      (4 + index * 4) = value := by
  rw [read_wire_body, List.append_assoc]
  exact read_word found small _

/-- What a call tells is read off the packet that it builds. -/
def Recovered (call : BuilderCall) (body : Body) : Prop :=
  ∃ packet parsed, call.build = .ok (some packet) ∧ parseRTCP packet = some parsed ∧
    parsed.body = body

theorem recovered_of_wire {call : BuilderCall} {body : Body} (type : Byte) (count : Fin 0x20)
    {content : Bytes} (built : call.build = .ok (some (wirePacket type count content none)))
    (read : parseBody (wirePacket type count content none) type.toNat count = body) :
    Recovered call body :=
  ⟨_, _, built, parse_wire_packet type count content none, read⟩

theorem parse_sdes_items {cname : String} (short : (utf8Bytes cname).length ≤ 255)
    (fuel zeros : Nat) :
    parseSdesItems (fuel + 2) ([1] ++ encodeBE 1 (utf8Bytes cname).length ++ utf8Bytes cname ++
      List.replicate (zeros + 1) 0) = [{ type := 1, value := cname }] := by
  have length : (byteAt (utf8Bytes cname).length 0).toNat = (utf8Bytes cname).length := by
    rw [byte_at_low]
    exact Nat.mod_eq_of_lt (by omega)
  have stop : parseSdesItems (fuel + 1) (List.replicate (zeros + 1) 0) = [] := by
    cases zeros with
    | zero => rfl
    | succ zeros => simp [List.replicate_succ, parseSdesItems]
  have shape : [1] ++ encodeBE 1 (utf8Bytes cname).length ++ utf8Bytes cname ++
      List.replicate (zeros + 1) 0 = 1 :: byteAt (utf8Bytes cname).length 0 ::
        (utf8Bytes cname ++ List.replicate (zeros + 1) 0) := by
    simp [encodeBE]
  rw [shape, parseSdesItems, if_neg (by decide), length, List.take_left, List.drop_left, stop,
    utf8_text_bytes, if_neg (by simp)]
  rfl

theorem recovered_sr (now : Nat) {opts : SenderReport} {msw lsw : Nat}
    (ntp : opts.ntpTimestamp = some (msw, lsw)) (ssrc : opts.ssrc < 2 ^ 32)
    (high : msw < 2 ^ 32) (low : lsw < 2 ^ 32) (rtpTimestamp : opts.rtpTimestamp < 2 ^ 32)
    (packetCount : opts.packetCount < 2 ^ 32) (octetCount : opts.octetCount < 2 ^ 32) :
    Recovered (.sr now opts)
      (.sr opts.ssrc msw lsw opts.rtpTimestamp opts.packetCount opts.octetCount []) := by
  let words := [opts.ssrc, msw, lsw, opts.rtpTimestamp, opts.packetCount, opts.octetCount]
  have built : (BuilderCall.sr now opts).build =
      .ok (some (wirePacket 200 0 (words.flatMap (encodeBE 4) ++ []) none)) := by
    rw [BuilderCall.build, buildSR, ntp]
    simp [words, wirePacket, firstByte, paddingBytes, byteAt]
  have first := @read_wire_word 200 0 words [] 0 _ rfl ssrc
  have second := @read_wire_word 200 0 words [] 1 _ rfl high
  have third := @read_wire_word 200 0 words [] 2 _ rfl low
  have fourth := @read_wire_word 200 0 words [] 3 _ rfl rtpTimestamp
  have fifth := @read_wire_word 200 0 words [] 4 _ rfl packetCount
  have sixth := @read_wire_word 200 0 words [] 5 _ rfl octetCount
  apply recovered_of_wire 200 0 built
  refine (WireReport.parse_body_sr (by simp [words, wirePacket]; omega) 0).trans ?_
  rw [first, second, third, fourth, fifth, sixth]
  rfl

theorem parse_body_pli {buf : Bytes} (long : 12 ≤ buf.length) :
    parseBody buf 206 1 = .pli (readBE 4 buf 4) (readBE 4 buf 8) := by
  simp [parseBody, long]

theorem recovered_pli {senderSsrc mediaSsrc : Nat} (sender : senderSsrc < 2 ^ 32)
    (media : mediaSsrc < 2 ^ 32) :
    Recovered (.pli senderSsrc mediaSsrc) (.pli senderSsrc mediaSsrc) := by
  let words := [senderSsrc, mediaSsrc]
  have built : (BuilderCall.pli senderSsrc mediaSsrc).build =
      .ok (some (wirePacket 206 1 (words.flatMap (encodeBE 4) ++ []) none)) := by
    simp [BuilderCall.build, buildPLI, words, wirePacket, firstByte, paddingBytes, byteAt]
  have first := @read_wire_word 206 1 words [] 0 _ rfl sender
  have second := @read_wire_word 206 1 words [] 1 _ rfl media
  apply recovered_of_wire 206 1 built
  refine (parse_body_pli (by simp [words, wirePacket]; omega)).trans ?_
  rw [first, second]

theorem parse_body_fir {buf : Bytes} (long : 20 ≤ buf.length) :
    parseBody buf 206 4 = .fir (readBE 4 buf 4) (readBE 4 buf 12) (readBE 1 buf 16) := by
  simp [parseBody, long]

theorem recovered_fir {senderSsrc mediaSsrc seqNr : Nat} (sender : senderSsrc < 2 ^ 32)
    (media : mediaSsrc < 2 ^ 32) (number : seqNr < 2 ^ 8) :
    Recovered (.fir senderSsrc mediaSsrc seqNr) (.fir senderSsrc mediaSsrc seqNr) := by
  let words := [senderSsrc, 0, mediaSsrc]
  let rest := encodeBE 1 seqNr ++ [0, 0, 0]
  have built : (BuilderCall.fir senderSsrc mediaSsrc seqNr).build =
      .ok (some (wirePacket 206 4 (words.flatMap (encodeBE 4) ++ rest) none)) := by
    simp [BuilderCall.build, buildFIR, words, rest, wirePacket, firstByte, paddingBytes, byteAt]
  have first := @read_wire_word 206 4 words rest 0 _ rfl sender
  have third := @read_wire_word 206 4 words rest 2 _ rfl media
  have counter : readBE 1 (wirePacket 206 4 (words.flatMap (encodeBE 4) ++ rest) none) 16 =
      seqNr := by
    have size : (words.flatMap (encodeBE 4)).length = 12 := by simp [words]
    apply (read_wire_body 206 4 _ none 1 12).trans
    rw [List.append_assoc, List.append_assoc]
    apply (read_be_past size _ 0).trans
    exact (read_be_encode 1 seqNr _).trans (Nat.mod_eq_of_lt number)
  apply recovered_of_wire 206 4 built
  refine (parse_body_fir (by simp [words, rest, wirePacket]; omega)).trans ?_
  rw [first, third, counter]

theorem recovered_rr {ssrc : Nat} {block : ReportBlock} (source : ssrc < 2 ^ 32)
    (inRange : block.InRange) : Recovered (.rr ssrc block) (.rr ssrc block [block]) := by
  let report : WireReport :=
    { ssrc := ⟨ssrc, source⟩
      info := none
      blocks := [block]
      few := show 1 < 0x20 by decide
      inRange := by
        intro other member
        rwa [List.mem_singleton.mp member]
      padding := none }
  have built : (BuilderCall.rr ssrc block).build = .ok (some report.bytes) := by
    simp [BuilderCall.build, buildRR, WireReport.bytes, report, WireReport.infoBytes,
      reportBytes, wirePacket, firstByte, paddingBytes, byteAt]
  have blocks : readReports report.bytes 8 1 = [block] := report.read_blocks
  have long : 32 ≤ report.bytes.length := by
    rw [report.bytes_length]
    exact Nat.le_add_right _ _
  have flat : readReportBlock report.bytes 8 = block := by
    simpa [readReports, long] using blocks
  have read : parseBody report.bytes 201 1 = .rr ssrc block [block] := by
    rw [WireReport.parse_body_rr, if_pos long, flat, blocks, report.read_ssrc]
  exact recovered_of_wire 201 1 built read

theorem parse_body_sdes {buf : Bytes} (long : 8 ≤ buf.length) (count : Nat) :
    parseBody buf 202 count = parseSdes buf := by
  simp [parseBody, long]

theorem recovered_sdes {ssrc : Nat} {cname : String} (source : ssrc < 2 ^ 32)
    (short : (utf8Bytes cname).length ≤ 255) :
    Recovered (.sdes ssrc cname) (.sdes ssrc [{ type := 1, value := cname }] (some cname)) := by
  obtain ⟨zeros, padding⟩ : ∃ zeros, (4 + (2 + (utf8Bytes cname).length) + 1 + 3) / 4 * 4 - 4 -
      (2 + (utf8Bytes cname).length) = zeros + 1 := ⟨_, (Nat.succ_pred (by omega)).symm⟩
  let item := [1] ++ encodeBE 1 (utf8Bytes cname).length ++ utf8Bytes cname ++
    List.replicate (zeros + 1) 0
  have size : item.length = (4 + (2 + (utf8Bytes cname).length) + 1 + 3) / 4 * 4 - 4 := by
    simp only [item, List.length_append, encode_be_length, List.length_replicate, ← padding,
      List.length_singleton]
    omega
  have built : (BuilderCall.sdes ssrc cname).build =
      .ok (some (wirePacket 202 1 (encodeBE 4 ssrc ++ item) none)) := by
    have words : (encodeBE 4 ssrc ++ item ++ paddingBytes none).length / 4 =
        (4 + (2 + (utf8Bytes cname).length) + 1 + 3) / 4 * 4 / 4 := by
      rw [paddingBytes, List.length_append, List.length_append, encode_be_length, size]
      simp only [Option.map_none, Option.getD_none, List.length_nil]
      omega
    rw [BuilderCall.build, buildSDES]
    simp only [write_uint16_of_lt
      (show (4 + (2 + (utf8Bytes cname).length) + 1 + 3) / 4 * 4 / 4 < 0x10000 by omega)]
    rw [wirePacket, words, padding]
    simp [item, paddingBytes, firstByte, byteAt]
    rfl
  have behind : (wirePacket 202 1 (encodeBE 4 ssrc ++ item) none).drop 8 = item := by
    apply (drop_wire_header 202 1 _ none 4).trans
    rw [List.append_assoc, List.drop_left' (encode_be_length 4 ssrc)]
    exact List.append_nil item
  have length := wire_packet_length 202 1 (encodeBE 4 ssrc ++ item) none
  rw [List.length_append, encode_be_length] at length
  obtain ⟨fuel, enough⟩ : ∃ fuel, (wirePacket 202 1 (encodeBE 4 ssrc ++ item) none).length =
      fuel + 2 := ⟨_, (Nat.sub_add_cancel (show 2 ≤ _ by omega)).symm⟩
  have read : readBE 4 (wirePacket 202 1 (encodeBE 4 ssrc ++ item) none) 4 = ssrc := by
    apply (read_wire_body 202 1 _ none 4 0).trans
    rw [List.append_assoc, read_be_encode]
    exact Nat.mod_eq_of_lt source
  apply recovered_of_wire 202 1 built
  refine (parse_body_sdes (by omega) 1).trans ?_
  rw [parseSdes, behind, enough, parse_sdes_items short, read]
  rfl

theorem parse_body_bye (buf : Bytes) (count : Nat) :
    parseBody buf 203 count = parseBye buf count := by
  simp [parseBody]

theorem read_reason {buf : Bytes} {reason : Option String} {reasonOff : Nat}
    (short : ∀ text ∈ reason, 1 ≤ (utf8Bytes text).length ∧ (utf8Bytes text).length ≤ 255)
    (behind : buf.drop reasonOff = byeReason reason) (inside : reasonOff ≤ buf.length) :
    (if reasonOff + 1 ≤ buf.length ∧ readBE 1 buf reasonOff > 0 ∧
        reasonOff + 1 + readBE 1 buf reasonOff ≤ buf.length then
      some (utf8Text ((buf.drop (reasonOff + 1)).take (readBE 1 buf reasonOff)))
    else none) = reason := by
  have length : buf.length = reasonOff + (byeReason reason).length := by
    rw [← behind, List.length_drop]
    omega
  cases reason with
  | none => exact if_neg fun fits => absurd fits.1 (by rw [length]; exact Nat.lt_irrefl _)
  | some text =>
      obtain ⟨positive, small⟩ := short text rfl
      have filled : text ≠ "" := by
        rintro rfl
        exact absurd positive (by decide)
      have reason : byeReason (some text) = encodeBE 1 (utf8Bytes text).length ++
          (utf8Bytes text ++ List.replicate
            ((1 + (utf8Bytes text).length + 3) / 4 * 4 - (1 + (utf8Bytes text).length)) 0) := by
        rw [← List.append_assoc]
        exact if_neg filled
      rw [reason] at behind length
      simp only [List.length_append, encode_be_length] at length
      have size : readBE 1 buf reasonOff = (utf8Bytes text).length := by
        have front := read_be_drop 1 reasonOff buf 0
        rw [behind, read_be_encode] at front
        exact front.symm.trans (Nat.mod_eq_of_lt (by omega))
      have content : (buf.drop (reasonOff + 1)).take (utf8Bytes text).length = utf8Bytes text := by
        rw [← List.drop_drop, behind, List.drop_left' (encode_be_length 1 _), List.take_left]
      rw [size, content, utf8_text_bytes]
      exact if_pos ⟨by omega, positive, by omega⟩

theorem recovered_bye {ssrcs : List Nat} {reason : Option String} (few : ssrcs.length ≤ 31)
    (sources : ∀ ssrc ∈ ssrcs, ssrc < 2 ^ 32)
    (short : ∀ text ∈ reason, 1 ≤ (utf8Bytes text).length ∧ (utf8Bytes text).length ≤ 255) :
    Recovered (.bye ssrcs reason) (.bye ssrcs reason) := by
  have count : ssrcs.length < 0x20 := by omega
  have aligned := bye_reason_length reason
  have bounded := bye_reason_short fun text given => (short text given).2
  have size := encode_many_length 4 ssrcs
  have built : (BuilderCall.bye ssrcs reason).build = .ok (some (wirePacket 203
      ⟨ssrcs.length, count⟩ (ssrcs.flatMap (encodeBE 4) ++ byeReason reason) none)) := by
    have words : (ssrcs.flatMap (encodeBE 4) ++ byeReason reason ++ paddingBytes none).length / 4 =
        (4 + ssrcs.length * 4 + (byeReason reason).length) / 4 - 1 := by
      rw [paddingBytes, List.length_append, List.length_append, size]
      simp only [Option.map_none, Option.getD_none, List.length_nil]
      omega
    have first : UInt8.ofNat (0x80 + ssrcs.length % 0x20) =
        firstByte none ⟨ssrcs.length, count⟩ := by
      rw [Nat.mod_eq_of_lt count]
      rfl
    rw [BuilderCall.build, buildBYE]
    simp only [write_uint16_of_lt (show
      (4 + ssrcs.length * 4 + (byeReason reason).length) / 4 - 1 < 0x10000 by omega)]
    rw [wirePacket, words, first]
    simp [paddingBytes]
    rfl
  obtain ⟨packet, same⟩ : ∃ packet, wirePacket 203 ⟨ssrcs.length, count⟩
    (ssrcs.flatMap (encodeBE 4) ++ byeReason reason) none = packet := ⟨_, rfl⟩
  have length := wire_packet_length 203 ⟨ssrcs.length, count⟩
    (ssrcs.flatMap (encodeBE 4) ++ byeReason reason) none
  rw [same, List.length_append, size] at length
  have behind : packet.drop (4 + ssrcs.length * 4) = byeReason reason := by
    rw [← same, drop_wire_header, List.append_assoc, List.drop_left' (by rw [size, Nat.mul_comm])]
    exact List.append_nil _
  have listed : ((List.range ssrcs.length).takeWhile fun s => 4 + (s + 1) * 4 ≤ packet.length).map
      (fun s => readBE 4 packet (4 + s * 4)) = ssrcs := by
    have all : (List.range ssrcs.length).takeWhile
        (fun s => decide (4 + (s + 1) * 4 ≤ packet.length)) = List.range ssrcs.length := by
      rw [List.takeWhile_eq_self_iff]
      intro index member
      have inside := List.mem_range.mp member
      rw [decide_eq_true_eq]
      omega
    have read (index : Nat) : readBE 4 packet (4 + index * 4) =
        readBE 4 (ssrcs.flatMap (encodeBE 4) ++ (byeReason reason ++ paddingBytes none))
          (index * 4) := by
      rw [← same, read_wire_body, List.append_assoc]
    rw [all]
    simp only [read, read_be_many]
    conv_rhs => rw [← List.map_id ssrcs]
    exact List.map_congr_left fun ssrc member => Nat.mod_eq_of_lt (sources ssrc member)
  apply recovered_of_wire 203 ⟨ssrcs.length, count⟩ built
  rw [same]
  refine (parse_body_bye packet ssrcs.length).trans ?_
  rw [parseBye, listed]
  exact congrArg (Body.bye ssrcs) (read_reason short behind (by omega))

/-- Six formats under one dispatcher: every call comes back as what it tells. -/
theorem builders_recovered {call : BuilderCall} {body : Body} (tells : Tells call body) :
    ∃ packet parsed, call.build = .ok (some packet) ∧ parseRTCP packet = some parsed ∧
      parsed.body = body := by
  cases tells with
  | sr now ntp ssrc high low rtpTimestamp packetCount octetCount =>
      exact recovered_sr now ntp ssrc high low rtpTimestamp packetCount octetCount
  | rr source inRange => exact recovered_rr source inRange
  | pli sender media => exact recovered_pli sender media
  | fir sender media number => exact recovered_fir sender media number
  | sdes source short => exact recovered_sdes source short
  | bye few sources short => exact recovered_bye few sources short

theorem builders_recovered_goodbye :
    ∃ packet parsed, (BuilderCall.bye [1, 2 ^ 32 - 1] (some "späť")).build = .ok (some packet) ∧
      parseRTCP packet = some parsed ∧ parsed.body = .bye [1, 2 ^ 32 - 1] (some "späť") :=
  builders_recovered (.bye (by decide) (by decide) (by decide))

end RtpPacket.Rtcp
