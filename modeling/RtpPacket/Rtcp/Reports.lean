import RtpPacket.Rtcp.WirePacket

/-!
# Sender and receiver reports

Both kinds carry as many blocks as the header counts. The reader asks a receiver report
for the size of one block before it looks at the count, so a receiver without data, whose
report is empty, is not recognised.
-/

namespace RtpPacket.Rtcp

open ByteCodec

set_option autoImplicit false

structure ReportBlock.InRange (block : ReportBlock) : Prop where
  mediaSsrc : block.mediaSsrc < 2 ^ 32
  fractionLost : block.fractionLost < 2 ^ 8
  totalLost : block.totalLost < 2 ^ 24
  highestSeq : block.highestSeq < 2 ^ 32
  jitter : block.jitter < 2 ^ 32
  lastSR : block.lastSR < 2 ^ 32
  delaySinceLastSR : block.delaySinceLastSR < 2 ^ 32

def reportBytes (block : ReportBlock) : Bytes :=
  encodeBE 4 block.mediaSsrc ++ (encodeBE 1 block.fractionLost ++ (encodeBE 3 block.totalLost ++
    (encodeBE 4 block.highestSeq ++ (encodeBE 4 block.jitter ++ (encodeBE 4 block.lastSR ++
      encodeBE 4 block.delaySinceLastSR)))))

theorem report_bytes_length (block : ReportBlock) : (reportBytes block).length = 24 := by
  simp [reportBytes]

theorem report_list_length (blocks : List ReportBlock) :
    (blocks.flatMap reportBytes).length = blocks.length * 24 := by
  induction blocks with
  | nil => rfl
  | cons block rest ih =>
      rw [List.flatMap_cons, List.length_append, report_bytes_length, ih, List.length_cons]
      omega

theorem read_report_block {block : ReportBlock} (inRange : block.InRange) {front : Bytes}
    {start : Nat} (length : front.length = start) (rest : Bytes) :
    readReportBlock (front ++ (reportBytes block ++ rest)) start = block := by
  have field (width offset : Nat) :
      readBE width (front ++ (reportBytes block ++ rest)) (start + offset) =
        readBE width (reportBytes block ++ rest) offset := read_be_past length _ _
  have first : readBE 4 (front ++ (reportBytes block ++ rest)) start =
      readBE 4 (reportBytes block ++ rest) 0 := field 4 0
  have mediaSsrc := Nat.mod_eq_of_lt (show block.mediaSsrc < 256 ^ 4 from inRange.mediaSsrc)
  have fractionLost :=
    Nat.mod_eq_of_lt (show block.fractionLost < 256 ^ 1 from inRange.fractionLost)
  have totalLost := Nat.mod_eq_of_lt (show block.totalLost < 256 ^ 3 from inRange.totalLost)
  have highestSeq := Nat.mod_eq_of_lt (show block.highestSeq < 256 ^ 4 from inRange.highestSeq)
  have jitter := Nat.mod_eq_of_lt (show block.jitter < 256 ^ 4 from inRange.jitter)
  have lastSR := Nat.mod_eq_of_lt (show block.lastSR < 256 ^ 4 from inRange.lastSR)
  have delay :=
    Nat.mod_eq_of_lt (show block.delaySinceLastSR < 256 ^ 4 from inRange.delaySinceLastSR)
  rw [readReportBlock, first]
  simp only [field]
  simp (disch := omega) only [reportBytes, List.append_assoc, read_be_beyond, Nat.reduceSub,
    read_be_encode, mediaSsrc, fractionLost, totalLost, highestSeq, jitter, lastSR, delay]

theorem read_reports {blocks : List ReportBlock} (inRange : ∀ block ∈ blocks, block.InRange)
    {front : Bytes} {start : Nat} (length : front.length = start) (rest : Bytes) :
    readReports (front ++ (blocks.flatMap reportBytes ++ rest)) start blocks.length = blocks := by
  have whole : (front ++ (blocks.flatMap reportBytes ++ rest)).length =
      start + blocks.length * 24 + rest.length := by
    rw [List.length_append, List.length_append, report_list_length, length, Nat.add_assoc]
  have all : (List.range blocks.length).takeWhile (fun block =>
      start + (block + 1) * 24 ≤ (front ++ (blocks.flatMap reportBytes ++ rest)).length) =
      List.range blocks.length := by
    rw [List.takeWhile_eq_self_iff]
    intro index member
    have inside := List.mem_range.mp member
    rw [whole, decide_eq_true_eq]
    omega
  rw [readReports, all]
  apply List.ext_getElem
  · rw [List.length_map, List.length_range]
  · intro index _ inside
    obtain ⟨earlier, later, split, count⟩ : ∃ earlier later,
        blocks = earlier ++ blocks[index] :: later ∧ earlier.length = index :=
      ⟨blocks.take index, blocks.drop (index + 1),
        by rw [List.cons_getElem_drop_succ, List.take_append_drop], by simp; omega⟩
    have layout : front ++ (blocks.flatMap reportBytes ++ rest) =
        front ++ earlier.flatMap reportBytes ++
          (reportBytes blocks[index] ++ (later.flatMap reportBytes ++ rest)) := by
      conv_lhs => rw [split]
      simp only [List.flatMap_append, List.flatMap_cons, List.append_assoc]
    rw [List.getElem_map, List.getElem_range, layout]
    apply read_report_block (inRange _ (List.getElem_mem inside))
    rw [List.length_append, report_list_length, length, count]

/-- The part of a report that only senders of media have. -/
structure SenderInfo where
  ntpTimestampMsw : Fin (2 ^ 32)
  ntpTimestampLsw : Fin (2 ^ 32)
  rtpTimestamp : Fin (2 ^ 32)
  packetCount : Fin (2 ^ 32)
  octetCount : Fin (2 ^ 32)

def SenderInfo.bytes (info : SenderInfo) : Bytes :=
  encodeBE 4 info.ntpTimestampMsw ++ (encodeBE 4 info.ntpTimestampLsw ++
    (encodeBE 4 info.rtpTimestamp ++ (encodeBE 4 info.packetCount ++
      encodeBE 4 info.octetCount)))

/-- A sender report with the sender's part, a receiver report without. -/
structure WireReport where
  ssrc : Fin (2 ^ 32)
  info : Option SenderInfo
  blocks : List ReportBlock
  few : blocks.length < 0x20
  inRange : ∀ block ∈ blocks, block.InRange
  padding : Option Padding

def Body.ssrc : Body → Option Nat
  | .sr ssrc .. | .rr ssrc .. => some ssrc
  | _ => none

def Body.reports : Body → Option (List ReportBlock)
  | .sr _ _ _ _ _ _ reports | .rr _ _ reports => some reports
  | _ => none

namespace WireReport

def name (report : WireReport) : String := if report.info.isSome then "SR" else "RR"

def infoBytes (report : WireReport) : Bytes := (report.info.map SenderInfo.bytes).getD []

def bytes (report : WireReport) : Bytes :=
  wirePacket (if report.info.isSome then 200 else 201) ⟨report.blocks.length, report.few⟩
    (encodeBE 4 report.ssrc ++ (report.infoBytes ++ report.blocks.flatMap reportBytes))
    report.padding

structure Read (report : WireReport) (parsed : RtcpPacket) : Prop where
  name : parsed.body.name = some report.name
  ssrc : parsed.body.ssrc = some report.ssrc.val
  reports : parsed.body.reports = some report.blocks

def Recognised (report : WireReport) : Prop :=
  ∃ parsed, parseRTCP report.bytes = some parsed ∧ report.Read parsed

theorem info_bytes_length (report : WireReport) :
    report.infoBytes.length = if report.info.isSome then 20 else 0 := by
  rw [infoBytes]
  cases report.info with
  | none => rfl
  | some info => simp [SenderInfo.bytes]

theorem bytes_length (report : WireReport) :
    report.bytes.length = 8 + report.infoBytes.length + report.blocks.length * 24 +
      (paddingBytes report.padding).length := by
  rw [bytes, wire_packet_length]
  simp only [List.length_append, encode_be_length, report_list_length]
  omega

theorem read_blocks (report : WireReport) :
    readReports report.bytes (8 + report.infoBytes.length) report.blocks.length =
      report.blocks := by
  have layout (head words : Bytes) :
      head ++ words ++ (encodeBE 4 report.ssrc ++
          (report.infoBytes ++ report.blocks.flatMap reportBytes) ++
            paddingBytes report.padding) =
        (head ++ words ++ encodeBE 4 report.ssrc ++ report.infoBytes) ++
          (report.blocks.flatMap reportBytes ++ paddingBytes report.padding) := by
    simp only [List.append_assoc]
  rw [bytes, wirePacket, layout]
  apply read_reports report.inRange
  simp only [List.length_append, List.length_cons, List.length_nil, encode_be_length]

theorem read_ssrc (report : WireReport) : readBE 4 report.bytes 4 = report.ssrc := by
  apply (read_wire_body _ _ _ _ 4 0).trans
  rw [List.append_assoc, read_be_encode]
  exact Nat.mod_eq_of_lt report.ssrc.isLt

theorem parse_body_sr {buf : Bytes} (long : 28 ≤ buf.length) (count : Nat) :
    parseBody buf 200 count =
      .sr (readBE 4 buf 4) (readBE 4 buf 8) (readBE 4 buf 12) (readBE 4 buf 16) (readBE 4 buf 20)
        (readBE 4 buf 24) (readReports buf 28 count) := by
  simp [parseBody, long]

theorem parse_body_rr (buf : Bytes) (count : Nat) :
    parseBody buf 201 count =
      if 32 ≤ buf.length then
        .rr (readBE 4 buf 4) (readReportBlock buf 8) (readReports buf 8 count)
      else .unnamed := by
  simp [parseBody]

theorem parse_bytes (report : WireReport) :
    ∃ parsed, parseRTCP report.bytes = some parsed ∧
      parsed.body = parseBody report.bytes (if report.info.isSome then 200 else 201)
        report.blocks.length := by
  have type : UInt8.toNat (if report.info.isSome then 200 else 201) =
      if report.info.isSome then 200 else 201 := by
    split <;> rfl
  rw [← type]
  exact ⟨_, parse_wire_packet _ _ _ _, rfl⟩

/-- A report is recognised unless it is a receiver report without blocks and without
padding in their place. -/
theorem recognised_iff (report : WireReport) :
    report.Recognised ↔
      report.info.isSome = true ∨ report.blocks ≠ [] ∨
        24 ≤ (paddingBytes report.padding).length := by
  obtain ⟨parsed, parses, body⟩ := report.parse_bytes
  have recognised : report.Recognised ↔ report.Read parsed := by
    constructor
    · intro some
      obtain ⟨other, otherParses, read⟩ := some
      rw [parses] at otherParses
      exact Option.some.inj otherParses ▸ read
    · intro read
      exact ⟨parsed, parses, read⟩
  have blocks := report.read_blocks
  have length := report.bytes_length
  have info := report.info_bytes_length
  rw [recognised]
  cases sender : report.info.isSome with
  | true =>
      rw [sender, if_pos rfl] at info body
      rw [info] at blocks
      rw [parse_body_sr (by omega), report.read_ssrc, blocks] at body
      simp only [true_or, iff_true]
      exact ⟨by rw [body, name, sender]; rfl, by rw [body]; rfl, by rw [body]; rfl⟩
  | false =>
      rw [sender, if_neg Bool.false_ne_true] at info body
      rw [info] at blocks
      rw [parse_body_rr, report.read_ssrc, blocks] at body
      have size : 32 ≤ report.bytes.length ↔
          report.blocks ≠ [] ∨ 24 ≤ (paddingBytes report.padding).length := by
        rw [← List.length_pos_iff]
        omega
      simp only [Bool.false_eq_true, false_or]
      rw [← size]
      by_cases long : 32 ≤ report.bytes.length
      · rw [if_pos long] at body
        simp only [long, iff_true]
        exact ⟨by rw [body, name, sender]; rfl, by rw [body]; rfl, by rw [body]; rfl⟩
      · rw [if_neg long] at body
        simp only [long, iff_false]
        intro read
        have named := read.name
        rw [body] at named
        cases named

-- As in the NACK module, so that the literal below shares no proof with another module.
local instance wordNonzero : NeZero (2 ^ 32) := ⟨by decide⟩

def emptyReceiverReport : WireReport where
  ssrc := 7
  info := none
  blocks := []
  few := by decide
  inRange := by simp
  padding := none

theorem empty_report_unrecognised :
    emptyReceiverReport.bytes = [0x80, 201, 0, 1, 0, 0, 0, 7] ∧
      (parseRTCP emptyReceiverReport.bytes).map (·.body) = some .unnamed ∧
      ¬ emptyReceiverReport.Recognised := by
  have unnamed : (parseRTCP emptyReceiverReport.bytes).map (·.body) = some .unnamed := by
    decide +kernel
  refine ⟨by decide +kernel, unnamed, ?_⟩
  intro recognised
  obtain ⟨parsed, parses, read⟩ := recognised
  have named := read.name
  rw [parses, Option.map_some] at unnamed
  rw [Option.some.inj unnamed] at named
  cases named

end WireReport

end RtpPacket.Rtcp
