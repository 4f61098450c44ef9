import RtpPacket.Codec.AccessUnits
import RtpPacket.Codec.H265

/-!
# H.265 streams

As for H.264, with access units that may also go out as one aggregation packet. The
type of a unit travels in the FU header, the rest of its two-byte header in the
payload header.
-/

namespace RtpPacket.Codec.H265

open ByteCodec Rtp Run NaluDepacketizer

set_option autoImplicit false

structure WellFormed (nalu : Bytes) : Prop extends Separable nalu where
  two_bytes : 2 ≤ nalu.length
  type_range : naluType nalu ≤ 47
  forbidden_zero_bit : (nalu.headD 0).toNat &&& 0x80 = 0

def fuHdrHi (origHi : Nat) : Nat := (origHi &&& 0x81) ||| nalFU <<< 1

def fuDescriptorOf (nalu : Bytes) : Bool → Bool → Bytes :=
  fuDescriptor [fuHdrHi (nalu.getD 0 0).toNat, (nalu.getD 1 0).toNat]
    (((nalu.getD 0 0).toNat >>> 1 &&& 0x3F) &&& 0x3F)

theorem split_nalus_annex_b {entries : List (Bool × Bytes)}
    (separable : ∀ entry ∈ entries, Separable entry.2) (some : entries ≠ []) :
    splitNALUs (annexB entries) = entries.map Prod.snd := by
  obtain ⟨detected, read⟩ := split_annex_b separable some
  rw [splitNALUs, detected, if_neg (by simp), read]

theorem fragment_fu_sends (sender : Packetizer) {nalu : Bytes} (twoBytes : 2 ≤ nalu.length)
    (rtpTs : Nat) (last withMeta : Bool) :
    fragmentFU sender nalu rtpTs last withMeta =
      Packetizer.sendAll withMeta
        (fragmentOutgoing (fuDescriptorOf nalu) rtpTs last true (naluPieces 2 sender.mtu nalu))
        sender := by
  rw [fragmentFU, if_neg (by omega)]
  exact fragments_sends (by simp) _ 2 _ nalu rtpTs last withMeta sender

theorem packetize_sends {chunk : Chunk} {nalus : List Bytes} (carries : Carries chunk nalus)
    (wellFormed : ∀ nalu ∈ nalus, WellFormed nalu) (some : nalus ≠ []) (sender : Packetizer) :
    packetize sender chunk = .ok (Packetizer.sendAll false
      (unitOutgoing fuDescriptorOf 2 sender.mtu (usToRtp chunk.timestamp clockRate) nalus)
      sender) := by
  have found := units_of_carries split_nalus_annex_b carries
    (fun nalu member => (wellFormed nalu member).toSeparable) some
  have valid := validate_of_carries "H265Packetizer" carries
  have notEmpty : nalus.isEmpty = false := by simpa using some
  have sent : packetizeNalus fragmentFU (usToRtp chunk.timestamp clockRate) false nalus sender =
      Packetizer.sendAll false
        (unitOutgoing fuDescriptorOf 2 sender.mtu (usToRtp chunk.timestamp clockRate) nalus)
        sender := by
    apply packetize_nalus_sends _ rfl
    intro nalu member _ other size last
    rw [fragment_fu_sends other (wellFormed nalu member).two_bytes, size]
  rw [packetize, valid]
  change Except.ok (packetizeWith sender chunk false) = _
  rw [packetizeWith, found, notEmpty, if_neg (by simp), sent]

theorem fu_bits : ∀ header < 256, header &&& 0x80 = 0 → ∀ start last : Bool,
    let high := fuHdrHi header % 256
    let fuByte := ((if start then 0x80 else 0) ||| (if last then 0x40 else 0) |||
      ((header >>> 1 &&& 0x3F) &&& 0x3F)) % 256
    high >>> 1 &&& 0x3F = 49 ∧ (fuByte &&& 0x80 != 0) = start ∧ (fuByte &&& 0x40 != 0) = last ∧
      (high &&& 0x81) ||| ((fuByte &&& 0x3F) <<< 1) = header := by
  decide +kernel

theorem two_bytes_split {nalu : Bytes} (twoBytes : 2 ≤ nalu.length) :
    ∃ high low rest, nalu = high :: low :: rest := by
  match nalu, twoBytes with
  | high :: low :: rest, _ => exact ⟨high, low, rest, rfl⟩

theorem receives_unit {nalu : Bytes} (wellFormed : WellFormed nalu) :
    Receives (fun state out => depacketize state out.packet) isIDR
      "H265Depacketizer: FU fragment without start (start packet lost)" fuDescriptorOf 2 nalu where
  single := by
    intro state timestamp marker listening
    have notAggregate : ¬naluType nalu = nalAP := by
      have range := wellFormed.type_range
      rw [nalAP]
      omega
    have notFragment : ¬naluType nalu = nalFU := by
      have range := wellFormed.type_range
      rw [nalFU]
      omega
    have plain : naluType nalu < nalAP := Nat.lt_succ_of_le wellFormed.type_range
    simp [depacketize, Outgoing.packet, Callbacks.checkDepacketizePayload, listening,
      wellFormed.two_bytes, notAggregate, notFragment, plain]
  fragment := by
    intro state start last piece timestamp marker listening _
    obtain ⟨high, low, rest, rfl⟩ := two_bytes_split wellFormed.two_bytes
    obtain ⟨type, startBit, lastBit, header⟩ := fu_bits high.toNat high.toNat_lt
      wellFormed.forbidden_zero_bit start last
    have payload : fuDescriptorOf (high :: low :: rest) start last ++ piece =
        byteAt (fuHdrHi high.toNat) 0 :: byteAt low.toNat 0 ::
          byteAt ((if start then 0x80 else 0) ||| (if last then 0x40 else 0) |||
            ((high.toNat >>> 1 &&& 0x3F) &&& 0x3F)) 0 :: piece := rfl
    have taken : (high :: low :: rest).take 2 = [high, low] := rfl
    rw [payload, taken]
    simp only [depacketize, Outgoing.packet, Callbacks.checkDepacketizePayload, listening, naluType,
      List.headD_cons, List.getD_cons_succ, List.getD_cons_zero, byte_at_low, type, startBit,
      lastBit, header, byte_at_byte, nalAP, nalFU]
    simp

def apPayload (nalus : List Bytes) : Bytes :=
  byteAt (nalAP <<< 1 ||| (((nalus.headD []).getD 0 0).toNat &&& 0x01)) 0 ::
    byteAt ((nalus.headD []).getD 1 0).toNat 0 ::
    nalus.flatMap (fun nalu => encodeBE 2 nalu.length ++ nalu)

def apOutgoing (rtpTs : Nat) (nalus : List Bytes) : Outgoing where
  payload := apPayload nalus
  timestamp := rtpTs
  marker := true

theorem packetize_ap_sends (sender : Packetizer) {nalus : List Bytes} (some : nalus ≠ [])
    (short : ∀ nalu ∈ nalus, nalu.length ≤ 65535) (timestampUs : Rat) :
    packetizeAP sender nalus timestampUs none =
      .ok (sender.makePacket (apPayload nalus) (usToRtp timestampUs clockRate) true false) := by
  cases nalus with
  | nil => exact absurd rfl some
  | cons first rest =>
      have fits : (first :: rest).find? (fun nalu => 0xFFFF < nalu.length) = none := by
        rw [List.find?_eq_none]
        intro nalu member
        have bound := short nalu member
        simpa using bound
      rw [packetizeAP]
      simp only [fits]
      rfl

theorem aggregated_units_read {nalus : List Bytes}
    (lengths : ∀ nalu ∈ nalus, 1 ≤ nalu.length ∧ nalu.length ≤ 65535) :
    aggregatedUnits (nalus.flatMap (fun nalu => encodeBE 2 nalu.length ++ nalu)) =
      (nalus, false) := by
  induction nalus with
  | nil => simp [aggregatedUnits]
  | cons nalu rest ih =>
      obtain ⟨positive, short⟩ := lengths nalu List.mem_cons_self
      have length : decodeBE [byteAt nalu.length 8, byteAt nalu.length 0] = nalu.length := by
        have decoded := decode_be_encode 2 nalu.length
        rw [Nat.mod_eq_of_lt (show nalu.length < 256 ^ 2 by omega)] at decoded
        exact decoded
      have later := ih fun other member => lengths other (List.mem_cons_of_mem _ member)
      have layout : (nalu :: rest).flatMap (fun nalu => encodeBE 2 nalu.length ++ nalu) =
          byteAt nalu.length 8 :: byteAt nalu.length 0 ::
            (nalu ++ rest.flatMap (fun nalu => encodeBE 2 nalu.length ++ nalu)) := by
        simp [encodeBE]
      rw [layout, aggregatedUnits]
      simp only [length]
      rw [if_neg (by omega), if_neg (by rw [List.length_append]; omega), List.drop_left,
        List.take_left, later]

theorem ap_type : ∀ high < 256, ((nalAP <<< 1 ||| (high &&& 0x01)) % 256) >>> 1 &&& 0x3F = 48 := by
  decide +kernel

theorem run_ap {nalus : List Bytes} (some : nalus ≠ [])
    (lengths : ∀ nalu ∈ nalus, 1 ≤ nalu.length ∧ nalu.length ≤ 65535) (rtpTs : Nat)
    {state : NaluDepacketizer} (idle : Idle state) :
    ∃ after, Idle after ∧
      run (fun state out => depacketize state out.packet) state [apOutgoing rtpTs nalus] =
        (after, [unitEvent isIDR rtpTs nalus]) := by
  have type : naluType (apPayload nalus) = nalAP := by
    rw [apPayload, naluType, List.headD_cons, byte_at_low]
    exact ap_type _ (UInt8.toNat_lt _)
  have read : aggregatedUnits ((apPayload nalus).drop 2) = (nalus, false) :=
    aggregated_units_read lengths
  have received : depacketize state (apOutgoing rtpTs nalus).packet =
      ({ state with nalus := [], sawIDR := false }, [unitEvent isIDR rtpTs nalus]) := by
    have two : 2 ≤ (apPayload nalus).length := by
      simp [apPayload]
    simp [depacketize, apOutgoing, Outgoing.packet, Callbacks.checkDepacketizePayload,
      idle.listening, two, type, takeAggregate, read, foldl_collect, finish, idle.empty, some,
      idle.no_key, unitEvent]
  refine ⟨{ state with nalus := [], sawIDR := false },
    ⟨idle.listening, rfl, idle.between, rfl⟩, ?_⟩
  rw [run, received]
  rfl

/-- An access unit goes out as a chunk or as one aggregation packet. -/
inductive Submission where
  | chunk (chunk : Chunk)
  | aggregate (nalus : List Bytes) (timestampUs : Rat)

namespace Submission

def timestampUs : Submission → Rat
  | .chunk single => single.timestamp
  | .aggregate _ timestampUs => timestampUs

def submit (sender : Packetizer) : Submission → Except String (List Packet × Packetizer)
  | .chunk single => packetize sender single
  | .aggregate nalus timestampUs => do
      let made ← packetizeAP sender nalus timestampUs none
      return ([made.1], made.2)

def Carries : Submission → List Bytes → Prop
  | .chunk single, nalus => Codec.Carries single nalus
  | .aggregate listed _, nalus => listed = nalus ∧ ∀ nalu ∈ nalus, nalu.length ≤ 65535

def rtpTs (submission : Submission) : Nat := usToRtp submission.timestampUs clockRate

def describe (units : Submission → List Bytes) (mtu : { mtu : Nat // 100 ≤ mtu })
    (submission : Submission) : List Outgoing :=
  match submission with
  | .chunk _ => unitOutgoing fuDescriptorOf 2 mtu.1 submission.rtpTs (units submission)
  | .aggregate _ _ => [apOutgoing submission.rtpTs (units submission)]

structure Sound (units : Submission → List Bytes) (submission : Submission) : Prop where
  carries : submission.Carries (units submission)
  some : units submission ≠ []
  well_formed : ∀ nalu ∈ units submission, WellFormed nalu

variable {units : Submission → List Bytes} {submission : Submission}

theorem describe_timestamps (mtu : { mtu : Nat // 100 ≤ mtu }) (submission : Submission) :
    ∀ out ∈ submission.describe units mtu, out.timestamp < 2 ^ 32 := by
  intro out member
  cases submission with
  | chunk single =>
      rw [(unit_outgoing_member (by decide) mtu.2 member).1]
      exact Word.wrap_unsigned_lt 32 _
  | aggregate listed timestampUs =>
      rw [List.mem_singleton.mp member]
      exact Word.wrap_unsigned_lt 32 _

theorem describe_markers (sound : submission.Sound units) (mtu : { mtu : Nat // 100 ≤ mtu }) :
    ∃ count, (submission.describe units mtu).map (·.marker) =
      List.replicate count false ++ [true] := by
  cases submission with
  | chunk single => exact unit_outgoing_markers (by decide) mtu.2 sound.some
  | aggregate listed timestampUs => exact ⟨0, rfl⟩

theorem submit_sends (sound : submission.Sound units) (sender : Packetizer) :
    ∃ packets after, Sends submit id (fun sender => ⟨sender.mtu, sender.mtu_range.1⟩)
      (fun mtu submission => submission.describe units mtu) (fun kept _ => kept)
      sender submission packets after := by
  cases submission with
  | chunk single =>
      refine ⟨_, _, packetize_sends sound.carries sound.well_formed sound.some sender, rfl, ?_⟩
      exact Subtype.ext (Packetizer.send_all_mtu _ _ _)
  | aggregate listed timestampUs =>
      obtain ⟨same, short⟩ := sound.carries
      have made := (congrArg (packetizeAP sender · timestampUs none) same).trans
        (packetize_ap_sends sender sound.some short timestampUs)
      refine ⟨_, _, ?_, rfl, rfl⟩
      rw [submit, made]
      rfl

theorem describe_hands_out (sound : submission.Sound units) (mtu : { mtu : Nat // 100 ≤ mtu })
    {state : NaluDepacketizer} (ready : Idle state) :
    ∃ after, Idle after ∧
      run (fun state out => depacketize state out.packet) state (submission.describe units mtu) =
        (after, [unitEvent isIDR submission.rtpTs (units submission)]) := by
  cases submission with
  | chunk single =>
      exact run_unit_idle (fun nalu inside => receives_unit (sound.well_formed nalu inside))
        sound.some (by decide) mtu.2 _ ready
  | aggregate listed timestampUs =>
      obtain ⟨_, short⟩ := sound.carries
      apply run_ap sound.some _ _ ready
      intro nalu inside
      exact ⟨Nat.le_of_succ_le (sound.well_formed nalu inside).two_bytes, short nalu inside⟩

end Submission

def WholeFragment (payload : Bytes) : Prop :=
  naluType payload = nalFU ∧ (payload.getD 2 0).toNat &&& 0x80 ≠ 0 ∧
    (payload.getD 2 0).toNat &&& 0x40 ≠ 0

theorem not_whole_fragment {nalu piece : Bytes} (wellFormed : WellFormed nalu) {start last : Bool}
    (lone : (start && last) = false) :
    ¬WholeFragment (fuDescriptorOf nalu start last ++ piece) := by
  obtain ⟨high, low, rest, rfl⟩ := two_bytes_split wellFormed.two_bytes
  obtain ⟨_, startBit, lastBit, _⟩ := fu_bits high.toNat high.toNat_lt
    wellFormed.forbidden_zero_bit start last
  intro whole
  obtain ⟨_, startSet, lastSet⟩ := whole
  have third : ((fuDescriptorOf (high :: low :: rest) start last ++ piece).getD 2 0).toNat =
      ((if start then 0x80 else 0) ||| (if last then 0x40 else 0) |||
        ((high.toNat >>> 1 &&& 0x3F) &&& 0x3F)) % 256 := byte_at_low _
  rw [third] at startSet lastSet
  have started : start = true := startBit ▸ bne_iff_ne.mpr startSet
  have ended : last = true := lastBit ▸ bne_iff_ne.mpr lastSet
  rw [started, ended] at lone
  cases lone

theorem chunk_payload {mtu rtpTs : Nat} (mtuRange : 100 ≤ mtu) {nalus : List Bytes}
    (wellFormed : ∀ nalu ∈ nalus, WellFormed nalu) {out : Outgoing}
    (member : out ∈ unitOutgoing fuDescriptorOf 2 mtu rtpTs nalus) :
    out.payload.length ≤ mtu ∧ ¬WholeFragment out.payload := by
  obtain ⟨_, nalu, naluMember, shape⟩ := unit_outgoing_member (by decide) mtuRange member
  have naluWellFormed := wellFormed nalu naluMember
  cases shape with
  | inl whole =>
      obtain ⟨fits, payload⟩ := whole
      have range := naluWellFormed.type_range
      rw [payload]
      refine ⟨fits, fun fragment => ?_⟩
      have type : naluType nalu = 49 := fragment.1
      omega
  | inr fragment =>
      obtain ⟨start, last, piece, payload, short, lone⟩ := fragment
      have descriptor : (fuDescriptorOf nalu start last).length = 3 := rfl
      rw [payload]
      refine ⟨?_, not_whole_fragment naluWellFormed lone⟩
      rw [List.length_append, descriptor]
      omega

/-- Any stream of access units arrives as it was sent, in fragments or aggregated. -/
theorem h265_stream_round_trip (self : Packetizer) {submissions : List Submission}
    {units : Submission → List Bytes}
    (carries : ∀ submission ∈ submissions, submission.Carries (units submission))
    (some : ∀ submission ∈ submissions, units submission ≠ [])
    (wellFormed : ∀ submission ∈ submissions, ∀ nalu ∈ units submission, WellFormed nalu)
    {error : Bool} {depacketizer : NaluDepacketizer}
    (fresh : NaluDepacketizer.new "H265Depacketizer" ⟨true, error⟩ = .ok depacketizer) :
    ∃ (sent : List (List Packet)) (last : Packetizer) (received : List (List ParsedPacket)),
      packetizeAll Submission.submit self submissions = .ok (sent, last) ∧
      sent.map (·.map fun packet => parse packet.bytes) = received.map (·.map .some) ∧
      received.flatten.map (·.sequenceNumber) =
        (List.range received.flatten.length).map (fun index => (self.seq + index) % 65536) ∧
      (∀ packets ∈ received, ∃ count,
        packets.map (·.marker) = List.replicate count false ++ [true]) ∧
      List.Forall₂ (fun submission packets => ∀ chunk, submission = .chunk chunk →
        ∀ packet ∈ packets, packet.payload.length ≤ self.mtu ∧ ¬WholeFragment packet.payload)
        submissions received ∧
      (run depacketize depacketizer received.flatten).2 = submissions.map fun submission => .output
        { data := joinAnnexB (units submission)
          timestamp := usToRtp submission.timestampUs 90000
          type := if (units submission).any
              (fun nalu => naluType nalu == 19 || naluType nalu == 20) then .key
            else .delta } := by
  have idle : Idle depacketizer := by
    cases fresh
    exact ⟨rfl, rfl, rfl, rfl⟩
  have sound (submission : Submission) (member : submission ∈ submissions) :
      submission.Sound units :=
    ⟨carries submission member, some submission member, wellFormed submission member⟩
  obtain ⟨sent, last, received, packetized, parsed, described, numbered, markers, handed⟩ :=
    stream_arrives Submission.describe_timestamps
      (fun submission member sender => Submission.submit_sends (sound submission member) sender)
      (fun mtu submission member => Submission.describe_markers (sound submission member) mtu)
      (fun _ _ => rfl)
      (fun mtu submission member _ ready =>
        Submission.describe_hands_out (sound submission member) mtu ready)
      self idle
  rw [describe_all_const] at described
  refine ⟨sent, last, received, packetized, parsed, numbered, markers, ?_, ?_⟩
  · apply ((List.forall₂_and_left submissions received).mpr
      ⟨sound, received_forall₂ described⟩).imp
    intro submission packets matched single isChunk packet inside
    obtain ⟨submissionSound, same⟩ := matched
    subst isChunk
    have out : packet.outgoing ∈ packets.map (·.outgoing) := List.mem_map_of_mem inside
    rw [← same] at out
    exact chunk_payload self.mtu_range.1 submissionSound.well_formed out
  · rw [handed]
    apply List.map_congr_left
    intro submission member
    have same : (units submission).any isIDR = (units submission).any
        (fun nalu => naluType nalu == 19 || naluType nalu == 20) := by
      rw [Bool.eq_iff_iff, List.any_eq_true, List.any_eq_true]
      apply exists_congr
      intro nalu
      apply and_congr_right
      intro inside
      simp [isIDR, (wellFormed submission member nalu inside).two_bytes, isIDRType, nalIdrWRadl,
        nalIdrNLp]
    rw [unitEvent, same]
    rfl

def layeredSubmissions : List Submission :=
  [.aggregate [[0x00, 0x0A, 7], [0x43, 0x0A]] 0,
    .chunk ⟨none, some [0x27 :: 0x0A :: List.replicate 120 0x11], 1000⟩]

def layeredUnits : Submission → List Bytes
  | .chunk single => single.nalus.getD []
  | .aggregate listed _ => listed

theorem layered_cases {submission : Submission} (member : submission ∈ layeredSubmissions) :
    submission = .aggregate [[0x00, 0x0A, 7], [0x43, 0x0A]] 0 ∨
      submission = .chunk ⟨none, some [0x27 :: 0x0A :: List.replicate 120 0x11], 1000⟩ := by
  simpa [layeredSubmissions] using member

theorem layered_well_formed {submission : Submission} (member : submission ∈ layeredSubmissions) :
    ∀ nalu ∈ layeredUnits submission, WellFormed nalu := by
  intro nalu inside
  cases layered_cases member with
  | inl aggregate =>
      rw [aggregate] at inside
      have either : nalu = [0x00, 0x0A, 7] ∨ nalu = [0x43, 0x0A] := by
        simpa [layeredUnits] using inside
      cases either with
      | inl first =>
          rw [first]
          exact ⟨⟨by decide, by decide, by decide, by decide⟩, by decide, by decide, by decide⟩
      | inr second =>
          rw [second]
          exact ⟨⟨by decide, by decide, by decide, by decide⟩, by decide, by decide, by decide⟩
  | inr chunk =>
      rw [chunk] at inside
      have only : nalu = 0x27 :: 0x0A :: List.replicate 120 0x11 := by
        simpa [layeredUnits] using inside
      rw [only]
      exact ⟨⟨by decide, by decide +kernel, by decide +kernel, by decide +kernel⟩, by simp,
        by decide, by decide⟩

theorem h265_stream_round_trip_layered :
    ∃ (sent : List (List Packet)) (last : Packetizer) (received : List (List ParsedPacket)),
      packetizeAll Submission.submit smallPackets layeredSubmissions = .ok (sent, last) ∧
      sent.map (·.map fun packet => parse packet.bytes) = received.map (·.map .some) ∧
      (run depacketize ⟨⟨true, true⟩, [], [], false⟩ received.flatten).2 =
        [.output ⟨[0, 0, 0, 1, 0x00, 0x0A, 7, 0, 0, 0, 1, 0x43, 0x0A], usToRtp 0 90000, .delta⟩,
          .output ⟨[0, 0, 0, 1] ++ 0x27 :: 0x0A :: List.replicate 120 0x11, usToRtp 1000 90000,
            .key⟩] := by
  have carries : ∀ submission ∈ layeredSubmissions,
      submission.Carries (layeredUnits submission) := by
    intro submission member
    cases layered_cases member with
    | inl aggregate => rw [aggregate]; exact ⟨rfl, by decide⟩
    | inr chunk => rw [chunk]; exact .inl rfl
  have some : ∀ submission ∈ layeredSubmissions, layeredUnits submission ≠ [] := by
    intro submission member
    cases layered_cases member with
    | inl aggregate => rw [aggregate]; simp [layeredUnits]
    | inr chunk => rw [chunk]; simp [layeredUnits]
  obtain ⟨sent, last, received, packetized, parsed, _, _, _, handed⟩ :=
    @h265_stream_round_trip smallPackets layeredSubmissions layeredUnits carries some
      (fun _ => layered_well_formed) true ⟨⟨true, true⟩, [], [], false⟩ rfl
  exact ⟨sent, last, received, packetized, parsed, handed⟩

end RtpPacket.Codec.H265
