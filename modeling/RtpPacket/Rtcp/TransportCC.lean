import RtpPacket.Lib.Word
import RtpPacket.Rtcp.Chunk

/-!
# Transport-wide congestion control feedback

The writer of `rtcp.js` and the reader of `bandwidth.js`. A status the writer can
represent comes back with its delta rounded to 250 microseconds; one whose delta
is out of range comes back as not received.
-/

namespace RtpPacket.Rtcp

open ByteCodec Word

set_option autoImplicit false

/-- `Math.round(deltaUs / 250)`, halves up. -/
def quantize (deltaUs : Int) : Int := (2 * deltaUs + 250) / 500

structure PacketStatus where
  received : Bool
  deltaUs : Option Int
  deriving DecidableEq, Repr

def PacketStatus.missing : PacketStatus where
  received := false
  deltaUs := none

structure TransportCCOptions where
  senderSsrc : Nat
  mediaSsrc : Nat
  baseSeq : Nat
  packetCount : Nat
  referenceTimeMs : Int
  fbPktCount : Nat
  packets : List PacketStatus

/-- Units of 64 ms, clamped to 24 signed bits. -/
def referenceUnits (referenceTimeMs : Int) : Int :=
  let refUnits := referenceTimeMs / 64
  let refUnits := if refUnits > 0x7FFFFF then 0x7FFFFF else refUnits
  if refUnits < -0x800000 then -0x800000 else refUnits

def PacketStatus.deltaQ (status : PacketStatus) : Int :=
  quantize (toInt32 (status.deltaUs.getD 0))

def PacketStatus.symbol (status : PacketStatus) : Symbol :=
  if status.received then
    if 0 ≤ status.deltaQ ∧ status.deltaQ ≤ 0xFF then .small
    else if -0x8000 ≤ status.deltaQ ∧ status.deltaQ ≤ 0x7FFF then .large
    else .notReceived
  else .notReceived

def PacketStatus.deltaBytes (status : PacketStatus) : Bytes :=
  match status.symbol with
  | .small => encodeBE 1 status.deltaQ.toNat
  | .large => encodeBE 2 (status.deltaQ % 0x10000).toNat
  | _ => []

/-- One status for each announced packet; entries the caller left out count as
not received. -/
def TransportCCOptions.statuses (opts : TransportCCOptions) : List PacketStatus :=
  let packetCount := opts.packetCount % 0x10000
  (opts.packets ++ List.replicate packetCount PacketStatus.missing).take packetCount

def TransportCCOptions.fci (opts : TransportCCOptions) : Bytes :=
  encodeBE 2 opts.baseSeq ++ encodeBE 2 opts.packetCount ++
    encodeBE 3 (referenceUnits opts.referenceTimeMs % 0x1000000).toNat ++
    encodeBE 1 opts.fbPktCount ++
    chunkBytes (encodeChunks (opts.statuses.map (·.symbol))) ++
    opts.statuses.flatMap (·.deltaBytes)

def buildTransportCC (opts : TransportCCOptions) : Bytes :=
  let unpadded := 12 + opts.fci.length
  let padded := (unpadded + 3) / 4 * 4
  [0x8F, 205] ++ encodeBE 2 (padded / 4 - 1) ++ encodeBE 4 opts.senderSsrc ++
    encodeBE 4 opts.mediaSsrc ++ (opts.fci ++ List.replicate (padded - unpadded) 0)

structure ReportedPacket where
  seq : Nat
  received : Bool
  deltaUs : Option Int
  deriving DecidableEq, Repr

structure TransportCCReport where
  baseSeq : Nat
  packetCount : Nat
  referenceTimeMs : Int
  fbPktCount : Nat
  packets : List ReportedPacket
  deriving DecidableEq, Repr

def signed (bits value : Nat) : Int :=
  if value < 2 ^ (bits - 1) then (value : Int) else (value : Int) - 2 ^ bits

def decodeDeltas : Nat → List Symbol → Bytes → Option (List ReportedPacket)
  | _, [], _ => some []
  | seq, .small :: symbols, d8 :: bytes => do
      let later ← decodeDeltas (seq + 1) symbols bytes
      some (⟨seq % 0x10000, true, some (d8.toNat * 250)⟩ :: later)
  | seq, .large :: symbols, high :: low :: bytes => do
      let later ← decodeDeltas (seq + 1) symbols bytes
      some (⟨seq % 0x10000, true, some (signed 16 (decodeBE [high, low]) * 250)⟩ :: later)
  | seq, .notReceived :: symbols, bytes => do
      let later ← decodeDeltas (seq + 1) symbols bytes
      some (⟨seq % 0x10000, false, none⟩ :: later)
  | seq, .noDelta :: symbols, bytes => do
      let later ← decodeDeltas (seq + 1) symbols bytes
      some (⟨seq % 0x10000, true, none⟩ :: later)
  | _, _ :: _, _ => none

def parseTransportCC (fci : Bytes) : Option TransportCCReport :=
  if fci.length < 8 then none
  else do
    let baseSeq := readBE 2 fci 0
    let packetCount := readBE 2 fci 2
    let (symbols, deltas) ← decodeChunks (fci.drop 8) packetCount
    let packets ← decodeDeltas baseSeq symbols deltas
    some
      { baseSeq := baseSeq
        packetCount := packetCount
        referenceTimeMs := signed 24 (readBE 3 fci 4) * 64
        fbPktCount := readBE 1 fci 7
        packets := packets }

def PacketStatus.reported (status : PacketStatus) (seq : Nat) : ReportedPacket :=
  if status.received ∧ -0x8000 ≤ status.deltaQ ∧ status.deltaQ ≤ 0x7FFF then
    { seq := seq % 0x10000, received := true, deltaUs := some (status.deltaQ * 250) }
  else { seq := seq % 0x10000, received := false, deltaUs := none }

def reportedFrom (seq : Nat) (statuses : List PacketStatus) : List ReportedPacket :=
  (statuses.zipIdx seq).map fun entry => entry.1.reported entry.2

theorem signed_mod (bits : Nat) {value : Int} (below : -2 ^ bits ≤ value)
    (above : value < 2 ^ bits) :
    signed (bits + 1) (value % 2 ^ (bits + 1)).toNat = value := by
  have double : (2 : Int) ^ (bits + 1) = 2 * 2 ^ bits := by ring
  have positive : (0 : Int) < 2 ^ bits := by positivity
  have half : ((2 ^ bits : Nat) : Int) = 2 ^ bits := by norm_num
  have residue : ((value % 2 ^ (bits + 1)).toNat : Int) = value % 2 ^ (bits + 1) :=
    Int.toNat_of_nonneg (Int.emod_nonneg _ (by positivity))
  by_cases negative : value < 0
  · have wrapped : value % 2 ^ (bits + 1) = value + 2 ^ (bits + 1) := by
      rw [← Int.add_emod_right, Int.emod_eq_of_lt (by omega) (by omega)]
    have high : ¬ (value % 2 ^ (bits + 1)).toNat < 2 ^ (bits + 1 - 1) := by
      rw [Nat.add_sub_cancel, ← Int.ofNat_lt, residue, half, wrapped]
      omega
    rw [signed, if_neg high, residue, wrapped]
    omega
  · have unwrapped : value % 2 ^ (bits + 1) = value := Int.emod_eq_of_lt (by omega) (by omega)
    have low : (value % 2 ^ (bits + 1)).toNat < 2 ^ (bits + 1 - 1) := by
      rw [Nat.add_sub_cancel, ← Int.ofNat_lt, residue, half, unwrapped]
      exact above
    rw [signed, if_pos low, residue, unwrapped]

/-- One symbol and its delta bytes read back, in each of the four ways a status
can be written. -/
theorem decode_deltas_cons (seq : Nat) (status : PacketStatus) (symbols : List Symbol)
    (bytes : Bytes) :
    decodeDeltas seq (status.symbol :: symbols) (status.deltaBytes ++ bytes) =
      (decodeDeltas (seq + 1) symbols bytes).map (status.reported seq :: ·) := by
  unfold PacketStatus.deltaBytes PacketStatus.reported PacketStatus.symbol
  by_cases received : status.received = true
  · by_cases small : 0 ≤ status.deltaQ ∧ status.deltaQ ≤ 0xFF
    · have inRange : -0x8000 ≤ status.deltaQ ∧ status.deltaQ ≤ 0x7FFF := by omega
      have value : ((byteAt status.deltaQ.toNat 0).toNat : Int) = status.deltaQ := by
        rw [byte_at_to_nat]
        omega
      simp only [received, small, inRange, and_self, if_true]
      simp [encodeBE, decodeDeltas, value, Option.map_eq_bind]
    · by_cases large : -0x8000 ≤ status.deltaQ ∧ status.deltaQ ≤ 0x7FFF
      · have value : signed 16 (decodeBE [byteAt (status.deltaQ % 0x10000).toNat 8,
            byteAt (status.deltaQ % 0x10000).toNat 0]) = status.deltaQ := by
          have decoded : decodeBE [byteAt (status.deltaQ % 0x10000).toNat 8,
              byteAt (status.deltaQ % 0x10000).toNat 0] = _ :=
            decode_be_encode 2 (status.deltaQ % 0x10000).toNat
          rw [decoded, Nat.mod_eq_of_lt (by omega)]
          exact signed_mod 15 (by omega) (by omega)
        simp only [received, small, large, and_self, if_true, if_false]
        simp [encodeBE, decodeDeltas, value, Option.map_eq_bind]
      · have outOfRange : ¬ (status.received = true ∧ -0x8000 ≤ status.deltaQ ∧
            status.deltaQ ≤ 0x7FFF) := fun inRange => large inRange.2
        rw [if_pos received, if_neg small, if_neg large, if_neg outOfRange]
        simp [decodeDeltas, Option.map_eq_bind]
  · have absent : ¬ (status.received = true ∧ -0x8000 ≤ status.deltaQ ∧
        status.deltaQ ≤ 0x7FFF) := fun inRange => received inRange.1
    rw [if_neg received, if_neg absent]
    simp [decodeDeltas, Option.map_eq_bind]

theorem decode_deltas_statuses (seq : Nat) (statuses : List PacketStatus) (suffix : Bytes) :
    decodeDeltas seq (statuses.map (·.symbol)) (statuses.flatMap (·.deltaBytes) ++ suffix) =
      some (reportedFrom seq statuses) := by
  induction statuses generalizing seq with
  | nil => simp [decodeDeltas, reportedFrom]
  | cons status rest ih =>
      rw [List.map_cons, List.flatMap_cons, List.append_assoc, decode_deltas_cons, ih]
      rfl

theorem reference_units_bounded (referenceTimeMs : Int) :
    -0x800000 ≤ referenceUnits referenceTimeMs ∧ referenceUnits referenceTimeMs ≤ 0x7FFFFF := by
  simp only [referenceUnits]
  split_ifs <;> omega

theorem statuses_length (opts : TransportCCOptions) :
    opts.statuses.length = opts.packetCount % 0x10000 := by
  simp only [TransportCCOptions.statuses, List.length_take, List.length_append,
    List.length_replicate]
  omega

theorem parse_fci (opts : TransportCCOptions) (padding : Bytes) :
    parseTransportCC (opts.fci ++ padding) =
      some
        { baseSeq := opts.baseSeq % 0x10000
          packetCount := opts.packetCount % 0x10000
          referenceTimeMs := referenceUnits opts.referenceTimeMs * 64
          fbPktCount := opts.fbPktCount % 256
          packets := reportedFrom (opts.baseSeq % 0x10000) opts.statuses } := by
  obtain ⟨rest, body⟩ : ∃ rest, chunkBytes (encodeChunks (opts.statuses.map (·.symbol))) ++
      (opts.statuses.flatMap (·.deltaBytes) ++ padding) = rest := ⟨_, rfl⟩
  have layout : opts.fci ++ padding = encodeBE 2 opts.baseSeq ++ (encodeBE 2 opts.packetCount ++
      (encodeBE 3 (referenceUnits opts.referenceTimeMs % 0x1000000).toNat ++
        (encodeBE 1 opts.fbPktCount ++ rest))) := by
    simp only [← body, TransportCCOptions.fci, List.append_assoc]
  have baseSeq : readBE 2 (opts.fci ++ padding) 0 = opts.baseSeq % 0x10000 := by
    rw [layout, read_be_encode]
    rfl
  have packetCount : readBE 2 (opts.fci ++ padding) 2 = opts.packetCount % 0x10000 := by
    rw [layout, read_be_skip 2 2 _ _ 0, read_be_encode]
    rfl
  have reference : readBE 3 (opts.fci ++ padding) 4 =
      (referenceUnits opts.referenceTimeMs % 0x1000000).toNat := by
    rw [layout, read_be_skip 3 2 _ _ 2, read_be_skip 3 2 _ _ 0, read_be_encode]
    omega
  have fbPktCount : readBE 1 (opts.fci ++ padding) 7 = opts.fbPktCount % 256 := by
    rw [layout, read_be_skip 1 2 _ _ 5, read_be_skip 1 2 _ _ 3, read_be_skip 1 3 _ _ 0,
      read_be_encode]
    rfl
  have header : (opts.fci ++ padding).drop 8 = rest := by
    rw [layout]
    simp only [← List.append_assoc]
    exact List.drop_left' (by simp)
  have long : ¬ (opts.fci ++ padding).length < 8 := by
    rw [layout]
    simp only [List.length_append, encode_be_length]
    omega
  have symbolCount : (opts.statuses.map (·.symbol)).length = opts.packetCount % 0x10000 := by
    rw [List.length_map, statuses_length]
  have chunks := decode_encode_chunks (opts.statuses.map (·.symbol))
    (opts.statuses.flatMap (·.deltaBytes) ++ padding)
  rw [symbolCount, body] at chunks
  obtain ⟨below, above⟩ := reference_units_bounded opts.referenceTimeMs
  have time : signed 24 (referenceUnits opts.referenceTimeMs % 0x1000000).toNat =
      referenceUnits opts.referenceTimeMs := signed_mod 23 (by omega) (by omega)
  rw [parseTransportCC, if_neg long]
  simp only [baseSeq, packetCount, reference, fbPktCount, header, chunks, Option.bind_eq_bind,
    Option.bind_some, decode_deltas_statuses, time]

theorem parse_build_transport_cc (opts : TransportCCOptions) :
    parseTransportCC ((buildTransportCC opts).drop 12) =
      some
        { baseSeq := opts.baseSeq % 0x10000
          packetCount := opts.packetCount % 0x10000
          referenceTimeMs := referenceUnits opts.referenceTimeMs * 64
          fbPktCount := opts.fbPktCount % 256
          packets := reportedFrom (opts.baseSeq % 0x10000) opts.statuses } := by
  rw [buildTransportCC, List.drop_left' (by simp), parse_fci]

theorem reported_from_map_idx (seq : Nat) (statuses : List PacketStatus) :
    reportedFrom seq statuses =
      statuses.mapIdx fun index status => status.reported (seq + index) := by
  induction statuses generalizing seq with
  | nil => rfl
  | cons status rest ih =>
      rw [List.mapIdx_cons]
      apply congrArg (_ :: ·)
      refine (ih (seq + 1)).trans ?_
      apply congrArg (List.mapIdx · rest)
      funext index status
      rw [Nat.add_assoc, Nat.add_comm 1 index]

theorem to_int32_of_small {value : Int} (small : |value| < 2 ^ 31) : toInt32 value = value := by
  obtain ⟨below, above⟩ := abs_lt.mp small
  exact Int.bmod_eq_of_le (by omega) (by omega)

/-- Feedback read back from the wire, when every field fits the place it is written to. -/
theorem parse_transport_cc_statuses (opts : TransportCCOptions)
    (count : opts.packets.length = opts.packetCount) (countRange : opts.packetCount ≤ 65535)
    (deltas : ∀ status ∈ opts.packets, ∀ deltaUs ∈ status.deltaUs, |deltaUs| < 2 ^ 31)
    (baseSeq : opts.baseSeq < 65536) (fbPktCount : opts.fbPktCount < 256)
    (units : -0x800000 ≤ opts.referenceTimeMs / 64 ∧ opts.referenceTimeMs / 64 ≤ 0x7FFFFF) :
    parseTransportCC ((buildTransportCC opts).drop 12) =
      some
        { baseSeq := opts.baseSeq
          packetCount := opts.packetCount
          referenceTimeMs := opts.referenceTimeMs / 64 * 64
          fbPktCount := opts.fbPktCount
          packets := opts.packets.mapIdx fun index status =>
            let quotient := quantize (status.deltaUs.getD 0)
            if status.received ∧ -32768 ≤ quotient ∧ quotient ≤ 32767 then
              { seq := (opts.baseSeq + index) % 65536
                received := true
                deltaUs := some (250 * quotient) }
            else
              { seq := (opts.baseSeq + index) % 65536
                received := false
                deltaUs := none } } := by
  have statuses : opts.statuses = opts.packets := by
    rw [TransportCCOptions.statuses, Nat.mod_eq_of_lt (by omega), ← count, List.take_left]
  have time : referenceUnits opts.referenceTimeMs = opts.referenceTimeMs / 64 := by
    simp only [referenceUnits]
    split_ifs <;> omega
  rw [parse_build_transport_cc, Nat.mod_eq_of_lt baseSeq, Nat.mod_eq_of_lt fbPktCount,
    Nat.mod_eq_of_lt (Nat.lt_succ_of_le countRange), time, statuses, reported_from_map_idx]
  simp only [Option.some.injEq, TransportCCReport.mk.injEq, true_and]
  apply List.mapIdx_eq_mapIdx_iff.mpr
  intro index inside
  have small : |(opts.packets[index]).deltaUs.getD 0| < 2 ^ 31 := by
    cases delta : (opts.packets[index]).deltaUs with
    | none => simp
    | some deltaUs => exact deltas _ (List.getElem_mem inside) deltaUs delta
  simp only [PacketStatus.reported, PacketStatus.deltaQ, to_int32_of_small small]
  rw [Int.mul_comm]

def wrappingFeedback : TransportCCOptions where
  senderSsrc := 1
  mediaSsrc := 2
  baseSeq := 65535
  packetCount := 3
  referenceTimeMs := -65
  fbPktCount := 255
  packets := [⟨true, some 125⟩, .missing, ⟨true, some (-300)⟩]

theorem parse_transport_cc_wrapping :
    parseTransportCC ((buildTransportCC wrappingFeedback).drop 12) =
      some
        { baseSeq := 65535
          packetCount := 3
          referenceTimeMs := -128
          fbPktCount := 255
          packets := [⟨65535, true, some 250⟩, ⟨0, false, none⟩, ⟨1, true, some (-250)⟩] } :=
  parse_transport_cc_statuses wrappingFeedback rfl (by decide)
    (by simp [wrappingFeedback, PacketStatus.missing, abs_lt]) (by decide) (by decide) (by decide)

theorem delta_bytes_length (status : PacketStatus) : status.deltaBytes.length ≤ 2 := by
  unfold PacketStatus.deltaBytes
  split <;> simp

theorem fci_length (opts : TransportCCOptions) : opts.fci.length ≤ 149804 := by
  have chunks := encode_chunks_loop_length (opts.statuses.map (·.symbol)).length
    (opts.statuses.map (·.symbol))
  have deltas (statuses : List PacketStatus) :
      (statuses.flatMap (·.deltaBytes)).length ≤ 2 * statuses.length := by
    induction statuses with
    | nil => simp
    | cons status rest ih =>
        have one := delta_bytes_length status
        rw [List.flatMap_cons, List.length_append, List.length_cons]
        omega
  have deltaBytes := deltas opts.statuses
  have count := statuses_length opts
  rw [List.length_map] at chunks
  simp only [TransportCCOptions.fci, chunkBytes, encodeChunks, List.length_append,
    encode_be_length, encode_many_length, List.length_map]
  omega

end RtpPacket.Rtcp
