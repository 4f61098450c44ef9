import RtpPacket.Lib.Utf8
import RtpPacket.Rtcp.TransportCC

/-!
# RTCP packets

The builders and `parseRTCP`. A 16-bit store of a value that does not fit throws
in the source; `writeUInt16BE` is that store, and the builders whose length or
fields depend on a caller's list run in `Except`. `null` is `none`.
-/

namespace RtpPacket.Rtcp

open ByteCodec Utf8 Word

set_option autoImplicit false

inductive RangeError where
  | outOfRange (value : Nat)
  deriving DecidableEq, Repr

def writeUInt16BE (value : Nat) : Except RangeError Bytes :=
  if value < 0x10000 then .ok (encodeBE 2 value) else .error (.outOfRange value)

structure SenderReport where
  ssrc : Nat
  /-- The two words of the NTP time; the clock is read when absent. -/
  ntpTimestamp : Option (Nat × Nat)
  rtpTimestamp : Nat
  packetCount : Nat
  octetCount : Nat

/-- The NTP time of a clock in whole milliseconds. The fraction of the source is a
product of doubles whose floor is this quotient for each of the thousand cases. -/
def getNtpTimestamp (now : Nat) : Nat × Nat :=
  (now / 1000 + 2208988800, now % 1000 * 0x100000000 / 1000)

def buildSR (now : Nat) (opts : SenderReport) : Bytes :=
  let ntp := opts.ntpTimestamp.getD (getNtpTimestamp now)
  [0x80, 200] ++ encodeBE 2 6 ++ (encodeBE 4 opts.ssrc ++ encodeBE 4 ntp.1 ++ encodeBE 4 ntp.2 ++
    encodeBE 4 opts.rtpTimestamp ++ encodeBE 4 opts.packetCount ++ encodeBE 4 opts.octetCount)

def buildPLI (senderSsrc mediaSsrc : Nat) : Bytes :=
  [0x81, 206] ++ encodeBE 2 2 ++ (encodeBE 4 senderSsrc ++ encodeBE 4 mediaSsrc)

structure NackEntry where
  pid : Nat
  blp : Nat
  deriving DecidableEq, Repr

/-- The entries from the open one on, for sequence numbers in ascending order. -/
def nackEntriesLoop : NackEntry → List Nat → List NackEntry
  | entry, [] => [entry]
  | entry, seq :: rest =>
      if seq - entry.pid ≤ 16 then
        let diff := seq - entry.pid
        let blp := if diff > 0 then entry.blp ||| 1 <<< (diff - 1) else entry.blp
        nackEntriesLoop { entry with blp := blp } rest
      else entry :: nackEntriesLoop { pid := seq, blp := 0 } rest

def buildNackEntries (seqNums : List Nat) : List NackEntry :=
  match seqNums.insertionSort (· ≤ ·) with
  | [] => []
  | pid :: rest => nackEntriesLoop { pid := pid, blp := 0 } rest

def writeNackEntries : List NackEntry → Except RangeError Bytes
  | [] => .ok []
  | entry :: rest => do
      let pid ← writeUInt16BE entry.pid
      let blp ← writeUInt16BE entry.blp
      let later ← writeNackEntries rest
      return pid ++ blp ++ later

def buildNACK (senderSsrc mediaSsrc : Nat) (seqNums : List Nat) :
    Except RangeError (Option Bytes) :=
  if seqNums = [] then .ok none
  else do
    let entries := buildNackEntries seqNums
    let length ← writeUInt16BE (2 + entries.length)
    let fci ← writeNackEntries entries
    return some ([0x81, 205] ++ length ++ (encodeBE 4 senderSsrc ++ encodeBE 4 mediaSsrc ++ fci))

def buildFIR (senderSsrc mediaSsrc seqNr : Nat) : Bytes :=
  [0x84, 206] ++ encodeBE 2 4 ++ (encodeBE 4 senderSsrc ++ encodeBE 4 0 ++
    encodeBE 4 mediaSsrc ++ encodeBE 1 seqNr ++ [0, 0, 0])

structure ReportBlock where
  mediaSsrc : Nat
  fractionLost : Nat
  totalLost : Nat
  highestSeq : Nat
  jitter : Nat
  lastSR : Nat
  delaySinceLastSR : Nat
  deriving DecidableEq, Repr

def buildRR (ssrc : Nat) (block : ReportBlock) : Bytes :=
  [0x81, 201] ++ encodeBE 2 7 ++ (encodeBE 4 ssrc ++ encodeBE 4 block.mediaSsrc ++
    encodeBE 1 block.fractionLost ++ encodeBE 3 block.totalLost ++ encodeBE 4 block.highestSeq ++
    encodeBE 4 block.jitter ++ encodeBE 4 block.lastSR ++ encodeBE 4 block.delaySinceLastSR)

/-- Halvings until the mantissa fits 18 bits. The first shift takes the value to
32 bits, so thirteen turns are always enough. -/
def rembExponentLoop : Nat → Nat × Int → Nat × Int
  | 0, scaled => scaled
  | fuel + 1, (exp, mantissa) =>
      if mantissa > 0x3FFFF then rembExponentLoop fuel (exp + 1, toInt32 mantissa / 2)
      else (exp, mantissa)

def rembExponent (bitrate : Rat) : Nat × Int := rembExponentLoop 13 (0, bitrate.floor)

def rembIdentifier : Bytes := [0x52, 0x45, 0x4D, 0x42]

def buildREMB (senderSsrc : Nat) (mediaSsrcs : List Nat) (bitrate : Rat) :
    Except RangeError Bytes := do
  let numSsrcs := mediaSsrcs.length
  let length ← writeUInt16BE (2 + 1 + numSsrcs)
  let exp := (rembExponent bitrate).1
  let mantissa := (rembExponent bitrate).2
  return [0x8F, 206] ++ length ++ (encodeBE 4 senderSsrc ++ encodeBE 4 0 ++ rembIdentifier ++
    encodeBE 1 numSsrcs ++
    encodeBE 1 (exp % 0x40 * 4 + (mantissa / 0x10000 % 4).toNat) ++
    encodeBE 2 (mantissa % 0x10000).toNat ++ mediaSsrcs.flatMap (encodeBE 4))

def buildSDES (ssrc : Nat) (cname : String) : Except RangeError Bytes := do
  let cnameBytes := utf8Bytes cname
  let itemLen := 2 + cnameBytes.length
  let chunkLen := 4 + itemLen + 1
  let paddedChunkLen := (chunkLen + 3) / 4 * 4
  let length ← writeUInt16BE (paddedChunkLen / 4)
  return [0x81, 202] ++ length ++ (encodeBE 4 ssrc ++ [1] ++ encodeBE 1 cnameBytes.length ++
    cnameBytes ++ List.replicate (paddedChunkLen - 4 - itemLen) 0)

/-- The reason of a goodbye with its length byte, padded; an empty text is none. -/
def byeReason (reason : Option String) : Bytes :=
  match reason with
  | none => []
  | some text =>
      if text = "" then []
      else
        let reasonBytes := utf8Bytes text
        let reasonLen := 1 + reasonBytes.length
        encodeBE 1 reasonBytes.length ++ reasonBytes ++
          List.replicate ((reasonLen + 3) / 4 * 4 - reasonLen) 0

def buildBYE (ssrcs : List Nat) (reason : Option String) : Except RangeError Bytes := do
  let totalLen := 4 + ssrcs.length * 4 + (byeReason reason).length
  let length ← writeUInt16BE (totalLen / 4 - 1)
  return [UInt8.ofNat (0x80 + ssrcs.length % 0x20), 203] ++ length ++
    (ssrcs.flatMap (encodeBE 4) ++ byeReason reason)

def buildCompound (packets : List Bytes) : Bytes := packets.flatten

structure SdesItem where
  type : Nat
  value : String
  deriving DecidableEq, Repr

inductive Body where
  | unnamed
  | sr (ssrc ntpTimestampMsw ntpTimestampLsw rtpTimestamp packetCount octetCount : Nat)
      (reports : List ReportBlock)
  | pli (senderSsrc mediaSsrc : Nat)
  | nack (senderSsrc mediaSsrc : Nat) (lostSequenceNumbers : List Nat)
  | transportCC (senderSsrc mediaSsrc : Nat) (fci : Bytes)
  | remb (senderSsrc mediaSsrc : Nat) (fci : Bytes)
  | fir (senderSsrc mediaSsrc seqNr : Nat)
  | sdes (ssrc : Nat) (items : List SdesItem) (cname : Option String)
  | bye (ssrcs : List Nat) (reason : Option String)
  | rr (ssrc : Nat) (flat : ReportBlock) (reports : List ReportBlock)
  deriving DecidableEq, Repr

def Body.name : Body → Option String
  | unnamed => none
  | sr .. => some "SR"
  | pli .. => some "PLI"
  | nack .. => some "NACK"
  | transportCC .. => some "TransportCC"
  | remb .. => some "REMB"
  | fir .. => some "FIR"
  | sdes .. => some "SDES"
  | bye .. => some "BYE"
  | rr .. => some "RR"

structure RtcpPacket where
  version : Nat
  padding : Bool
  type : Nat
  length : Nat
  body : Body
  deriving DecidableEq, Repr

def readReportBlock (buf : Bytes) (off : Nat) : ReportBlock where
  mediaSsrc := readBE 4 buf off
  fractionLost := readBE 1 buf (off + 4)
  totalLost := readBE 3 buf (off + 5)
  highestSeq := readBE 4 buf (off + 8)
  jitter := readBE 4 buf (off + 12)
  lastSR := readBE 4 buf (off + 16)
  delaySinceLastSR := readBE 4 buf (off + 20)

def readReports (buf : Bytes) (start count : Nat) : List ReportBlock :=
  ((List.range count).takeWhile fun block => start + (block + 1) * 24 ≤ buf.length).map
    fun block => readReportBlock buf (start + block * 24)

def parseNackEntries : Bytes → List Nat
  | p1 :: p0 :: b1 :: b0 :: rest =>
      let pid := decodeBE [p1, p0]
      let blp := decodeBE [b1, b0]
      pid :: ((List.range 16).filter fun bit => blp.testBit bit).map (fun bit => pid + bit + 1) ++
        parseNackEntries rest
  | _ => []

/-- Items up to a zero type, a cut item or the end; each takes two bytes or more,
so the length is fuel enough. -/
def parseSdesItems : Nat → Bytes → List SdesItem
  | fuel + 1, itemType :: itemLen :: rest =>
      if itemType = 0 then []
      else if rest.length < itemLen.toNat then []
      else
        { type := itemType.toNat, value := utf8Text (rest.take itemLen.toNat) } ::
          parseSdesItems fuel (rest.drop itemLen.toNat)
  | _, _ => []

def parseSdes (buf : Bytes) : Body :=
  let items := parseSdesItems buf.length (buf.drop 8)
  let cname := match items with
    | item :: _ => if item.type = 1 then some item.value else none
    | [] => none
  .sdes (readBE 4 buf 4) items cname

def parseBye (buf : Bytes) (count : Nat) : Body :=
  let ssrcs := ((List.range count).takeWhile fun s => 4 + (s + 1) * 4 ≤ buf.length).map
    fun s => readBE 4 buf (4 + s * 4)
  let reasonOff := 4 + count * 4
  let rLen := readBE 1 buf reasonOff
  let reason :=
    if reasonOff + 1 ≤ buf.length ∧ rLen > 0 ∧ reasonOff + 1 + rLen ≤ buf.length then
      some (utf8Text ((buf.drop (reasonOff + 1)).take rLen))
    else none
  .bye ssrcs reason

def parseBody (buf : Bytes) (type count : Nat) : Body :=
  if type = 200 ∧ buf.length ≥ 28 then
    .sr (readBE 4 buf 4) (readBE 4 buf 8) (readBE 4 buf 12) (readBE 4 buf 16) (readBE 4 buf 20)
      (readBE 4 buf 24) (readReports buf 28 count)
  else if type = 206 ∧ count = 1 ∧ buf.length ≥ 12 then
    .pli (readBE 4 buf 4) (readBE 4 buf 8)
  else if type = 205 ∧ count = 1 ∧ buf.length ≥ 16 then
    .nack (readBE 4 buf 4) (readBE 4 buf 8) (parseNackEntries (buf.drop 12))
  else if type = 205 ∧ count = 15 ∧ buf.length ≥ 16 then
    .transportCC (readBE 4 buf 4) (readBE 4 buf 8) (buf.drop 12)
  else if type = 206 ∧ count = 15 ∧ buf.length ≥ 20 then
    if (buf.drop 12).take 4 = rembIdentifier then
      .remb (readBE 4 buf 4) (readBE 4 buf 8) (buf.drop 12)
    else .unnamed
  else if type = 206 ∧ count = 4 ∧ buf.length ≥ 20 then
    .fir (readBE 4 buf 4) (readBE 4 buf 12) (readBE 1 buf 16)
  else if type = 202 ∧ buf.length ≥ 8 then parseSdes buf
  else if type = 203 then parseBye buf count
  else if type = 201 ∧ buf.length ≥ 32 then
    .rr (readBE 4 buf 4) (readReportBlock buf 8) (readReports buf 8 count)
  else .unnamed

def parseRTCP (buf : Bytes) : Option RtcpPacket :=
  if buf.length < 4 then none
  else
    let b0 := readBE 1 buf 0
    let version := b0 / 0x40
    if version ≠ 2 then none
    else
      some
        { version := version
          padding := b0 / 0x20 % 2 = 1
          type := readBE 1 buf 1
          length := readBE 2 buf 2
          body := parseBody buf (readBE 1 buf 1) (b0 % 0x20) }

/-- The walk over a datagram: each turn takes one packet by its length field and
at least four bytes, so the length is fuel enough. -/
def parseCompoundLoop : Nat → Bytes → List RtcpPacket
  | 0, _ => []
  | fuel + 1, buf =>
      if buf.length < 4 then []
      else
        let subLen := (readBE 2 buf 2 + 1) * 4
        if subLen > buf.length then []
        else (parseRTCP (buf.take subLen)).toList ++ parseCompoundLoop fuel (buf.drop subLen)

def parseRTCPCompound (buf : Bytes) : List RtcpPacket := parseCompoundLoop buf.length buf

theorem remb_loop_fits {fuel exp : Nat} {mantissa : Int} (bounded : mantissa < 2 ^ (18 + fuel))
    (small : mantissa < 2 ^ 31) (positive : -2 ^ 31 ≤ mantissa) :
    (rembExponentLoop fuel (exp, mantissa)).2 ≤ 0x3FFFF := by
  induction fuel generalizing exp mantissa with
  | zero =>
      rw [rembExponentLoop]
      norm_num at bounded
      omega
  | succ fuel ih =>
      rw [rembExponentLoop]
      split_ifs with wide
      · have unchanged : toInt32 mantissa = mantissa := by
          rw [toInt32, Int.bmod_eq_of_le] <;> omega
        have double : (2 : Int) ^ (18 + (fuel + 1)) = 2 * 2 ^ (18 + fuel) := by ring
        rw [unchanged]
        exact ih (by omega) (by omega) (by omega)
      · exact Int.not_lt.mp wide

/-- Thirteen turns are enough for any bitrate. -/
theorem remb_exponent_fits (bitrate : Rat) : (rembExponent bitrate).2 ≤ 0x3FFFF := by
  rw [rembExponent, rembExponentLoop]
  split_ifs with wide
  · have low : -2 ^ 31 ≤ toInt32 bitrate.floor := by
      have bound := Int.le_bmod (x := bitrate.floor) (m := 2 ^ 32) (by decide)
      rw [toInt32]
      omega
    have high : toInt32 bitrate.floor < 2 ^ 31 := by
      have bound := Int.bmod_lt (x := bitrate.floor) (m := 2 ^ 32) (by decide)
      rw [toInt32]
      omega
    exact remb_loop_fits (by norm_num; omega) (by omega) (by omega)
  · exact Int.not_lt.mp wide

end RtpPacket.Rtcp
