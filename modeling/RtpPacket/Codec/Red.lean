import RtpPacket.Rtp.Depacketizer

/-!
# RED redundant audio

Each packet carries its own frame and copies of the frames before it. A copy that does
not fit the fields of its block header is left out.
-/

namespace RtpPacket.Codec.Red

open ByteCodec Rtp Word

set_option autoImplicit false

def maxTsOffset : Nat := 0x3FFF

def maxBlockLen : Nat := 0x3FF

structure Options extends PacketizerOptions where
  innerPayloadType : Option Int
  redundancy : Option Int
  clockRate : Option Nat

structure Frame where
  rtpTs : Nat
  data : Bytes
  deriving DecidableEq, Repr

structure REDPacketizer where
  base : Packetizer
  innerPt : Nat
  redundancy : Nat
  clockRate : Nat
  history : List Frame
  sentFirst : Bool
  inner_pt_range : innerPt < 128

structure Redundant where
  off : Nat
  data : Bytes

namespace Redundant

def header (innerPt : Nat) (blk : Redundant) : Bytes :=
  [byteAt (0x80 ||| innerPt) 0, byteAt (blk.off >>> 6) 0,
    byteAt ((blk.off &&& 0x3F) <<< 2 ||| (blk.data.length >>> 8 &&& 0x03)) 0,
    byteAt blk.data.length 0]

/-- What the fields of a block header have room for. -/
structure Fits (blk : Redundant) : Prop where
  off : blk.off ≤ maxTsOffset
  length : blk.data.length ≤ maxBlockLen

end Redundant

/-- Block headers and the primary header, then the payloads in the same order. -/
def payload (innerPt : Nat) (blocks : List Redundant) (data : Bytes) : Bytes :=
  blocks.flatMap (·.header innerPt) ++ byteAt (innerPt &&& 0x7F) 0 ::
    (blocks.flatMap (·.data) ++ data)

namespace REDPacketizer

def new (random : Fin 0x10000) (opts : Options) : Except String REDPacketizer := do
  let base ← initPacketizer "REDPacketizer" random opts.toPacketizerOptions
  match opts.innerPayloadType with
  | none =>
      throw "REDPacketizer: opts.innerPayloadType required (the wrapped codec's payload type)"
  | some innerPayloadType =>
      return {
        base := base
        innerPt := wrapUnsigned 7 innerPayloadType
        redundancy := (opts.redundancy.map fun value => (max 0 (toInt32 value)).toNat).getD 1
        clockRate := match opts.clockRate with
          | none | some 0 => 48000
          | some rate => rate
        history := []
        sentFirst := false
        inner_pt_range := wrap_unsigned_lt 7 innerPayloadType }

def blocks (self : REDPacketizer) (rtpTs : Nat) : List Redundant :=
  (self.history.drop (self.history.length - self.redundancy)).filterMap fun h =>
    let off := wrapUnsigned 32 (rtpTs - h.rtpTs)
    if off > maxTsOffset then none
    else if h.data.length > maxBlockLen then none
    else some { off := off, data := h.data }

def push (self : REDPacketizer) (frame : Frame) : REDPacketizer :=
  let history := self.history ++ [frame]
  { self with
    history := history.drop (history.length - max 1 self.redundancy)
    sentFirst := true }

def send (self : REDPacketizer) (data : Bytes) (rtpTs : Nat) (withMeta : Bool) :
    Packet × REDPacketizer :=
  let made := self.base.makePacket (payload self.innerPt (self.blocks rtpTs) data) rtpTs
    (!self.sentFirst) withMeta
  (made.1, { self.push { rtpTs := rtpTs, data := data } with base := made.2 })

def packetizeWith (self : REDPacketizer) (chunk : Chunk) (withMeta : Bool) :
    Except String (List Packet × REDPacketizer) := do
  validateChunk "REDPacketizer" chunk
  let sent := self.send (← chunk.frame) (usToRtp chunk.timestamp self.clockRate) withMeta
  return ([sent.1], sent.2)

def packetize (self : REDPacketizer) (chunk : Chunk) :
    Except String (List Packet × REDPacketizer) := self.packetizeWith chunk false

def packetizeWithMeta (self : REDPacketizer) (chunk : Chunk) :
    Except String (List Packet × REDPacketizer) := self.packetizeWith chunk true

def close (self : REDPacketizer) : REDPacketizer := { self with history := [] }

end REDPacketizer

structure BlockHeader where
  pt : Nat
  tsOffset : Nat
  len : Nat
  isPrimary : Bool
  deriving DecidableEq, Repr

structure Block where
  pt : Nat
  tsOffset : Nat
  data : Bytes
  isPrimary : Bool
  deriving DecidableEq, Repr

/-- The headers up to the primary one, which ends the list, and the bytes behind them. -/
def readHeaders : Bytes → Option (List BlockHeader × Bytes)
  | [] => none
  | b0 :: tail =>
      if b0.toNat &&& 0x80 = 0 then
        some ([{ pt := b0.toNat &&& 0x7F, tsOffset := 0, len := 0, isPrimary := true }], tail)
      else
        match tail with
        | b1 :: b2 :: b3 :: rest => do
            let later ← readHeaders rest
            let header : BlockHeader :=
              { pt := b0.toNat &&& 0x7F
                tsOffset := b1.toNat <<< 6 ||| b2.toNat >>> 2
                len := (b2.toNat &&& 0x03) <<< 8 ||| b3.toNat
                isPrimary := false }
            some (header :: later.1, later.2)
        | _ => none

def readBlocks : List BlockHeader → Bytes → Option (List Block)
  | [], rest => if rest.isEmpty then some [] else none
  | h :: headers, rest =>
      let len := if h.isPrimary then rest.length else h.len
      if rest.length < len then none
      else do
        let later ← readBlocks headers (rest.drop len)
        some ({ pt := h.pt, tsOffset := h.tsOffset, data := rest.take len,
                isPrimary := h.isPrimary } :: later)

def parseRed (payload : Bytes) : Option (List Block) := do
  let (headers, rest) ← readHeaders payload
  readBlocks headers rest

structure PseudoPacket where
  payloadType : Nat
  sequenceNumber : Nat
  timestamp : Nat
  ssrc : Nat
  marker : Bool
  payload : Bytes
  redRecovered : Bool
  deriving DecidableEq, Repr

structure REDDepacketizer where
  callbacks : Callbacks
  /-- The timestamps handed out lately, oldest first. -/
  seen : List Nat
  seenMax : Nat
  deriving DecidableEq, Repr

structure Entry where
  ts : Nat
  blk : Block
  deriving DecidableEq, Repr

namespace REDDepacketizer

def new (opts : DepacketizerOptions) (historySize : Option Nat) :
    Except String REDDepacketizer := do
  let callbacks ← initDepacketizer "REDDepacketizer" opts
  return {
    callbacks := callbacks
    seen := []
    seenMax := match historySize with
      | none | some 0 => 64
      | some size => size }

/-- The blocks whose timestamp was not handed out, in the order of their timestamps. -/
def fresh (self : REDDepacketizer) (timestamp : Nat) (blocks : List Block) : List Entry :=
  let out := blocks.filterMap fun blk =>
    let ts := wrapUnsigned 32 (timestamp - blk.tsOffset)
    if ts ∈ self.seen then none else some { ts := ts, blk := blk }
  out.insertionSort fun a b => toInt32 (a.ts - b.ts) ≤ 0

/-- Setting a key that is there leaves its place. -/
def remember (self : REDDepacketizer) (ts : Nat) : REDDepacketizer :=
  let seen := if ts ∈ self.seen then self.seen else self.seen ++ [ts]
  { self with seen := seen.drop (seen.length - self.seenMax) }

def depacketize (self : REDDepacketizer) (packet : ParsedPacket) :
    REDDepacketizer × List (DepacketizerEvent PseudoPacket) :=
  if !self.callbacks.checkDepacketizePayload packet 1 then (self, [])
  else
    match parseRed packet.payload with
    | none => (self, self.callbacks.emitError "RED: malformed payload")
    | some blocks =>
        let out := self.fresh packet.timestamp blocks
        (out.foldl (fun current entry => current.remember entry.ts) self,
          out.map fun entry => .output
            { payloadType := entry.blk.pt
              sequenceNumber := packet.sequenceNumber
              timestamp := entry.ts
              ssrc := packet.ssrc
              marker := entry.blk.isPrimary && packet.marker
              payload := entry.blk.data
              redRecovered := !entry.blk.isPrimary })

def reset (self : REDDepacketizer) : REDDepacketizer := { self with seen := [] }

def close (self : REDDepacketizer) : REDDepacketizer :=
  { self.reset with callbacks := { output := false, error := false } }

end REDDepacketizer

def Redundant.block (innerPt : Nat) (blk : Redundant) : Block where
  pt := innerPt
  tsOffset := blk.off
  data := blk.data
  isPrimary := false

theorem mixed_byte (off length : Nat) :
    ((off &&& 0x3F) <<< 2 ||| (length >>> 8 &&& 0x03)) % 256 = off % 64 * 4 + length / 256 % 4 := by
  have low : length >>> 8 &&& 0x03 = length / 256 % 4 := by
    rw [Nat.and_two_pow_sub_one_eq_mod _ 2, Nat.shiftRight_eq_div_pow]
  have high : off &&& 0x3F = off % 64 := Nat.and_two_pow_sub_one_eq_mod _ 6
  have small : length / 256 % 4 < 2 ^ 2 := Nat.mod_lt _ (by decide)
  rw [low, high, ← Nat.shiftLeft_add_eq_or_of_lt small, Nat.shiftLeft_eq]
  omega

theorem read_offset {off : Nat} (fits : off ≤ maxTsOffset) (length : Nat) :
    (off / 64 % 256) <<< 6 ||| (off % 64 * 4 + length / 256 % 4) >>> 2 = off := by
  have bound : off < 0x4000 := Nat.lt_succ_of_le fits
  have low : (off % 64 * 4 + length / 256 % 4) >>> 2 = off % 64 := by
    rw [Nat.shiftRight_eq_div_pow]
    omega
  have small : off % 64 < 2 ^ 6 := Nat.mod_lt _ (by decide)
  rw [low, ← Nat.shiftLeft_add_eq_or_of_lt small, Nat.shiftLeft_eq]
  omega

theorem read_length {length : Nat} (fits : length ≤ maxBlockLen) (off : Nat) :
    (off % 64 * 4 + length / 256 % 4 &&& 0x03) <<< 8 ||| length % 256 = length := by
  have bound : length < 0x400 := Nat.lt_succ_of_le fits
  have small : length % 256 < 2 ^ 8 := Nat.mod_lt _ (by decide)
  rw [Nat.and_two_pow_sub_one_eq_mod _ 2, ← Nat.shiftLeft_add_eq_or_of_lt small, Nat.shiftLeft_eq]
  omega

theorem read_pt {innerPt : Nat} (range : innerPt < 128) :
    (0x80 ||| innerPt) % 256 &&& 0x80 ≠ 0 ∧ (0x80 ||| innerPt) % 256 &&& 0x7F = innerPt ∧
      (innerPt &&& 0x7F) % 256 &&& 0x80 = 0 ∧ (innerPt &&& 0x7F) % 256 &&& 0x7F = innerPt := by
  have each : ∀ pt < 128, (0x80 ||| pt) % 256 &&& 0x80 ≠ 0 ∧ (0x80 ||| pt) % 256 &&& 0x7F = pt ∧
      (pt &&& 0x7F) % 256 &&& 0x80 = 0 ∧ (pt &&& 0x7F) % 256 &&& 0x7F = pt := by
    decide +kernel
  exact each innerPt range

theorem read_headers {innerPt : Nat} (range : innerPt < 128) {blocks : List Redundant}
    (fits : ∀ blk ∈ blocks, blk.Fits) (rest : Bytes) :
    readHeaders (blocks.flatMap (·.header innerPt) ++ byteAt (innerPt &&& 0x7F) 0 :: rest) =
      some (blocks.map (fun blk =>
          { pt := innerPt, tsOffset := blk.off, len := blk.data.length, isPrimary := false }) ++
        [{ pt := innerPt, tsOffset := 0, len := 0, isPrimary := true }], rest) := by
  obtain ⟨marked, redundantPt, unmarked, primaryPt⟩ := read_pt range
  induction blocks with
  | nil =>
      rw [List.flatMap_nil, List.nil_append]
      unfold readHeaders
      rw [byte_at_low, if_pos unmarked, primaryPt]
      rfl
  | cons blk blocks ih =>
      have here := fits blk List.mem_cons_self
      have later := ih fun other member => fits other (List.mem_cons_of_mem _ member)
      have offset : (byteAt (blk.off >>> 6) 0).toNat = blk.off / 64 % 256 := by
        rw [byte_at_low, Nat.shiftRight_eq_div_pow]
      rw [List.flatMap_cons, List.append_assoc, Redundant.header]
      simp only [List.cons_append, List.nil_append]
      rw [readHeaders, byte_at_low, if_neg marked, redundantPt, later, offset]
      simp only [byte_at_low, mixed_byte, read_offset here.off, read_length here.length]
      rfl

theorem read_blocks (innerPt : Nat) (blocks : List Redundant) (data : Bytes) :
    readBlocks (blocks.map (fun blk =>
          { pt := innerPt, tsOffset := blk.off, len := blk.data.length, isPrimary := false }) ++
        [{ pt := innerPt, tsOffset := 0, len := 0, isPrimary := true }])
        (blocks.flatMap (·.data) ++ data) =
      some (blocks.map (·.block innerPt) ++
        [{ pt := innerPt, tsOffset := 0, data := data, isPrimary := true }]) := by
  induction blocks with
  | nil => simp [readBlocks]
  | cons blk blocks ih =>
      rw [List.flatMap_cons, List.map_cons, List.cons_append, readBlocks, List.append_assoc]
      simp only [Bool.false_eq_true, if_false, List.drop_left, List.take_left, ih,
        List.length_append]
      rw [if_neg (by omega)]
      rfl

theorem parse_red_payload {innerPt : Nat} (range : innerPt < 128) {blocks : List Redundant}
    (fits : ∀ blk ∈ blocks, blk.Fits) (data : Bytes) :
    parseRed (payload innerPt blocks data) =
      some (blocks.map (·.block innerPt) ++
        [{ pt := innerPt, tsOffset := 0, data := data, isPrimary := true }]) := by
  rw [parseRed, payload, read_headers range fits]
  exact read_blocks innerPt blocks data

end RtpPacket.Codec.Red
