import RtpPacket.Rtp.Depacketizer

/-!
# AAC

An access unit goes into one packet, or in fragments into several; each has one header
with the size of the whole unit. Nothing says which of the two a packet is: the
depacketizer compares the size announced with the bytes that are there. It also reads
packets of several whole units, which the packetizer does not send.
-/

namespace RtpPacket.Codec.Aac

open ByteCodec Rtp Word

set_option autoImplicit false

def auHeaderBits : Nat := 16

def auHeaderBytes : Nat := 2

def auHeadersLengthPrefixBytes : Nat := 2

/-- What a size of 13 bits can say. -/
def maxAuSize : Nat := (1 <<< 13) - 1

def maxAuIndexDelta : Nat := (1 <<< 3) - 1

def defaultClockRate : Nat := 48000

structure Options extends PacketizerOptions where
  clockRate : Option Nat

structure AacPacketizer where
  base : Packetizer
  clockRate : Nat

def auPayload (auSize : Nat) (data : Bytes) : Bytes :=
  encodeBE 2 auHeaderBits ++ (encodeBE 2 (auSize <<< 3 &&& 0xFFFF) ++ data)

def buildSinglePacket (self : Packetizer) (auData : Bytes) (rtpTs : Nat)
    (marker withMeta : Bool) : Packet × Packetizer :=
  let auSize := auData.length &&& maxAuSize
  self.makePacket (auPayload auSize auData) rtpTs marker withMeta

def buildFragmentPacket (self : Packetizer) (fragData : Bytes) (totalAuSize rtpTs : Nat)
    (isLast withMeta : Bool) : Packet × Packetizer :=
  let auSize := totalAuSize &&& maxAuSize
  self.makePacket (auPayload auSize fragData) rtpTs isLast withMeta

def fragmentLoop (maxFragSize : Nat) (some : maxFragSize ≠ 0) (data : Bytes) (rtpTs : Nat)
    (withMeta : Bool) (offset : Nat) (self : Packetizer) : List Packet × Packetizer :=
  if offset < data.length then
    let fragSize := min maxFragSize (data.length - offset)
    let fragData := (data.drop offset).take fragSize
    let isLast := offset + fragSize == data.length
    let made := buildFragmentPacket self fragData data.length rtpTs isLast withMeta
    let later := fragmentLoop maxFragSize some data rtpTs withMeta (offset + fragSize) made.2
    (made.1 :: later.1, later.2)
  else ([], self)
termination_by data.length - offset

namespace AacPacketizer

def new (random : Fin 0x10000) (opts : Options) : Except String AacPacketizer := do
  let base ← initPacketizer "AacPacketizer" random opts.toPacketizerOptions
  return {
    base := base
    clockRate := match opts.clockRate with
      | none | some 0 => defaultClockRate
      | some rate => rate }

/-- The packets of one unit. Units without a byte, and units that the size cannot tell,
are dropped; the warnings of the process are left out. -/
def unitPackets (self : Packetizer) (data : Bytes) (rtpTs : Nat) (withMeta : Bool) :
    List Packet × Packetizer :=
  if data.length = 0 then ([], self)
  else if data.length > maxAuSize then ([], self)
  else
    let headerOverhead := auHeadersLengthPrefixBytes + auHeaderBytes
    let maxFragSize := self.mtu - headerOverhead
    if none : maxFragSize = 0 then
      let made := buildSinglePacket self data rtpTs true withMeta
      ([made.1], made.2)
    else if data.length ≤ maxFragSize then
      let made := buildSinglePacket self data rtpTs true withMeta
      ([made.1], made.2)
    else fragmentLoop maxFragSize none data rtpTs withMeta 0 self

def packetizeWith (self : AacPacketizer) (chunk : Chunk) (withMeta : Bool) :
    Except String (List Packet × AacPacketizer) := do
  validateChunk "AacPacketizer" chunk
  let sent := unitPackets self.base (← chunk.frame) (usToRtp chunk.timestamp self.clockRate)
    withMeta
  return (sent.1, { self with base := sent.2 })

def packetize (self : AacPacketizer) (chunk : Chunk) :
    Except String (List Packet × AacPacketizer) := self.packetizeWith chunk false

def packetizeWithMeta (self : AacPacketizer) (chunk : Chunk) :
    Except String (List Packet × AacPacketizer) := self.packetizeWith chunk true

end AacPacketizer

structure AuHeader where
  size : Nat
  indexDelta : Nat
  deriving DecidableEq, Repr

def readHeader (hdrWord : Nat) : AuHeader where
  size := hdrWord >>> 3 &&& maxAuSize
  indexDelta := hdrWord &&& maxAuIndexDelta

def readHeaders (payload : Bytes) (numAUs : Nat) : List AuHeader :=
  (List.range numAUs).map fun i =>
    readHeader (readBE 2 payload (auHeadersLengthPrefixBytes + i * auHeaderBytes))

structure AacDepacketizerOptions extends DepacketizerOptions where
  /-- In RTP ticks. -/
  constantDuration : Option Int

structure AacDepacketizer where
  callbacks : Callbacks
  constantDuration : Int
  /-- The fragments of the unit in flight, if there is one. -/
  fragments : Option (List Bytes)
  expectedSize : Nat
  fragmentTimestamp : Nat
  receivedSize : Nat
  deriving DecidableEq, Repr

/-- Any packet may hold the start of a unit, and none is a keyframe. -/
def peekKeyframe (_payload : Bytes) : Bool := false

namespace AacDepacketizer

def new (opts : AacDepacketizerOptions) : Except String AacDepacketizer := do
  let callbacks ← initDepacketizer "AacDepacketizer" opts.toDepacketizerOptions
  return {
    callbacks := callbacks
    constantDuration := match opts.constantDuration with
      | none | some 0 => 1024
      | some duration => duration
    fragments := none
    expectedSize := 0
    fragmentTimestamp := 0
    receivedSize := 0 }

def resetFragmentState (self : AacDepacketizer) : AacDepacketizer :=
  { self with fragments := none, expectedSize := 0, fragmentTimestamp := 0, receivedSize := 0 }

/-- A fragment of another size than the unit in flight starts a new one. -/
def beginFragments (self : AacDepacketizer) (announcedSize packetTs : Nat) :
    AacDepacketizer × List DepacketizerEvent :=
  if self.fragments.isNone || self.expectedSize != announcedSize then
    let received := self.receivedSize
    let expected := self.expectedSize
    ({ self with
        fragments := some []
        expectedSize := announcedSize
        fragmentTimestamp := packetTs
        receivedSize := 0 },
      if self.fragments.isSome then
        self.callbacks.emitError
          s!"AacDepacketizer: dropped incomplete AU ({received}/{expected} bytes)"
      else [])
  else (self, [])

def appendFragment (self : AacDepacketizer) (fragment : Bytes) : AacDepacketizer :=
  { self with
    fragments := some (self.fragments.getD [] ++ [fragment])
    receivedSize := self.receivedSize + fragment.length }

/-- The end of a unit: handed out if as many bytes have come as were announced. -/
def finishFragments (self : AacDepacketizer) : AacDepacketizer × List DepacketizerEvent :=
  let received := self.receivedSize
  let expected := self.expectedSize
  if received ≠ expected then
    (self.resetFragmentState,
      self.callbacks.emitError ("AacDepacketizer: AU reassembly size mismatch " ++
        s!"(got {received}, expected {expected})"))
  else
    (self.resetFragmentState,
      [.output ⟨(self.fragments.getD []).flatten, self.fragmentTimestamp, .key⟩])

def handleFragment (self : AacDepacketizer) (fragment : Bytes) (announcedSize packetTs : Nat)
    (markerBit : Bool) : AacDepacketizer × List DepacketizerEvent :=
  let begun := self.beginFragments announcedSize packetTs
  let appended := begun.1.appendFragment fragment
  if markerBit then
    let finished := appended.finishFragments
    (finished.1, begun.2 ++ finished.2)
  else (appended, begun.2)

def outputUnits (self : AacDepacketizer) (payload : Bytes) :
    List AuHeader → Nat → Nat → Nat → List DepacketizerEvent
  | [], _, _, _ => []
  | header :: rest, j, dataOffset, ts =>
      let sz := header.size
      if dataOffset + sz > payload.length then
        self.callbacks.emitError s!"AacDepacketizer: AU {j} size {sz} extends past payload end"
      else
        .output ⟨(payload.drop dataOffset).take sz, ts, .key⟩ ::
          outputUnits self payload rest (j + 1) (dataOffset + sz)
            (wrapUnsigned 32 (ts + self.constantDuration))

/-- One header is a whole unit or a fragment, by its size; several are whole units. -/
def takeUnits (self : AacDepacketizer) (packet : ParsedPacket) (auDataStart : Nat) :
    List AuHeader → AacDepacketizer × List DepacketizerEvent
  | [header] =>
      let payload := packet.payload
      let announcedSize := header.size
      let availableSize := payload.length - auDataStart
      if availableSize < announcedSize then
        self.handleFragment (payload.drop auDataStart) announcedSize packet.timestamp
          packet.marker
      else if availableSize > announcedSize then
        (self, self.callbacks.emitError
          (s!"AacDepacketizer: data section ({availableSize} bytes) larger than " ++
            s!"single AU size ({announcedSize})"))
      else
        (self.resetFragmentState,
          [.output ⟨(payload.drop auDataStart).take announcedSize, packet.timestamp, .key⟩])
  | headers =>
      (self.resetFragmentState,
        self.outputUnits packet.payload headers 0 auDataStart (wrapUnsigned 32 packet.timestamp))

def depacketize (self : AacDepacketizer) (packet : ParsedPacket) :
    AacDepacketizer × List DepacketizerEvent :=
  if !self.callbacks.checkDepacketizePayload packet auHeadersLengthPrefixBytes then (self, [])
  else
    let payload := packet.payload
    let auHeadersLengthBits := readBE 2 payload 0
    let auHeadersBytes := (auHeadersLengthBits + 7) >>> 3
    let auHeadersEnd := auHeadersLengthPrefixBytes + auHeadersBytes
    if auHeadersEnd > payload.length then
      (self, self.callbacks.emitError "AacDepacketizer: AU-headers extend past payload end")
    else if auHeadersLengthBits % auHeaderBits ≠ 0 then
      (self, self.callbacks.emitError
        (s!"AacDepacketizer: AU-headers-length {auHeadersLengthBits} bits is not a multiple of " ++
          s!"{auHeaderBits} (this depacketizer only supports AAC-hbr mode)"))
    else
      let numAUs := auHeadersLengthBits / auHeaderBits
      let auDataStart := auHeadersEnd
      self.takeUnits packet auDataStart (readHeaders payload numAUs)

def reset (self : AacDepacketizer) : AacDepacketizer := self.resetFragmentState

def close (self : AacDepacketizer) : AacDepacketizer :=
  { self.resetFragmentState with callbacks := { output := false, error := false } }

end AacDepacketizer

end RtpPacket.Codec.Aac
