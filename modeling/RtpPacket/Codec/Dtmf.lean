import Mathlib.Algebra.Order.Round
import RtpPacket.Rtp.Header

/-!
# Telephone events

A key press is one event with one timestamp. Its packets carry the time elapsed since
its start, and its last packet goes out three times. The receiver takes one of the three
and knows the others by their timestamp.
-/

namespace RtpPacket.Codec

open ByteCodec Word Rtp

set_option autoImplicit false

def eventCodes : List (Char × Nat) :=
  [('0', 0), ('1', 1), ('2', 2), ('3', 3), ('4', 4), ('5', 5), ('6', 6), ('7', 7),
    ('8', 8), ('9', 9), ('*', 10), ('#', 11), ('A', 12), ('B', 13), ('C', 14), ('D', 15)]

def tones : List Char :=
  ['0', '1', '2', '3', '4', '5', '6', '7', '8', '9', '*', '#', 'A', 'B', 'C', 'D']

structure DtmfOptions where
  ssrc : Option Int
  payloadType : Option Int
  clockRate : Option Nat
  /-- What the caller's callback answers, call by call. -/
  nextSequenceNumber : Option (Nat → Int)
  initialSequenceNumber : Option Int

structure DtmfPacketizer where
  ssrc : Nat
  payloadType : Nat
  clockRate : Nat
  nextSeq : Option (Nat → Int)
  /-- How often `nextSeq` was called. -/
  calls : Nat
  seq : Nat
  eventCode : Option Nat
  eventTs : Nat
  elapsedTicks : Int
  first : Bool
  seq_range : seq < 65536

namespace DtmfPacketizer

def new (random : Fin 65536) (opts : DtmfOptions) : Except String DtmfPacketizer :=
  match opts.ssrc, opts.payloadType with
  | some ssrc, some payloadType =>
      .ok {
        ssrc := wrapUnsigned 32 ssrc
        payloadType := wrapUnsigned 7 payloadType
        -- Zero counts as absent.
        clockRate := if opts.clockRate.getD 0 = 0 then 48000 else opts.clockRate.getD 0
        nextSeq := opts.nextSequenceNumber
        calls := 0
        seq := (opts.initialSequenceNumber.map (wrapUnsigned 16)).getD random
        eventCode := none
        eventTs := 0
        elapsedTicks := 0
        first := false
        seq_range := by
          cases opts.initialSequenceNumber with
          | none => exact random.isLt
          | some initial => exact wrap_unsigned_lt 16 initial }
  | _, _ => .error "DtmfPacketizer: ssrc and payloadType are required"

def codeForTone (ch : String) : Option Nat :=
  match ch.toList.map Char.toUpper with
  | [tone] => eventCodes.lookup tone
  | _ => none

def advanceSeq (self : DtmfPacketizer) : DtmfPacketizer :=
  { self with
    seq := (self.seq + 1) % 65536
    seq_range := Nat.mod_lt _ (by decide) }

def takeSeq (self : DtmfPacketizer) : DtmfPacketizer × Nat :=
  match self.nextSeq with
  | some next => ({ self with calls := self.calls + 1 }, wrapUnsigned 16 (next self.calls))
  | none => (self.advanceSeq, self.seq)

def startEvent (self : DtmfPacketizer) (toneChar : String) (timestamp : Int) :
    DtmfPacketizer × Except String Unit :=
  match codeForTone toneChar with
  | none => (self, .error s!"DtmfPacketizer: invalid tone \"{toneChar}\"")
  | some code =>
      ({ self with
          eventCode := some code
          eventTs := wrapUnsigned 32 timestamp
          elapsedTicks := 0
          first := true }, .ok ())

/-- The store of a negative duration throws. -/
def buildPayload (self : DtmfPacketizer) (isEnd : Bool) (volume : Int) : Except String Bytes :=
  let duration := min self.elapsedTicks 0xFFFF
  if duration < 0 then
    .error (s!"The value of \"value\" is out of range. " ++
      s!"It must be >= 0 and <= 65535. Received {duration}")
  else
    .ok (byteAt (self.eventCode.getD 0 &&& 0xFF) 0 ::
      byteAt ((if isEnd then 0x80 else 0x00) ||| wrapUnsigned 6 volume) 0 ::
      encodeBE 2 duration.toNat)

def packetObject (self : DtmfPacketizer) (sequenceNumber : Nat) (payload : Bytes) :
    PacketObject where
  payloadType := self.payloadType
  sequenceNumber := sequenceNumber
  timestamp := self.eventTs
  ssrc := self.ssrc
  marker := self.first
  padding := false
  extensions := none
  csrc := []
  payload := payload

/-- What `update` and each round of `endEvent` do: a sequence number is taken even when the
payload then throws. -/
def sendPacket (self : DtmfPacketizer) (payload : Except String Bytes) :
    DtmfPacketizer × Except String Bytes :=
  let taken := self.takeSeq
  match payload.bind fun payload => serialize (self.packetObject taken.2 payload) with
  | .error message => (taken.1, .error message)
  | .ok pkt => ({ taken.1 with first := false }, .ok pkt)

/-- Whole ticks of the clock, halves rounded up. -/
def ticks (clockRate : Nat) (deltaMs : ℚ) : Int := round (deltaMs * clockRate / 1000)

def elapse (self : DtmfPacketizer) (deltaMs : ℚ) : DtmfPacketizer :=
  { self with elapsedTicks := self.elapsedTicks + ticks self.clockRate deltaMs }

def update (self : DtmfPacketizer) (deltaMs : ℚ) (volume : Option Int) :
    DtmfPacketizer × Except String Bytes :=
  if self.eventCode.isNone then (self, .error "DtmfPacketizer: no active event")
  else
    let elapsed := self.elapse deltaMs
    elapsed.sendPacket (elapsed.buildPayload false (volume.getD 10))

def sendCopies (self : DtmfPacketizer) (payload : Bytes) :
    Nat → DtmfPacketizer × Except String (List Bytes)
  | 0 => (self, .ok [])
  | count + 1 =>
      match self.sendPacket (.ok payload) with
      | (next, .error message) => (next, .error message)
      | (next, .ok pkt) =>
          let later := next.sendCopies payload count
          (later.1, later.2.map (pkt :: ·))

/-- A final delta of zero counts as absent. -/
def endEvent (self : DtmfPacketizer) (finalDeltaMs : Option ℚ) (volume : Option Int) :
    DtmfPacketizer × Except String (List Bytes) :=
  if self.eventCode.isNone then (self, .error "DtmfPacketizer: no active event")
  else
    let elapsed :=
      if finalDeltaMs.getD 0 ≠ 0 then self.elapse (finalDeltaMs.getD 0) else self
    match elapsed.buildPayload true (volume.getD 10) with
    | .error message => (elapsed, .error message)
    | .ok payload =>
        match elapsed.sendCopies payload 3 with
        | (sent, .error message) => (sent, .error message)
        | (sent, .ok out) => ({ sent with eventCode := none }, .ok out)

end DtmfPacketizer

structure DtmfEvent where
  event : Nat
  tone : Char
  /-- `end` in the source. -/
  isEnd : Bool
  volume : Nat
  duration : Nat
  deriving DecidableEq, Repr

/-- Tones only: the codes from 16 on are other signals. -/
def parseDtmf (payload : Bytes) : Option DtmfEvent :=
  if payload.length < 4 then none
  else
    let event := (payload.getD 0 0).toNat
    if event > 15 then none
    else
      some
        { event := event
          tone := tones.getD event '0'
          isEnd := (payload.getD 1 0).toNat &&& 0x80 != 0
          volume := (payload.getD 1 0).toNat &&& 0x3F
          duration := readBE 2 payload 2 }

structure DtmfOutput where
  tone : Char
  event : Nat
  volume : Nat
  duration : Nat
  timestamp : Nat
  deriving DecidableEq, Repr

structure DTMFDepacketizer where
  /-- Whether `_output` is still in place. -/
  output : Bool
  lastEndTs : Option Nat
  deriving DecidableEq, Repr

namespace DTMFDepacketizer

def new : DTMFDepacketizer := { output := true, lastEndTs := none }

/-- A payload handed in without its packet has no timestamp, which counts as zero. -/
inductive Input where
  | packet (pkt : ParsedPacket)
  | bare (payload : Bytes)

def Input.payload : Input → Bytes
  | packet pkt => pkt.payload
  | bare payload => payload

def Input.timestamp : Input → Nat
  | packet pkt => pkt.timestamp % 2 ^ 32
  | bare _ => 0

def depacketize (self : DTMFDepacketizer) (pkt : Input) : DTMFDepacketizer × List DtmfOutput :=
  if !self.output then (self, [])
  else
    match parseDtmf pkt.payload with
    | none => (self, [])
    | some ev =>
        if ev.isEnd then
          if self.lastEndTs = some pkt.timestamp then (self, [])
          else
            ({ self with lastEndTs := some pkt.timestamp },
              [{ tone := ev.tone, event := ev.event, volume := ev.volume
                 duration := ev.duration, timestamp := pkt.timestamp }])
        else (self, [])

def reset (self : DTMFDepacketizer) : DTMFDepacketizer := { self with lastEndTs := none }

def close (_ : DTMFDepacketizer) : DTMFDepacketizer := { output := false, lastEndTs := none }

end DTMFDepacketizer

end RtpPacket.Codec
