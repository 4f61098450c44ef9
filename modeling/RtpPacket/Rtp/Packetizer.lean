import RtpPacket.Lib.ByteCodec
import RtpPacket.Lib.FloatingPoint
import RtpPacket.Lib.Word

/-!
# The packetizer base

The state every codec packetizer shares, the two ways a packet is built from it,
and the checks on what a caller passes in. A time is a rational number, and each
operation on it is rounded as the source's doubles are.
-/

namespace RtpPacket.Rtp

open ByteCodec FloatingPoint Word

set_option autoImplicit false

def rtpVersion : Nat := 2

def defaultMtu : Nat := 1400

structure PacketizerOptions where
  ssrc : Int
  payloadType : Int
  mtu : Option Int
  initialSequenceNumber : Option Int
  deriving Repr

structure Packetizer where
  mtu : Nat
  ssrc : Nat
  payloadType : Nat
  /-- `_seq`, the sequence number of the next packet. -/
  seq : Nat
  mtu_range : 100 ≤ mtu ∧ mtu ≤ 65535
  payload_type_range : payloadType < 128
  seq_range : seq < 65536

theorem dynamic_type_lt : 96 < 128 := by decide

theorem last_number_lt : 65535 < 65536 := by decide

/-- `random` stands for the draw that seeds the sequence numbers when no initial one is given. -/
def initPacketizer (name : String) (random : Fin 65536) (opts : PacketizerOptions) :
    Except String Packetizer :=
  if opts.payloadType < 0 ∨ opts.payloadType > 127 then
    .error s!"{name}: opts.payloadType is required (0-127)"
  else
    let mtu := opts.mtu.getD defaultMtu
    if range : 100 ≤ mtu ∧ mtu ≤ 65535 then
      .ok {
        mtu := mtu.toNat
        ssrc := wrapUnsigned 32 opts.ssrc
        payloadType := wrapUnsigned 7 opts.payloadType
        seq := (opts.initialSequenceNumber.map (wrapUnsigned 16)).getD random
        mtu_range := by omega
        payload_type_range := wrap_unsigned_lt 7 opts.payloadType
        seq_range := by
          cases opts.initialSequenceNumber with
          | none => exact random.isLt
          | some initial => exact wrap_unsigned_lt 16 initial }
    else .error s!"{name}: opts.mtu must be between 100 and 65535"

/-- `packetize` hands out bare buffers, `packetizeWithMeta` what they were built from too. -/
inductive Packet where
  | buffer (bytes : Bytes)
  | descriptor (bytes : Bytes) (sequenceNumber timestamp : Nat) (marker : Bool)
  deriving DecidableEq, Repr

def Packet.bytes : Packet → Bytes
  | .buffer bytes => bytes
  | .descriptor bytes _ _ _ => bytes

namespace Packetizer

def header (self : Packetizer) (rtpTimestamp : Nat) (marker : Bool) : Bytes :=
  byteAt (rtpVersion <<< 6) 0 ::
    byteAt ((if marker then 0x80 else 0) ||| (self.payloadType &&& 0x7F)) 0 ::
    (encodeBE 2 self.seq ++ encodeBE 4 rtpTimestamp ++ encodeBE 4 self.ssrc)

def advance (self : Packetizer) : Packetizer :=
  { self with
    seq := (self.seq + 1) % 65536
    seq_range := Nat.mod_lt _ (by decide) }

def finish (self : Packetizer) (bytes : Bytes) (rtpTimestamp : Nat) (marker withMeta : Bool) :
    Packet × Packetizer :=
  (if withMeta then .descriptor bytes self.seq rtpTimestamp marker else .buffer bytes,
    self.advance)

def makePacket (self : Packetizer) (payload : Bytes) (rtpTimestamp : Nat)
    (marker withMeta : Bool) : Packet × Packetizer :=
  self.finish (self.header rtpTimestamp marker ++ payload) rtpTimestamp marker withMeta

def makePacketWithPrefix (self : Packetizer) (p0 p1 p2 p3 prefixLen : Nat) (data : Bytes)
    (dataStart dataLen rtpTimestamp : Nat) (marker withMeta : Bool) : Packet × Packetizer :=
  let inline := [byteAt p0 0, byteAt p1 0, byteAt p2 0, byteAt p3 0].take prefixLen
  self.finish
    (self.header rtpTimestamp marker ++ inline ++ (data.drop dataStart).take dataLen)
    rtpTimestamp marker withMeta

end Packetizer

/-- The rest of `chunk` that a packetizer reads; its `type` is informational. -/
structure Chunk where
  data : Option Bytes
  nalus : Option (List Bytes)
  /-- Microseconds. -/
  timestamp : Rat

/-- The types of the fields are the other checks of the source. -/
def validateChunk (name : String) (chunk : Chunk) : Except String Unit :=
  if chunk.data.isNone && chunk.nalus.isNone then
    .error s!"{name}.packetize: chunk.data (Buffer) is required"
  else .ok ()

/-- The data a packetizer reads; the check before it lets a chunk with units pass. -/
def Chunk.frame (chunk : Chunk) : Except String Bytes :=
  match chunk.data with
  | some data => .ok data
  | none => .error "Cannot read properties of undefined (reading 'length')"

theorem Chunk.accepted {chunk : Chunk} {data : Bytes} (carries : chunk.data = some data)
    (name : String) : validateChunk name chunk = .ok () ∧ chunk.frame = .ok data := by
  rw [validateChunk, Chunk.frame, carries]
  exact ⟨rfl, rfl⟩

def truncate (value : Rat) : Int := if 0 ≤ value then value.floor else value.ceil

/-- The remainder of `%`, which has the sign of the dividend. -/
def remainder (value : Rat) (modulus : Int) : Rat := value - modulus * truncate (value / modulus)

def usToRtp (us : Rat) (clockRate : Nat) : Nat :=
  let sec : Rat := (double (us / 1000000)).floor
  let rem := double (us - double (sec * 1000000))
  let ticks := double (double (remainder sec 4294967296 * clockRate) +
    double (double (rem * clockRate) / 1000000))
  wrapUnsigned 32 (truncate (remainder ticks 4294967296))

end RtpPacket.Rtp
