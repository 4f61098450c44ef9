import RtpPacket.Lib.Run
import RtpPacket.Lib.SerialNumber
import RtpPacket.Rtp.Depacketizer

/-!
# What a packetizer sends and what arrives

A codec decides the payloads, their timestamp and the marker; the base numbers the
packets. So a codec's output is described by a list of `Outgoing`, and this module
says what parsing that output gives. A depacketizer reads nothing else of a packet,
so it can be run on the description.
-/

namespace RtpPacket.Rtp

open ByteCodec Word SerialNumber

set_option autoImplicit false

@[ext]
structure Outgoing where
  payload : Bytes
  timestamp : Nat
  marker : Bool
  deriving DecidableEq, Repr

namespace Packetizer

def sendAll (withMeta : Bool) : List Outgoing → Packetizer → List Packet × Packetizer
  | [], self => ([], self)
  | out :: rest, self =>
      let made := self.makePacket out.payload out.timestamp out.marker withMeta
      let later := sendAll withMeta rest made.2
      (made.1 :: later.1, later.2)

theorem send_all_append (withMeta : Bool) (first second : List Outgoing) (self : Packetizer) :
    sendAll withMeta (first ++ second) self =
      ((sendAll withMeta first self).1 ++
          (sendAll withMeta second (sendAll withMeta first self).2).1,
        (sendAll withMeta second (sendAll withMeta first self).2).2) := by
  induction first generalizing self with
  | nil => simp [sendAll]
  | cons out rest ih => simp [sendAll, ih]

theorem send_all_mtu (withMeta : Bool) (outs : List Outgoing) (self : Packetizer) :
    (sendAll withMeta outs self).2.mtu = self.mtu := by
  induction outs generalizing self with
  | nil => rfl
  | cons out rest ih => exact ih _

theorem send_all_seq (withMeta : Bool) (outs : List Outgoing) (self : Packetizer) :
    (sendAll withMeta outs self).2.seq = (self.seq + outs.length) % 65536 := by
  induction outs generalizing self with
  | nil => exact (Nat.mod_eq_of_lt self.seq_range).symm
  | cons out rest ih =>
      have next : (sendAll withMeta (out :: rest) self).2.seq =
          ((self.seq + 1) % 65536 + rest.length) % 65536 := ih self.advance
      rw [next, List.length_cons]
      omega

/-- A prefix written in place is the start of the payload. -/
theorem make_packet_with_prefix_eq (self : Packetizer) (p0 p1 p2 p3 prefixLen : Nat) (data : Bytes)
    (dataStart dataLen rtpTimestamp : Nat) (marker withMeta : Bool) :
    self.makePacketWithPrefix p0 p1 p2 p3 prefixLen data dataStart dataLen rtpTimestamp marker
        withMeta =
      self.makePacket
        ([byteAt p0 0, byteAt p1 0, byteAt p2 0, byteAt p3 0].take prefixLen ++
          (data.drop dataStart).take dataLen) rtpTimestamp marker withMeta := by
  rw [makePacketWithPrefix, makePacket]
  simp only [List.append_assoc]

def arrival (self : Packetizer) (out : Outgoing) : ParsedPacket where
  version := 2
  padding := false
  extension := false
  csrcCount := 0
  marker := out.marker
  payloadType := self.payloadType
  sequenceNumber := self.seq
  timestamp := out.timestamp % 2 ^ 32
  ssrc := self.ssrc % 2 ^ 32
  csrc := []
  payload := out.payload
  headerLength := 12
  extensions := none

theorem header_eq (self : Packetizer) (rtpTimestamp : Nat) (marker : Bool) :
    self.header rtpTimestamp marker =
      headerBytes false ((if marker then 128 else 0) + self.payloadType) self.seq rtpTimestamp
        self.ssrc [] := by
  have small := self.payload_type_range
  have kept : self.payloadType &&& 0x7F = self.payloadType := by
    rw [Nat.and_two_pow_sub_one_eq_mod _ 7]
    exact Nat.mod_eq_of_lt small
  have second : (if marker then 0x80 else 0) ||| self.payloadType =
      (if marker then 128 else 0) + self.payloadType := by
    cases marker with
    | false => simp
    | true => exact (Nat.two_pow_add_eq_or_of_lt (show self.payloadType < 2 ^ 7 from small) 1).symm
  rw [header, kept, second]
  simp [headerBytes, fixedHeader, encodeBE, rtpVersion]

theorem parse_make_packet (self : Packetizer) (out : Outgoing) (withMeta : Bool) :
    parse (self.makePacket out.payload out.timestamp out.marker withMeta).1.bytes =
      some (self.arrival out) := by
  have bytes : (self.makePacket out.payload out.timestamp out.marker withMeta).1.bytes =
      self.header out.timestamp out.marker ++ out.payload := by
    cases withMeta <;> rfl
  obtain ⟨second, markerBack, typeBack⟩ := second_byte_read out.marker self.payload_type_range
  have seqBack : self.seq % 2 ^ 16 = self.seq := Nat.mod_eq_of_lt self.seq_range
  rw [bytes, header_eq, parse_plain _ _ _ (by simp) second, markerBack, typeBack, seqBack]
  rfl

def arrivals : Packetizer → List Outgoing → List ParsedPacket
  | _, [] => []
  | self, out :: rest => self.arrival out :: arrivals self.advance rest

theorem parse_send_all (withMeta : Bool) (outs : List Outgoing) (self : Packetizer) :
    (sendAll withMeta outs self).1.map (fun packet => parse packet.bytes) =
      (arrivals self outs).map some := by
  induction outs generalizing self with
  | nil => rfl
  | cons out rest ih =>
      have first := parse_make_packet self out withMeta
      rw [sendAll, arrivals, List.map_cons, List.map_cons]
      exact congrArg₂ List.cons first (ih self.advance)

@[simp] theorem arrivals_length (self : Packetizer) (outs : List Outgoing) :
    (arrivals self outs).length = outs.length := by
  induction outs generalizing self with
  | nil => rfl
  | cons out rest ih => rw [arrivals, List.length_cons, ih, List.length_cons]

theorem arrivals_sequence_numbers (self : Packetizer) (outs : List Outgoing) :
    (arrivals self outs).map (·.sequenceNumber) = successive 65536 self.seq outs.length := by
  induction outs generalizing self with
  | nil => rfl
  | cons out rest ih =>
      rw [arrivals, List.map_cons, ih, List.length_cons, Nat.add_comm, successive_add,
        successive_one, Nat.mod_eq_of_lt self.seq_range]
      rfl

end Packetizer

def ParsedPacket.outgoing (packet : ParsedPacket) : Outgoing where
  payload := packet.payload
  timestamp := packet.timestamp
  marker := packet.marker

def Outgoing.packet (out : Outgoing) : ParsedPacket where
  version := 2
  padding := false
  extension := false
  csrcCount := 0
  marker := out.marker
  payloadType := 0
  sequenceNumber := 0
  timestamp := out.timestamp
  ssrc := 0
  csrc := []
  payload := out.payload
  headerLength := 12
  extensions := none

namespace Packetizer

theorem arrivals_outgoing (self : Packetizer) {outs : List Outgoing}
    (timestamps : ∀ out ∈ outs, out.timestamp < 2 ^ 32) :
    (arrivals self outs).map (·.outgoing) = outs := by
  induction outs generalizing self with
  | nil => rfl
  | cons out rest ih =>
      have kept := Nat.mod_eq_of_lt (timestamps out List.mem_cons_self)
      rw [arrivals, List.map_cons, ih _ fun other member =>
        timestamps other (List.mem_cons_of_mem _ member)]
      apply congrArg₂ List.cons
      · exact Outgoing.ext rfl kept rfl
      · rfl

end Packetizer

end RtpPacket.Rtp
