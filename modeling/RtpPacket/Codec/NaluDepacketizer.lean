import RtpPacket.Codec.AnnexB
import RtpPacket.Rtp.Depacketizer

/-!
# Collecting NAL units

What the depacketizers of H.264 and H.265 share: units and fragments are collected
until a packet with the marker hands the access unit out. The codecs differ in how
they read a payload and in which units make a keyframe.
-/

namespace RtpPacket.Codec

open ByteCodec Rtp

set_option autoImplicit false

structure NaluDepacketizer where
  callbacks : Callbacks
  nalus : List Bytes
  /-- The pieces of the unit in flight, its rebuilt header first. -/
  fuFragments : List Bytes
  sawIDR : Bool
  deriving DecidableEq, Repr

namespace NaluDepacketizer

def new (name : String) (opts : DepacketizerOptions) : Except String NaluDepacketizer := do
  let callbacks ← initDepacketizer name opts
  return { callbacks := callbacks, nalus := [], fuFragments := [], sawIDR := false }

def collect (isIDR : Bytes → Bool) (self : NaluDepacketizer) (nalu : Bytes) : NaluDepacketizer :=
  { self with
    nalus := self.nalus ++ [nalu]
    sawIDR := self.sawIDR || isIDR nalu }

theorem foldl_collect (isIDR : Bytes → Bool) (nalus : List Bytes) (self : NaluDepacketizer) :
    nalus.foldl (collect isIDR) self =
      { self with
        nalus := self.nalus ++ nalus
        sawIDR := self.sawIDR || nalus.any isIDR } := by
  induction nalus generalizing self with
  | nil => simp
  | cons nalu rest ih => simp [ih, collect, Bool.or_assoc]

def finish (self : NaluDepacketizer) (timestamp : Nat) (marker : Bool) :
    NaluDepacketizer × List DepacketizerEvent :=
  if marker && !self.nalus.isEmpty then
    ({ self with nalus := [], sawIDR := false },
      [.output
        { data := joinAnnexB self.nalus
          timestamp := timestamp
          type := if self.sawIDR then .key else .delta }])
  else (self, [])

/-- A fragment: the first brings the header, and none counts before a first one. -/
def takeFragment (isIDR : Bytes → Bool) (lostStart : String) (self : NaluDepacketizer)
    (startBit endBit : Bool) (header body : Bytes) (timestamp : Nat) (marker : Bool) :
    NaluDepacketizer × List DepacketizerEvent :=
  if !startBit && self.fuFragments.isEmpty then (self, self.callbacks.emitError lostStart)
  else
    let fragments := (if startBit then [header] else self.fuFragments) ++ [body]
    if endBit then
      finish (collect isIDR { self with fuFragments := [] } fragments.flatten) timestamp marker
    else finish { self with fuFragments := fragments } timestamp marker

/-- The units behind 2-byte lengths, and whether the last one is cut short. -/
def aggregatedUnits : Bytes → List Bytes × Bool
  | high :: low :: rest =>
      let size := decodeBE [high, low]
      if size = 0 then aggregatedUnits rest
      else if rest.length < size then ([], true)
      else
        let later := aggregatedUnits (rest.drop size)
        (rest.take size :: later.1, later.2)
  | _ => ([], false)
termination_by bytes => bytes.length
decreasing_by
  all_goals simp only [List.length_cons, List.length_drop]
  all_goals omega

/-- The walk of `peekKeyframe` over the same units, up to the first that starts a keyframe. -/
def peekAggregated (startsIDR : Nat → Bytes → Bool) : Bytes → Bool
  | high :: low :: rest =>
      let size := decodeBE [high, low]
      if size = 0 then peekAggregated startsIDR rest
      else if rest.length < size then false
      else if startsIDR size rest then true
      else peekAggregated startsIDR (rest.drop size)
  | _ => false
termination_by bytes => bytes.length
decreasing_by
  all_goals simp only [List.length_cons, List.length_drop]
  all_goals omega

def takeAggregate (isIDR : Bytes → Bool) (truncated : String) (self : NaluDepacketizer)
    (units : Bytes) (timestamp : Nat) (marker : Bool) :
    NaluDepacketizer × List DepacketizerEvent :=
  let split := aggregatedUnits units
  let finished := finish (split.1.foldl (collect isIDR) self) timestamp marker
  (finished.1, (if split.2 then self.callbacks.emitError truncated else []) ++ finished.2)

def reset (self : NaluDepacketizer) : NaluDepacketizer :=
  { self with nalus := [], fuFragments := [], sawIDR := false }

def close (self : NaluDepacketizer) : NaluDepacketizer :=
  { self.reset with callbacks := { output := false, error := false } }

end NaluDepacketizer

end RtpPacket.Codec
