import RtpPacket.Lib.InsertionMap
import RtpPacket.Lib.Parity
import RtpPacket.Lib.Run
import RtpPacket.Lib.Word

/-!
# FlexFEC

The encoder closes a group of media packets with a FEC packet, which holds their parity
and a mask of their sequence numbers. The decoder rebuilds the one packet of a group
that is missing, again and again until no group is left with one missing.
-/

namespace RtpPacket.FlexFec

open ByteCodec Parity Run Word

set_option autoImplicit false

def fixedHdr : Nat := 12

def seqDiff (a b : Nat) : Nat := wrapUnsigned 16 (a - b)

/-- The recovery fields and the repair payload, while packets are mixed into them. -/
structure Recovery where
  xb0 : Nat
  xb1 : Nat
  xlen : Nat
  xts : Nat
  repair : Bytes
  deriving DecidableEq, Repr

namespace Recovery

def blank (length : Nat) : Recovery where
  xb0 := 0
  xb1 := 0
  xlen := 0
  xts := 0
  repair := List.replicate length 0

def mix (acc : Recovery) (b : Bytes) : Recovery where
  xb0 := acc.xb0 ^^^ ((b.getD 0 0).toNat &&& 0x3F)
  xb1 := acc.xb1 ^^^ (b.getD 1 0).toNat
  xlen := acc.xlen ^^^ (b.length - fixedHdr)
  xts := acc.xts ^^^ readBE 4 b 4
  repair := xorInto acc.repair (b.drop fixedHdr)

end Recovery

/-- A word with the bits of `count` numbers from `start` on or-ed in, the first uppermost. -/
def orBits (bit : Nat → Bool) (start count word : Nat) : Nat :=
  (List.range count).foldl (fun v i => v ||| (bit (start + i)).toNat <<< (count - 1 - i)) word

def setBits (top count word : Nat) : List Nat :=
  (List.range count).filter fun i => word &&& 1 <<< (top - i) ≠ 0

/-- The mask chunks; the first bit of a chunk tells whether another one follows. -/
def maskChunks (bit : Nat → Bool) (maskBytes : Nat) : Bytes :=
  if maskBytes = 2 then encodeBE 2 (orBits bit 0 15 0)
  else
    encodeBE 2 (orBits bit 0 15 0x8000) ++
      if maskBytes = 6 then encodeBE 4 (orBits bit 15 31 0)
      else
        encodeBE 4 (orBits bit 15 31 0x80000000) ++ encodeBE 4 (orBits bit 46 32 0) ++
          encodeBE 4 (orBits bit 78 31 0 <<< 1)

def maskBytesFor (maskBits : Nat) : Nat :=
  if maskBits ≤ 15 then 2 else if maskBits ≤ 46 then 6 else 14

structure Member where
  seq : Nat
  buf : Bytes
  seq_eq : seq = readBE 2 buf 2
  long : fixedHdr ≤ buf.length

structure EncoderOptions where
  ssrc : Option Int
  payloadType : Option Int
  protectedSsrc : Option Int
  groupSize : Option Int
  initialSequenceNumber : Option Int

structure FlexFecEncoder where
  ssrc : Nat
  pt : Nat
  protectedSsrc : Nat
  groupSize : Nat
  seq : Nat
  group : List Member
  protected_ssrc_range : protectedSsrc < 2 ^ 32

namespace FlexFecEncoder

def clampGroupSize (n : Int) : Nat := (min 109 (max 1 n)).toNat

def new (random : Fin 0x10000) (opts : EncoderOptions) : Except String FlexFecEncoder :=
  match opts.ssrc, opts.payloadType, opts.protectedSsrc with
  | some ssrc, some payloadType, some protectedSsrc =>
      .ok {
        ssrc := wrapUnsigned 32 ssrc
        pt := wrapUnsigned 7 payloadType
        protectedSsrc := wrapUnsigned 32 protectedSsrc
        groupSize := clampGroupSize (match opts.groupSize with
          | none | some 0 => 4
          | some size => size)
        seq := (opts.initialSequenceNumber.map (wrapUnsigned 16)).getD random
        group := []
        protected_ssrc_range := wrap_unsigned_lt 32 protectedSsrc }
  | _, _, _ => .error "FlexFecEncoder: ssrc, payloadType, protectedSsrc required"

def setGroupSize (self : FlexFecEncoder) (n : Int) : FlexFecEncoder :=
  { self with groupSize := clampGroupSize (toInt32 n) }

end FlexFecEncoder

def maxLen (group : List Member) : Nat :=
  group.foldl (fun longest m => max longest (m.buf.length - fixedHdr)) 0

def offsets (group : List Member) (snBase : Nat) : List Nat :=
  group.map fun m => seqDiff m.seq snBase

def maskBits (offsets : List Nat) : Nat := offsets.foldl (fun bits d => max bits (d + 1)) 0

def parity (group : List Member) : Recovery :=
  group.foldl (fun acc m => acc.mix m.buf) (Recovery.blank (maxLen group))

/-- Offsets past the bit array are dropped when they are set in it. -/
def maskBit (offsets : List Nat) (j : Nat) : Bool := j < 109 && j ∈ offsets

def fecPayload (protectedSsrc : Nat) (group : List Member) (some : group ≠ []) : Bytes :=
  let snBase := (group.head some).seq
  let recovery := parity group
  let spread := offsets group snBase
  [byteAt (recovery.xb0 &&& 0x3F) 0, byteAt recovery.xb1 0] ++
    encodeBE 2 (recovery.xlen &&& 0xFFFF) ++ encodeBE 4 recovery.xts ++ [1, 0, 0, 0] ++
    encodeBE 4 protectedSsrc ++ encodeBE 2 snBase ++
    maskChunks (maskBit spread) (maskBytesFor (maskBits spread)) ++ recovery.repair

namespace FlexFecEncoder

def buildFec (self : FlexFecEncoder) (group : List Member) (some : group ≠ []) :
    FlexFecEncoder × Bytes :=
  ({ self with
      group := []
      seq := (self.seq + 1) % 0x10000 },
    [0x80, byteAt (self.pt &&& 0x7F) 0] ++ encodeBE 2 self.seq ++
      encodeBE 4 (readBE 4 (group.getLast some).buf 4) ++ encodeBE 4 self.ssrc ++
      fecPayload self.protectedSsrc group some)

def protect (self : FlexFecEncoder) (buf : Bytes) : FlexFecEncoder × List Bytes :=
  if long : buf.length < fixedHdr then (self, [])
  else if readBE 4 buf 8 ≠ self.protectedSsrc then (self, [])
  else
    let group := self.group ++ [⟨readBE 2 buf 2, buf, rfl, Nat.le_of_not_lt long⟩]
    if group.length ≥ self.groupSize then
      let built := self.buildFec group (by simp [group])
      (built.1, [built.2])
    else ({ self with group := group }, [])

def flush (self : FlexFecEncoder) : FlexFecEncoder × List Bytes :=
  if some : self.group = [] then (self, [])
  else
    let built := self.buildFec self.group some
    (built.1, [built.2])

def close (self : FlexFecEncoder) : FlexFecEncoder := { self with group := [] }

end FlexFecEncoder

inductive EncoderEvent where
  | protect (buf : Bytes)
  | flush
  | setGroupSize (n : Int)
  deriving DecidableEq, Repr

namespace FlexFecEncoder

def step (self : FlexFecEncoder) : EncoderEvent → FlexFecEncoder × List Bytes
  | .protect buf => self.protect buf
  | .flush => self.flush
  | .setGroupSize n => (self.setGroupSize n, [])

def closing (self : FlexFecEncoder) : EncoderEvent → List Member
  | .protect buf =>
      if long : buf.length < fixedHdr then []
      else if readBE 4 buf 8 ≠ self.protectedSsrc then []
      else
        let group := self.group ++ [⟨readBE 2 buf 2, buf, rfl, Nat.le_of_not_lt long⟩]
        if group.length ≥ self.groupSize then group else []
  | .flush => self.group
  | .setGroupSize _ => []

end FlexFecEncoder

structure Fec extends Recovery where
  ssrc : Nat
  snBase : Nat
  seqs : List Nat
  deriving DecidableEq, Repr

/-- The end of the parser: the offsets listed in the mask and where the repair bytes start. -/
def finishFec (p : Bytes) (listed : List Nat) (o : Nat) : Option Fec :=
  let snBase := readBE 2 p 16
  if listed.isEmpty then none
  else
    some {
      ssrc := readBE 4 p 12
      snBase := snBase
      seqs := listed.map fun i => (snBase + i) % 0x10000
      xb0 := (p.getD 0 0).toNat &&& 0x3F
      xb1 := (p.getD 1 0).toNat
      xlen := readBE 2 p 2
      xts := readBE 4 p 4
      repair := p.drop o }

def parseFec (buf : Bytes) : Option Fec :=
  if buf.length < fixedHdr + 20 then none
  else
    let p := buf.drop fixedHdr
    if (p.getD 0 0).toNat &&& 0xC0 ≠ 0 then none
    else if (p.getD 8 0).toNat ≠ 1 then none
    else if p.length < 20 then none
    else
      let c1 := readBE 2 p 18
      let first := setBits 14 15 c1
      if c1 &&& 0x8000 = 0 then finishFec p first 20
      else if p.length < 24 then none
      else
        let c2 := readBE 4 p 20
        let second := (setBits 30 31 c2).map (15 + ·)
        if c2 &&& 0x80000000 = 0 then finishFec p (first ++ second) 24
        else if p.length < 32 then none
        else
          let hi := readBE 4 p 24
          let lo := readBE 4 p 28
          finishFec p (first ++ second ++ (setBits 31 32 hi).map (46 + ·) ++
            (setBits 31 31 lo).map (78 + ·)) 32

structure FlexFecDecoder where
  win : Nat
  /-- `_media`, by sequence number. -/
  media : InsertionMap Nat Bytes
  /-- `_fec`, oldest first. -/
  fec : List Fec

inductive Attempt where
  /-- Nothing is missing. -/
  | satisfied
  | recovered (packet : Bytes)
  /-- Not yet, or never. -/
  | blocked
  deriving DecidableEq, Repr

def maxFec : Nat := 64

namespace FlexFecDecoder

def new (windowSize : Option Nat) : FlexFecDecoder where
  win := match windowSize with
    | none | some 0 => 256
    | some size => size
  media := .empty
  fec := []

/-- The packet that the parity of a group holds once the others are mixed in. -/
def rebuild (f : Fec) (missing : Nat) (have_ : List Bytes) : Attempt :=
  let rest := have_.foldl Recovery.mix f.toRecovery
  let recLen := rest.xlen &&& 0xFFFF
  if recLen > rest.repair.length then .blocked
  else
    .recovered ([byteAt (0x80 ||| (rest.xb0 &&& 0x3F)) 0, byteAt rest.xb1 0] ++
      encodeBE 2 missing ++ encodeBE 4 rest.xts ++ encodeBE 4 f.ssrc ++ rest.repair.take recLen)

def tryRecover (self : FlexFecDecoder) (f : Fec) : Attempt :=
  match f.seqs.filter fun seq => (self.media.get seq).isNone with
  | [] => .satisfied
  | [missing] => rebuild f missing (f.seqs.filterMap self.media.get)
  | _ => .blocked

/-- The loop with its index at `i - 1`; a recovery starts it over. -/
def recoverFrom (self : FlexFecDecoder) : Nat → FlexFecDecoder × List Bytes
  | 0 => (self, [])
  | i + 1 =>
      if inside : i < self.fec.length then
        match self.tryRecover self.fec[i] with
        | .blocked => self.recoverFrom i
        | .satisfied => recoverFrom { self with fec := self.fec.eraseIdx i } i
        | .recovered rec =>
            let later := recoverFrom
              { self with
                media := self.media.set (readBE 2 rec 2) rec
                fec := self.fec.eraseIdx i } (self.fec.eraseIdx i).length
            (later.1, rec :: later.2)
      else self.recoverFrom i
termination_by i => (self.fec.length, i)
decreasing_by
  · exact Prod.Lex.right _ (Nat.lt_succ_self i)
  · exact Prod.Lex.left _ _ (by simp only [List.length_eraseIdx_of_lt inside]; omega)
  · exact Prod.Lex.left _ _ (by simp only [List.length_eraseIdx_of_lt inside]; omega)
  · exact Prod.Lex.right _ (Nat.lt_succ_self i)

def tryRecoverAll (self : FlexFecDecoder) : FlexFecDecoder × List Bytes :=
  self.recoverFrom self.fec.length

def addMediaPacket (self : FlexFecDecoder) (buf : Bytes) : FlexFecDecoder × List Bytes :=
  if buf.length < fixedHdr then (self, [])
  else
    tryRecoverAll { self with media := (self.media.set (readBE 2 buf 2) buf).evict self.win }

def addFecPacket (self : FlexFecDecoder) (buf : Bytes) : FlexFecDecoder × List Bytes :=
  match parseFec buf with
  | none => (self, [])
  | some f =>
      let fec := self.fec ++ [f]
      tryRecoverAll { self with fec := fec.drop (fec.length - maxFec) }

def reset (self : FlexFecDecoder) : FlexFecDecoder := { self with media := .empty, fec := [] }

end FlexFecDecoder

end RtpPacket.FlexFec
