import RtpPacket.Lib.ByteCodec
import RtpPacket.Lib.Run
import RtpPacket.Lib.Word

/-!
# The forwarding rewriter

`forward` maps the numbering of whatever source is on to one outgoing stream by
subtracting an offset from sequence number and timestamp. The first packet and the
first one after `switchSource` fix the offsets; the others keep them.
-/

namespace RtpPacket.Forward

open ByteCodec Word Run

set_option autoImplicit false

def seqDelta (a b : Int) : Int := signedDelta 16 a b

def tsDelta (a b : Int) : Int := signedDelta 32 a b

structure ForwarderOptions where
  ssrc : Option Int
  payloadType : Option Int
  startSeq : Option Int
  startTs : Option Int

structure RtpForwarder where
  ssrc : Nat
  pt : Nat
  /-- The input less the offset is the output. -/
  seqOffset : Option Int
  tsOffset : Option Int
  startSeq : Nat
  startTs : Nat
  lastOutSeq : Option Nat
  lastOutTs : Option Nat
  pendingSwitch : Bool
  pendingTsJump : Nat
  forwarded : Nat
  ssrc_range : ssrc < 2 ^ 32
  pt_range : pt < 128
  start_seq_range : startSeq < 2 ^ 16
  start_ts_range : startTs < 2 ^ 32

theorem ssrc_lt (ssrc : Int) : wrapUnsigned 32 ssrc < 2 ^ 32 := wrap_unsigned_lt 32 ssrc

theorem payload_type_lt (payloadType : Int) : wrapUnsigned 7 payloadType < 128 :=
  wrap_unsigned_lt 7 payloadType

def initForwarder (randomSeq : Fin 0x10000) (randomTs : Fin 0xFFFFFFFF)
    (opts : ForwarderOptions) : Except String RtpForwarder :=
  match opts.ssrc, opts.payloadType with
  | some ssrc, some payloadType =>
      .ok {
        ssrc := wrapUnsigned 32 ssrc
        pt := wrapUnsigned 7 payloadType
        seqOffset := none
        tsOffset := none
        startSeq := (opts.startSeq.map (wrapUnsigned 16)).getD randomSeq
        startTs := (opts.startTs.map (wrapUnsigned 32)).getD randomTs
        lastOutSeq := none
        lastOutTs := none
        pendingSwitch := false
        pendingTsJump := 0
        forwarded := 0
        ssrc_range := ssrc_lt ssrc
        pt_range := payload_type_lt payloadType
        start_seq_range := by
          cases opts.startSeq with
          | none => exact randomSeq.isLt
          | some start => exact wrap_unsigned_lt 16 start
        start_ts_range := by
          cases opts.startTs with
          | none => exact Nat.lt_trans randomTs.isLt (by decide)
          | some start => exact wrap_unsigned_lt 32 start }
  | _, _ => .error "RtpForwarder: ssrc and payloadType are required"

def seqOf (pkt : Bytes) : Nat := readBE 2 pkt 2

def tsOf (pkt : Bytes) : Nat := readBE 4 pkt 4

def Accepted (pkt : Bytes) : Prop := 12 ≤ pkt.length ∧ readBE 1 pkt 0 / 64 % 4 = 2

instance (pkt : Bytes) : Decidable (Accepted pkt) := inferInstanceAs (Decidable (_ ∧ _))

namespace RtpForwarder

/-- Nothing emitted yet: the first packet anchors the stream anyway. -/
def switchSource (self : RtpForwarder) (tsJump : Option Int) : RtpForwarder :=
  match self.lastOutSeq with
  | none => self
  | some _ =>
      { self with
        pendingSwitch := true
        pendingTsJump := wrapUnsigned 32 (tsJump.getD 0) }

def rebase (self : RtpForwarder) (inSeq inTs : Nat) : RtpForwarder :=
  match self.seqOffset with
  | none =>
      { self with
        seqOffset := some (seqDelta inSeq self.startSeq)
        tsOffset := some (toInt32 (tsDelta inTs self.startTs)) }
  | some _ =>
      if self.pendingSwitch then
        let wantSeq := wrapUnsigned 16 (self.lastOutSeq.getD 0 + 1)
        let wantTs := wrapUnsigned 32 (self.lastOutTs.getD 0 + self.pendingTsJump)
        { self with
          pendingSwitch := false
          seqOffset := some (seqDelta inSeq wantSeq)
          tsOffset := some (toInt32 (tsDelta inTs wantTs)) }
      else self

def outSeq (self : RtpForwarder) (inSeq : Nat) : Nat :=
  wrapUnsigned 16 (inSeq - self.seqOffset.getD 0)

def outTs (self : RtpForwarder) (inTs : Nat) : Nat :=
  wrapUnsigned 32 (inTs - self.tsOffset.getD 0)

/-- The copy with bytes 1 to 11 patched; the marker bit stays. -/
def patch (self : RtpForwarder) (pkt : Bytes) (outSeq outTs : Nat) : Bytes :=
  pkt.take 1 ++ (encodeBE 1 ((readBE 1 pkt 1 &&& 0x80) ||| self.pt) ++
    (encodeBE 2 outSeq ++ (encodeBE 4 outTs ++ (encodeBE 4 self.ssrc ++ pkt.drop 12))))

/-- The furthest emitted point, which a late packet does not move. -/
def track (self : RtpForwarder) (outSeq outTs : Nat) : RtpForwarder :=
  let further := match self.lastOutSeq with
    | none => true
    | some lastOutSeq => decide (seqDelta outSeq lastOutSeq > 0)
  { self with
    lastOutSeq := if further then some outSeq else self.lastOutSeq
    lastOutTs := if further then some outTs else self.lastOutTs
    forwarded := self.forwarded + 1 }

def forward (self : RtpForwarder) (pkt : Bytes) : RtpForwarder × Option Bytes :=
  if Accepted pkt then
    let based := self.rebase (seqOf pkt) (tsOf pkt)
    let outSeq := based.outSeq (seqOf pkt)
    let outTs := based.outTs (tsOf pkt)
    (based.track outSeq outTs, some (based.patch pkt outSeq outTs))
  else (self, none)

structure ForwarderState where
  ssrc : Nat
  payloadType : Nat
  forwarded : Nat
  lastOutputSeq : Option Nat
  lastOutputTimestamp : Option Nat
  deriving DecidableEq, Repr

def getState (self : RtpForwarder) : ForwarderState where
  ssrc := self.ssrc
  payloadType := self.pt
  forwarded := self.forwarded
  lastOutputSeq := self.lastOutSeq
  lastOutputTimestamp := self.lastOutTs

end RtpForwarder

inductive Action where
  | forward (pkt : Bytes)
  | switchSource (tsJump : Option Int)

def step (self : RtpForwarder) : Action → RtpForwarder × List Bytes
  | .forward pkt => ((self.forward pkt).1, (self.forward pkt).2.toList)
  | .switchSource tsJump => (self.switchSource tsJump, [])

/-- The output is the input but for the payload type, the numbers and the source in
bytes 1 to 11. -/
structure Patched (fwd : RtpForwarder) (pkt output : Bytes) : Prop where
  same_length : output.length = pkt.length
  first_byte : output.take 1 = pkt.take 1
  marker : readBE 1 output 1 / 128 = readBE 1 pkt 1 / 128
  payload_type : readBE 1 output 1 % 128 = fwd.pt
  source : readBE 4 output 8 = fwd.ssrc
  rest : output.drop 12 = pkt.drop 12

theorem read_byte_lt (bytes : Bytes) (offset : Nat) : readBE 1 bytes offset < 256 := by
  have bounded := decode_be_lt ((bytes.drop offset).take 1)
  have short : ((bytes.drop offset).take 1).length ≤ 1 := List.length_take_le 1 _
  have power := Nat.pow_le_pow_right (show 0 < 256 by decide) short
  rw [readBE]
  omega

theorem marker_or_type {byte payloadType : Nat} (isByte : byte < 256) (isType : payloadType < 128) :
    (byte &&& 0x80) ||| payloadType = 2 ^ 7 * (byte / 128) + payloadType := by
  have marker : byte &&& 0x80 = 2 ^ 7 * (byte / 128) := by
    interval_cases byte <;> rfl
  rw [marker, Nat.two_pow_add_eq_or_of_lt isType]

theorem Accepted.first {pkt : Bytes} (accepted : Accepted pkt) : (pkt.take 1).length = 1 := by
  have long := accepted.1
  simp
  omega

namespace RtpForwarder

variable {fwd : RtpForwarder} {pkt : Bytes}

theorem seq_of_patch (fwd : RtpForwarder) (accepted : Accepted pkt) {outSeq : Nat}
    (small : outSeq < 2 ^ 16) (outTs : Nat) : seqOf (fwd.patch pkt outSeq outTs) = outSeq := by
  unfold seqOf patch
  rw [show 2 = 1 + (1 + 0) by rfl, read_be_past accepted.first, read_be_skip, read_be_encode]
  exact Nat.mod_eq_of_lt small

theorem ts_of_patch (fwd : RtpForwarder) (accepted : Accepted pkt) (outSeq : Nat) {outTs : Nat}
    (small : outTs < 2 ^ 32) : tsOf (fwd.patch pkt outSeq outTs) = outTs := by
  unfold tsOf patch
  rw [show 4 = 1 + (1 + (2 + 0)) by rfl, read_be_past accepted.first, read_be_skip, read_be_skip,
    read_be_encode]
  exact Nat.mod_eq_of_lt small

theorem ssrc_of_patch (fwd : RtpForwarder) (accepted : Accepted pkt) (outSeq outTs : Nat) :
    readBE 4 (fwd.patch pkt outSeq outTs) 8 = fwd.ssrc := by
  unfold patch
  rw [show 8 = 1 + (1 + (2 + (4 + 0))) by rfl, read_be_past accepted.first, read_be_skip,
    read_be_skip, read_be_skip, read_be_encode]
  exact Nat.mod_eq_of_lt fwd.ssrc_range

theorem type_byte_of_patch (fwd : RtpForwarder) (accepted : Accepted pkt) (outSeq outTs : Nat) :
    readBE 1 (fwd.patch pkt outSeq outTs) 1 = 2 ^ 7 * (readBE 1 pkt 1 / 128) + fwd.pt := by
  have isByte := read_byte_lt pkt 1
  have isType := fwd.pt_range
  unfold patch
  rw [marker_or_type isByte isType]
  apply (read_be_past accepted.first _ 0).trans
  rw [read_be_encode]
  omega

theorem patch_patched (fwd : RtpForwarder) (accepted : Accepted pkt) (outSeq outTs : Nat) :
    Patched fwd pkt (fwd.patch pkt outSeq outTs) := by
  have typeByte := fwd.type_byte_of_patch accepted outSeq outTs
  have isType := fwd.pt_range
  constructor
  · have long := accepted.1
    simp [patch]
    omega
  · exact List.take_left' accepted.first
  · rw [typeByte]
    omega
  · rw [typeByte]
    omega
  · exact fwd.ssrc_of_patch accepted outSeq outTs
  · unfold patch
    rw [← List.append_assoc, ← List.append_assoc, ← List.append_assoc, ← List.append_assoc]
    apply List.drop_left'
    simp [accepted.first]

structure Keeps (fwd next : RtpForwarder) : Prop where
  ssrc : next.ssrc = fwd.ssrc
  pt : next.pt = fwd.pt
  start_seq : next.startSeq = fwd.startSeq
  forwarded : next.forwarded = fwd.forwarded
  last_seq : next.lastOutSeq = fwd.lastOutSeq
  last_ts : next.lastOutTs = fwd.lastOutTs

theorem rebase_keeps (fwd : RtpForwarder) (inSeq inTs : Nat) :
    fwd.Keeps (fwd.rebase inSeq inTs) := by
  unfold rebase
  cases fwd.seqOffset with
  | none => exact ⟨rfl, rfl, rfl, rfl, rfl, rfl⟩
  | some offset => cases fwd.pendingSwitch <;> exact ⟨rfl, rfl, rfl, rfl, rfl, rfl⟩

theorem switch_source_keeps (fwd : RtpForwarder) (tsJump : Option Int) :
    fwd.Keeps (fwd.switchSource tsJump) := by
  unfold switchSource
  split <;> exact ⟨rfl, rfl, rfl, rfl, rfl, rfl⟩

theorem switch_source_offset (fwd : RtpForwarder) (tsJump : Option Int) :
    (fwd.switchSource tsJump).seqOffset = fwd.seqOffset := by
  unfold switchSource
  split <;> rfl

theorem switch_source_pending (started : fwd.lastOutSeq.isSome) (tsJump : Option Int) :
    (fwd.switchSource tsJump).pendingSwitch = true ∧
      (fwd.switchSource tsJump).pendingTsJump = wrapUnsigned 32 (tsJump.getD 0) := by
  unfold switchSource
  split
  · next none =>
      rw [none] at started
      cases started
  · exact ⟨rfl, rfl⟩

theorem rebase_fresh (fresh : fwd.seqOffset = none) (inSeq inTs : Nat) :
    (fwd.rebase inSeq inTs).outSeq inSeq = fwd.startSeq ∧
      (fwd.rebase inSeq inTs).outTs inTs = fwd.startTs := by
  simp only [rebase, fresh, outSeq, outTs, Option.getD_some, seqDelta, tsDelta,
    to_int32_signed_delta]
  exact ⟨wrap_sub_signed_delta fwd.start_seq_range inSeq,
    wrap_sub_signed_delta fwd.start_ts_range inTs⟩

theorem rebase_pending (started : fwd.seqOffset.isSome) (pending : fwd.pendingSwitch = true)
    (inSeq inTs : Nat) :
    (fwd.rebase inSeq inTs).outSeq inSeq = wrapUnsigned 16 (fwd.lastOutSeq.getD 0 + 1) ∧
      (fwd.rebase inSeq inTs).outTs inTs =
        wrapUnsigned 32 (fwd.lastOutTs.getD 0 + fwd.pendingTsJump) := by
  obtain ⟨offset, found⟩ := Option.isSome_iff_exists.mp started
  simp only [rebase, found, if_pos pending, outSeq, outTs, Option.getD_some, seqDelta, tsDelta,
    to_int32_signed_delta]
  exact ⟨wrap_sub_signed_delta (wrap_unsigned_lt 16 _) inSeq,
    wrap_sub_signed_delta (wrap_unsigned_lt 32 _) inTs⟩

theorem rebase_kept (started : fwd.seqOffset.isSome) (settled : fwd.pendingSwitch = false)
    (inSeq inTs : Nat) : fwd.rebase inSeq inTs = fwd := by
  obtain ⟨offset, found⟩ := Option.isSome_iff_exists.mp started
  simp only [rebase, found, settled, if_neg Bool.false_ne_true]

structure Fresh (fwd : RtpForwarder) : Prop where
  seq_offset : fwd.seqOffset = none
  last_seq : fwd.lastOutSeq = none
  last_ts : fwd.lastOutTs = none
  settled : fwd.pendingSwitch = false

/-- What holds between calls: the first packet sets the offsets and the furthest point, and
a switch is pending only after it. -/
structure WellFormed (fwd : RtpForwarder) : Prop where
  last_seq : fwd.lastOutSeq.isSome = fwd.seqOffset.isSome
  pending : fwd.pendingSwitch = true → fwd.seqOffset.isSome = true

theorem Fresh.well_formed (fresh : fwd.Fresh) : fwd.WellFormed where
  last_seq := by
    rw [fresh.last_seq, fresh.seq_offset]
    rfl
  pending switched := by
    rw [fresh.settled] at switched
    cases switched

theorem rebase_settles (wellFormed : fwd.WellFormed) (inSeq inTs : Nat) :
    (fwd.rebase inSeq inTs).seqOffset.isSome = true ∧
      (fwd.rebase inSeq inTs).pendingSwitch = false := by
  have pending := wellFormed.pending
  unfold rebase
  cases found : fwd.seqOffset with
  | none => simpa [found] using pending
  | some offset =>
      cases switched : fwd.pendingSwitch with
      | false => simp [found, switched]
      | true => simp

/-- What `forward` does with a packet it does not refuse. -/
structure Forwards (fwd : RtpForwarder) (pkt output : Bytes) : Prop where
  accepted : Accepted pkt
  patched : Patched fwd pkt output
  seq : seqOf output = (fwd.rebase (seqOf pkt) (tsOf pkt)).outSeq (seqOf pkt)
  ts : tsOf output = (fwd.rebase (seqOf pkt) (tsOf pkt)).outTs (tsOf pkt)
  next : (fwd.forward pkt).1 =
    (fwd.rebase (seqOf pkt) (tsOf pkt)).track (seqOf output) (tsOf output)

theorem forward_accepted (fwd : RtpForwarder) (accepted : Accepted pkt) :
    ∃ output, (fwd.forward pkt).2 = some output ∧ fwd.Forwards pkt output := by
  have kept := fwd.rebase_keeps (seqOf pkt) (tsOf pkt)
  set based := fwd.rebase (seqOf pkt) (tsOf pkt) with basedEq
  have taken : fwd.forward pkt =
      (based.track (based.outSeq (seqOf pkt)) (based.outTs (tsOf pkt)),
        some (based.patch pkt (based.outSeq (seqOf pkt)) (based.outTs (tsOf pkt)))) :=
    if_pos accepted
  have seqSmall : based.outSeq (seqOf pkt) < 2 ^ 16 := wrap_unsigned_lt 16 _
  have tsSmall : based.outTs (tsOf pkt) < 2 ^ 32 := wrap_unsigned_lt 32 _
  have seq := seq_of_patch based accepted seqSmall (based.outTs (tsOf pkt))
  have ts := ts_of_patch based accepted (based.outSeq (seqOf pkt)) tsSmall
  have patched := patch_patched based accepted (based.outSeq (seqOf pkt)) (based.outTs (tsOf pkt))
  rw [taken]
  refine ⟨_, rfl, accepted, { patched with
    payload_type := kept.pt ▸ patched.payload_type
    source := kept.ssrc ▸ patched.source }, seq, ts, ?_⟩
  rw [taken]
  exact congrArg₂ based.track seq.symm ts.symm

theorem forward_refused (fwd : RtpForwarder) (refused : ¬ Accepted pkt) :
    fwd.forward pkt = (fwd, none) := if_neg refused

theorem forward_some {output : Bytes} (answered : (fwd.forward pkt).2 = some output) :
    fwd.Forwards pkt output := by
  by_cases accepted : Accepted pkt
  · obtain ⟨other, same, forwards⟩ := fwd.forward_accepted accepted
    rw [same] at answered
    cases answered
    exact forwards
  · rw [fwd.forward_refused accepted] at answered
    cases answered

theorem track_further {outSeq outTs : Nat}
    (further : ∀ last, fwd.lastOutSeq = some last → 0 < seqDelta outSeq last) :
    (fwd.track outSeq outTs).lastOutSeq = some outSeq ∧
      (fwd.track outSeq outTs).lastOutTs = some outTs := by
  unfold track
  cases found : fwd.lastOutSeq with
  | none => exact ⟨rfl, rfl⟩
  | some last => simp [further last found]

theorem track_late {outSeq outTs last : Nat} (found : fwd.lastOutSeq = some last)
    (late : ¬ 0 < seqDelta outSeq last) :
    (fwd.track outSeq outTs).lastOutSeq = some last ∧
      (fwd.track outSeq outTs).lastOutTs = fwd.lastOutTs := by
  simp [track, found, late]

theorem track_started (fwd : RtpForwarder) (outSeq outTs : Nat) :
    (fwd.track outSeq outTs).lastOutSeq.isSome = true := by
  unfold track
  cases fwd.lastOutSeq with
  | none => rfl
  | some last =>
      simp only
      split <;> rfl

theorem switch_source_well_formed (wellFormed : fwd.WellFormed) (tsJump : Option Int) :
    (fwd.switchSource tsJump).WellFormed := by
  have started := wellFormed.last_seq
  unfold switchSource
  cases found : fwd.lastOutSeq with
  | none => exact wellFormed
  | some last =>
      rw [found] at started
      exact ⟨started, fun _ => started.symm⟩

theorem forward_well_formed (wellFormed : fwd.WellFormed) (pkt : Bytes) :
    (fwd.forward pkt).1.WellFormed := by
  by_cases accepted : Accepted pkt
  · obtain ⟨output, -, forwards⟩ := fwd.forward_accepted accepted
    have settled := rebase_settles wellFormed (seqOf pkt) (tsOf pkt)
    rw [forwards.next]
    exact ⟨(track_started _ _ _).trans settled.1.symm, fun _ => settled.1⟩
  · rwa [fwd.forward_refused accepted]

end RtpForwarder

theorem init_fresh {randomSeq : Fin 0x10000} {randomTs : Fin 0xFFFFFFFF}
    {opts : ForwarderOptions} {fwd : RtpForwarder}
    (created : initForwarder randomSeq randomTs opts = .ok fwd) : fwd.Fresh := by
  unfold initForwarder at created
  split at created
  · cases created
    exact ⟨rfl, rfl, rfl, rfl⟩
  · cases created

end RtpPacket.Forward
