import RtpPacket.Codec.Dtmf
import RtpPacket.Lib.Rounding
import RtpPacket.Lib.Run
import RtpPacket.Lib.SerialNumber

/-!
# Key presses over a lossy channel

The packets of a press share its timestamp and count the elapsed time up, and all three
end packets say the same. So whichever of the three arrive, the receiver hands the press
out once, as long as the next press has another timestamp.
-/

namespace RtpPacket.Codec

open ByteCodec Word Rtp Run Rounding SerialNumber

set_option autoImplicit false

structure Report where
  isEnd : Bool
  volume : Int
  elapsed : Int

def Report.payload (report : Report) (code : Nat) : Bytes :=
  byteAt (code &&& 0xFF) 0 ::
    byteAt ((if report.isEnd then 0x80 else 0x00) ||| wrapUnsigned 6 report.volume) 0 ::
    encodeBE 2 (min report.elapsed 0xFFFF).toNat

def Report.event (report : Report) (code : Nat) : DtmfEvent where
  event := code
  tone := tones.getD code '0'
  isEnd := report.isEnd
  volume := wrapUnsigned 6 report.volume
  duration := (min report.elapsed 0xFFFF).toNat

theorem event_flags : ∀ volume < 64, ∀ isEnd : Bool,
    let byte := ((if isEnd then 0x80 else 0x00) ||| volume) % 256
    (byte &&& 0x80 != 0) = isEnd ∧ byte &&& 0x3F = volume := by decide

theorem parse_report {code : Nat} (tone : code < 16) (report : Report) :
    parseDtmf (report.payload code) = some (report.event code) := by
  obtain ⟨flag, low⟩ := event_flags _ (wrap_unsigned_lt 6 report.volume) report.isEnd
  have first : ((report.payload code).getD 0 0).toNat = code := by
    have kept : code &&& 0xFF = code := by
      rw [Nat.and_two_pow_sub_one_eq_mod _ 8]
      omega
    exact (byte_at_low _).trans (by rw [kept]; omega)
  have second : ((report.payload code).getD 1 0).toNat =
      ((if report.isEnd then 0x80 else 0x00) ||| wrapUnsigned 6 report.volume) % 256 :=
    byte_at_low _
  have duration : readBE 2 (report.payload code) 2 = (min report.elapsed 0xFFFF).toNat := by
    have behind := read_be_encode 2 (min report.elapsed 0xFFFF).toNat []
    rw [List.append_nil] at behind
    refine behind.trans (Nat.mod_eq_of_lt ?_)
    omega
  rw [parseDtmf, if_neg (by simp [Report.payload])]
  simp only [first, second, flag, low, duration]
  rw [if_neg (by omega)]
  rfl

namespace DtmfPacketizer

def sent (self : DtmfPacketizer) : DtmfPacketizer := { self.advanceSeq with first := false }

def arrival (self : DtmfPacketizer) (payload : Bytes) : ParsedPacket where
  version := 2
  padding := false
  extension := false
  csrcCount := 0
  marker := self.first
  payloadType := wrapUnsigned 7 self.payloadType
  sequenceNumber := self.seq
  timestamp := wrapUnsigned 32 self.eventTs
  ssrc := wrapUnsigned 32 self.ssrc
  csrc := []
  payload := payload
  headerLength := 12
  extensions := none

theorem serialize_packet (self : DtmfPacketizer) (payload : Bytes) :
    ∃ buf, serialize (self.packetObject self.seq payload) = .ok buf ∧
      parse buf = some (self.arrival payload) := by
  have written : extensionBlock (self.packetObject self.seq payload) = .ok none := rfl
  obtain ⟨range, marker, type⟩ := second_byte_read self.first (wrap_unsigned_lt 7 self.payloadType)
  have parsed := @parse_plain _ (wrapUnsigned 16 self.seq) (wrapUnsigned 32 self.eventTs)
    (wrapUnsigned 32 self.ssrc) [] (by simp) range payload
  rw [wrap_unsigned_mod, wrap_unsigned_mod, wrap_unsigned_mod, marker, type,
    @wrap_unsigned_of_lt 16 self.seq self.seq_range] at parsed
  refine ⟨_, serialize_layout written (Nat.zero_lt_succ 15) rfl, ?_⟩
  rw [packetObject, @wrap_unsigned_of_lt 16 self.seq self.seq_range]
  exact parsed

theorem send_packet_ok {self : DtmfPacketizer} (internal : self.nextSeq = none)
    (payload : Bytes) :
    ∃ buf, self.sendPacket (.ok payload) = (self.sent, .ok buf) ∧
      parse buf = some (self.arrival payload) := by
  obtain ⟨buf, written, parsed⟩ := self.serialize_packet payload
  refine ⟨buf, ?_, parsed⟩
  have taken : self.takeSeq = (self.advanceSeq, self.seq) := by
    rw [takeSeq, internal]
  rw [sendPacket, taken]
  simp only [Except.bind, written]
  rfl

def arrivals : DtmfPacketizer → List Bytes → List ParsedPacket
  | _, [] => []
  | self, payload :: rest => self.arrival payload :: arrivals self.sent rest

theorem arrivals_elapse (self : DtmfPacketizer) (deltaMs : ℚ) (payloads : List Bytes) :
    (self.elapse deltaMs).arrivals payloads = self.arrivals payloads := by
  induction payloads generalizing self with
  | nil => rfl
  | cons payload rest ih => exact congrArg (self.arrival payload :: ·) (ih self.sent)

@[simp] theorem arrivals_length (self : DtmfPacketizer) (payloads : List Bytes) :
    (self.arrivals payloads).length = payloads.length := by
  induction payloads generalizing self with
  | nil => rfl
  | cons payload rest ih => rw [arrivals, List.length_cons, ih, List.length_cons]

theorem arrivals_payloads (self : DtmfPacketizer) (payloads : List Bytes) :
    (self.arrivals payloads).map (·.payload) = payloads := by
  induction payloads generalizing self with
  | nil => rfl
  | cons payload rest ih => rw [arrivals, List.map_cons, ih]; rfl

theorem arrivals_timestamps (self : DtmfPacketizer) (payloads : List Bytes) :
    ∀ packet ∈ self.arrivals payloads, packet.timestamp = wrapUnsigned 32 self.eventTs := by
  induction payloads generalizing self with
  | nil => exact fun _ => (nomatch ·)
  | cons payload rest ih =>
      intro packet member
      cases List.mem_cons.mp member with
      | inl first => rw [first]; rfl
      | inr later => exact ih self.sent packet later

theorem arrivals_sequence_numbers (self : DtmfPacketizer) (payloads : List Bytes) :
    (self.arrivals payloads).map (·.sequenceNumber) =
      successive 65536 self.seq payloads.length := by
  induction payloads generalizing self with
  | nil => rfl
  | cons payload rest ih =>
      rw [arrivals, List.map_cons, ih, List.length_cons, Nat.add_comm, successive_add,
        successive_one, Nat.mod_eq_of_lt self.seq_range]
      rfl

theorem arrivals_unmarked {self : DtmfPacketizer} (later : self.first = false)
    (payloads : List Bytes) :
    (self.arrivals payloads).map (·.marker) = List.replicate payloads.length false := by
  induction payloads generalizing self with
  | nil => rfl
  | cons payload rest ih =>
      rw [arrivals, List.map_cons, ih rfl, List.length_cons, List.replicate_succ]
      exact congrArg (· :: _) later

theorem arrivals_markers {self : DtmfPacketizer} (first : self.first = true)
    {payloads : List Bytes} (nonempty : payloads ≠ []) :
    (self.arrivals payloads).map (·.marker) =
      true :: List.replicate ((self.arrivals payloads).length - 1) false := by
  obtain ⟨payload, rest, rfl⟩ := List.exists_cons_of_ne_nil nonempty
  rw [arrivals_length, arrivals, List.map_cons, arrivals_unmarked rfl, List.length_cons,
    Nat.add_sub_cancel]
  exact congrArg (· :: _) first

theorem arrivals_read (self : DtmfPacketizer) {code : Nat} (tone : code < 16)
    (said : List Report) :
    (self.arrivals (said.map (·.payload code))).map (fun packet => parseDtmf packet.payload) =
      (said.map (·.event code)).map some := by
  have payloads := congrArg (List.map parseDtmf) (self.arrivals_payloads
    (said.map (·.payload code)))
  rw [List.map_map, List.map_map] at payloads
  refine payloads.trans ?_
  rw [List.map_map]
  apply List.map_congr_left
  intro report _
  exact parse_report tone report

end DtmfPacketizer

inductive DtmfCall where
  | startEvent (toneChar : String) (timestamp : Int)
  | update (deltaMs : ℚ) (volume : Option Int)
  | endEvent (finalDeltaMs : Option ℚ) (volume : Option Int)

def DtmfPacketizer.call (self : DtmfPacketizer) :
    DtmfCall → DtmfPacketizer × List (Except String Bytes)
  | .startEvent toneChar timestamp =>
      match self.startEvent toneChar timestamp with
      | (next, .ok ()) => (next, [])
      | (next, .error message) => (next, [.error message])
  | .update deltaMs volume =>
      let updated := self.update deltaMs volume
      (updated.1, [updated.2])
  | .endEvent finalDeltaMs volume =>
      match self.endEvent finalDeltaMs volume with
      | (next, .ok out) => (next, out.map .ok)
      | (next, .error message) => (next, [.error message])

structure Press where
  tone : String
  timestamp : Int
  /-- The deltas, each with the volume its options name. -/
  updates : List (ℚ × Option Int)
  finalDeltaMs : Option ℚ
  volume : Option Int

namespace Press

def calls (press : Press) : List DtmfCall :=
  .startEvent press.tone press.timestamp ::
    (press.updates.map (fun update => .update update.1 update.2) ++
      [.endEvent press.finalDeltaMs press.volume])

/-- A tone of the sixteen, and time that does not run backwards. -/
structure Valid (press : Press) : Prop where
  tone : (DtmfPacketizer.codeForTone press.tone).isSome
  updates : ∀ update ∈ press.updates, 0 ≤ update.1
  final : 0 ≤ press.finalDeltaMs.getD 0

def totalTicks (press : Press) (clockRate : Nat) : Int :=
  (press.updates.map fun update => DtmfPacketizer.ticks clockRate update.1).sum +
    DtmfPacketizer.ticks clockRate (press.finalDeltaMs.getD 0)

/-- What the receiver should hand out for a press. -/
def output (press : Press) (clockRate : Nat) : DtmfOutput where
  tone := (press.tone.toList.map Char.toUpper).headD '0'
  event := (DtmfPacketizer.codeForTone press.tone).getD 0
  volume := wrapUnsigned 6 (press.volume.getD 10)
  duration := min (press.totalTicks clockRate).toNat 65535
  timestamp := wrapUnsigned 32 press.timestamp

end Press

/-- What the packets of a press say, from the ticks elapsed before them on. -/
def reports (clockRate : Nat) (finalDeltaMs : Option ℚ) (volume : Option Int) :
    Int → List (ℚ × Option Int) → List Report
  | elapsed, [] =>
      List.replicate 3 ⟨true, volume.getD 10,
        elapsed + DtmfPacketizer.ticks clockRate (finalDeltaMs.getD 0)⟩
  | elapsed, update :: rest =>
      let now := elapsed + DtmfPacketizer.ticks clockRate update.1
      ⟨false, update.2.getD 10, now⟩ :: reports clockRate finalDeltaMs volume now rest

section Reports

variable {clockRate : Nat} {finalDeltaMs : Option ℚ} {volume : Option Int}

theorem ticks_nonneg (clockRate : Nat) {deltaMs : ℚ} (nonneg : 0 ≤ deltaMs) :
    0 ≤ DtmfPacketizer.ticks clockRate deltaMs := by
  apply le_round
  rw [Int.cast_zero]
  positivity

theorem reports_length (elapsed : Int) (updates : List (ℚ × Option Int)) :
    (reports clockRate finalDeltaMs volume elapsed updates).length = updates.length + 3 := by
  induction updates generalizing elapsed with
  | nil => rfl
  | cons update rest ih =>
      rw [reports, List.length_cons, ih, List.length_cons]

theorem reports_ends (elapsed : Int) (updates : List (ℚ × Option Int)) :
    (reports clockRate finalDeltaMs volume elapsed updates).map (·.isEnd) =
      List.replicate updates.length false ++ List.replicate 3 true := by
  induction updates generalizing elapsed with
  | nil => rfl
  | cons update rest ih =>
      rw [reports, List.map_cons, ih, List.length_cons]
      rfl

theorem reports_end {elapsed : Int} {updates : List (ℚ × Option Int)} {report : Report}
    (member : report ∈ reports clockRate finalDeltaMs volume elapsed updates)
    (isEnd : report.isEnd = true) :
    report = ⟨true, volume.getD 10,
      elapsed + ((updates.map fun update => DtmfPacketizer.ticks clockRate update.1).sum +
        DtmfPacketizer.ticks clockRate (finalDeltaMs.getD 0))⟩ := by
  induction updates generalizing elapsed with
  | nil =>
      rw [List.eq_of_mem_replicate member, List.map_nil, List.sum_nil, Int.zero_add]
  | cons update rest ih =>
      cases List.mem_cons.mp member with
      | inl first =>
          rw [first] at isEnd
          cases isEnd
      | inr later =>
          rw [ih later, List.map_cons, List.sum_cons]
          simp only [Int.add_assoc]

theorem reports_ascending {elapsed : Int} {updates : List (ℚ × Option Int)}
    (forwards : ∀ update ∈ updates, 0 ≤ update.1) (final : 0 ≤ finalDeltaMs.getD 0) :
    (reports clockRate finalDeltaMs volume elapsed updates).Pairwise
        (fun earlier later => earlier.elapsed ≤ later.elapsed) ∧
      ∀ report ∈ reports clockRate finalDeltaMs volume elapsed updates,
        elapsed ≤ report.elapsed := by
  induction updates generalizing elapsed with
  | nil =>
      have more := ticks_nonneg clockRate final
      refine ⟨List.pairwise_replicate.mpr (.inr (le_refl _)), ?_⟩
      intro report member
      rw [List.eq_of_mem_replicate member]
      exact le_add_of_nonneg_right more
  | cons update rest ih =>
      have more := ticks_nonneg clockRate (forwards update List.mem_cons_self)
      obtain ⟨ascending, above⟩ := @ih (elapsed + DtmfPacketizer.ticks clockRate update.1)
        fun other member => forwards other (List.mem_cons_of_mem _ member)
      refine ⟨List.pairwise_cons.mpr ⟨above, ascending⟩, ?_⟩
      intro report member
      cases List.mem_cons.mp member with
      | inl first =>
          rw [first]
          exact le_add_of_nonneg_right more
      | inr later => exact (le_add_of_nonneg_right more).trans (above report later)

end Reports

namespace DtmfPacketizer

/-- A packet as it arrives; what throws sends nothing. -/
def arrives (result : Except String Bytes) : Option ParsedPacket := result.toOption.bind parse

theorem build_payload_ok {self : DtmfPacketizer} {code : Nat} (active : self.eventCode = some code)
    (nonneg : 0 ≤ self.elapsedTicks) (isEnd : Bool) (volume : Int) :
    self.buildPayload isEnd volume =
      .ok (Report.payload ⟨isEnd, volume, self.elapsedTicks⟩ code) := by
  rw [buildPayload, if_neg (by omega), active]
  rfl

theorem send_copies_ok {self : DtmfPacketizer} (internal : self.nextSeq = none) (payload : Bytes)
    (count : Nat) :
    ∃ out, self.sendCopies payload count = (sent^[count] self, .ok out) ∧
      (out.map .ok).map arrives = (self.arrivals (List.replicate count payload)).map some := by
  induction count generalizing self with
  | zero => exact ⟨[], rfl, rfl⟩
  | succ count ih =>
      obtain ⟨buf, made, parsed⟩ := send_packet_ok internal payload
      obtain ⟨out, later, arrived⟩ := @ih self.sent internal
      refine ⟨buf :: out, ?_, ?_⟩
      · rw [sendCopies, made]
        simp only [later]
        rfl
      · rw [List.map_cons, List.map_cons, arrived]
        exact congrArg (· :: _) parsed

/-- What a run of calls keeps of the packetizer, and how far it counts. -/
structure Continues (before : DtmfPacketizer) (count : Nat) (after : DtmfPacketizer) : Prop where
  internal : after.nextSeq = none
  clockRate : after.clockRate = before.clockRate
  seq : after.seq = (before.seq + count) % 65536

theorem Continues.trans {first second third : DtmfPacketizer} {count more : Nat}
    (earlier : Continues first count second) (later : Continues second more third) :
    Continues first (count + more) third := by
  refine ⟨later.internal, later.clockRate.trans earlier.clockRate, ?_⟩
  rw [later.seq, earlier.seq]
  omega

theorem continues_sent {self : DtmfPacketizer} (internal : self.nextSeq = none) :
    Continues self 1 self.sent := by
  cases self
  exact ⟨internal, rfl, rfl⟩

theorem continues_elapse {self : DtmfPacketizer} (internal : self.nextSeq = none) (deltaMs : ℚ) :
    Continues self 0 (self.elapse deltaMs) := by
  have range := self.seq_range
  cases self
  exact ⟨internal, rfl, (Nat.mod_eq_of_lt range).symm⟩

theorem update_ok {self : DtmfPacketizer} (internal : self.nextSeq = none) {code : Nat}
    (active : self.eventCode = some code) {deltaMs : ℚ}
    (nonneg : 0 ≤ self.elapsedTicks + ticks self.clockRate deltaMs) (volume : Option Int) :
    (self.update deltaMs volume).1 = (self.elapse deltaMs).sent ∧
      arrives (self.update deltaMs volume).2 =
        some (self.arrival (Report.payload ⟨false, volume.getD 10,
          self.elapsedTicks + ticks self.clockRate deltaMs⟩ code)) := by
  obtain ⟨buf, made, parsed⟩ := @send_packet_ok (self.elapse deltaMs) internal
    (Report.payload ⟨false, volume.getD 10, (self.elapse deltaMs).elapsedTicks⟩ code)
  have counted : ¬ self.eventCode.isNone = true := by
    rw [active]
    exact Bool.false_ne_true
  have updated : self.update deltaMs volume = ((self.elapse deltaMs).sent, .ok buf) := by
    rw [update, if_neg counted, ← made, ← @build_payload_ok (self.elapse deltaMs) code active
      nonneg]
  rw [updated]
  exact ⟨rfl, parsed⟩

theorem end_event_ok {self : DtmfPacketizer} (internal : self.nextSeq = none) {code : Nat}
    (active : self.eventCode = some code) {finalDeltaMs : Option ℚ}
    (nonneg : 0 ≤ self.elapsedTicks + ticks self.clockRate (finalDeltaMs.getD 0))
    (volume : Option Int) :
    ∃ next out, self.endEvent finalDeltaMs volume = (next, .ok out) ∧ Continues self 3 next ∧
      (out.map .ok).map arrives = (self.arrivals (List.replicate 3 (Report.payload
        ⟨true, volume.getD 10, self.elapsedTicks + ticks self.clockRate (finalDeltaMs.getD 0)⟩
        code))).map some := by
  have counted : ¬ self.eventCode.isNone = true := by
    rw [active]
    exact Bool.false_ne_true
  have elapsed : (if finalDeltaMs.getD 0 ≠ 0 then self.elapse (finalDeltaMs.getD 0) else self) =
      self.elapse (finalDeltaMs.getD 0) := by
    split_ifs with zero
    · rfl
    · have none : ticks self.clockRate (finalDeltaMs.getD 0) = 0 := by
        rw [not_not.mp zero, ticks, zero_mul, zero_div, round_zero]
      rw [elapse, none, Int.add_zero]
  obtain ⟨last, here⟩ : ∃ last, last = self.elapse (finalDeltaMs.getD 0) := ⟨_, rfl⟩
  have total : last.elapsedTicks =
      self.elapsedTicks + ticks self.clockRate (finalDeltaMs.getD 0) := by
    rw [here]
    rfl
  have built : last.buildPayload true (volume.getD 10) =
      .ok (Report.payload ⟨true, volume.getD 10, last.elapsedTicks⟩ code) :=
    build_payload_ok (here ▸ active) (total ▸ nonneg) true (volume.getD 10)
  have still : last.nextSeq = none := here ▸ internal
  obtain ⟨out, made, arrived⟩ := send_copies_ok still
    (Report.payload ⟨true, volume.getD 10, last.elapsedTicks⟩ code) 3
  have counts : Continues self 3 last.sent.sent.sent := by
    have zero : Continues self 0 last := here ▸ continues_elapse internal _
    have one := zero.trans (continues_sent zero.internal)
    have two := one.trans (continues_sent one.internal)
    exact two.trans (continues_sent two.internal)
  refine ⟨{ last.sent.sent.sent with eventCode := none }, out, ?_,
    ⟨counts.internal, counts.clockRate, counts.seq⟩, ?_⟩
  · rw [endEvent, if_neg counted]
    dsimp only
    rw [elapsed, ← here, built]
    dsimp only
    rw [made, Function.iterate_succ, Function.iterate_succ, Function.iterate_one]
    rfl
  · rw [arrived, total, here, arrivals_elapse]

theorem run_started {self : DtmfPacketizer} (internal : self.nextSeq = none) {code : Nat}
    (active : self.eventCode = some code) (nonneg : 0 ≤ self.elapsedTicks)
    {updates : List (ℚ × Option Int)} (forwards : ∀ update ∈ updates, 0 ≤ update.1)
    {finalDeltaMs : Option ℚ} (final : 0 ≤ finalDeltaMs.getD 0) (volume : Option Int) :
    Continues self (updates.length + 3)
        (run call self (updates.map (fun update => .update update.1 update.2) ++
          [.endEvent finalDeltaMs volume])).1 ∧
      (run call self (updates.map (fun update => .update update.1 update.2) ++
          [.endEvent finalDeltaMs volume])).2.map arrives =
        (self.arrivals ((reports self.clockRate finalDeltaMs volume self.elapsedTicks updates).map
          (·.payload code))).map some := by
  induction updates generalizing self with
  | nil =>
      have later := Int.add_nonneg nonneg (ticks_nonneg self.clockRate final)
      obtain ⟨next, out, ended, continues, arrived⟩ := end_event_ok internal active later volume
      have called : self.call (.endEvent finalDeltaMs volume) = (next, out.map .ok) := by
        rw [call, ended]
      rw [List.map_nil, List.nil_append, run, run, called, List.append_nil, arrived, reports,
        List.map_replicate]
      exact ⟨continues, rfl⟩
  | cons update rest ih =>
      have later := Int.add_nonneg nonneg (ticks_nonneg self.clockRate
        (forwards update List.mem_cons_self))
      obtain ⟨next, arrived⟩ := update_ok internal active later update.2
      obtain ⟨continues, others⟩ := @ih (self.elapse update.1).sent internal active later
        fun other member => forwards other (List.mem_cons_of_mem _ member)
      have called : self.call (.update update.1 update.2) =
          ((self.elapse update.1).sent, [(self.update update.1 update.2).2]) := by
        rw [call, next]
      rw [List.map_cons, List.cons_append, run, called]
      have counts := (continues_elapse internal update.1).trans
        (@continues_sent (self.elapse update.1) internal)
      refine ⟨?_, ?_⟩
      · rw [List.length_cons, show rest.length + 1 + 3 = 0 + 1 + (rest.length + 3) by omega]
        exact counts.trans continues
      · rw [List.map_append, List.map_cons, List.map_nil, arrived, others, reports,
          List.map_cons, arrivals, ← arrivals_elapse self.sent update.1]
        rfl

def started (self : DtmfPacketizer) (code : Nat) (timestamp : Int) : DtmfPacketizer :=
  { self with
    eventCode := some code
    eventTs := wrapUnsigned 32 timestamp
    elapsedTicks := 0
    first := true }

theorem code_for_tone_tone {tone : String} {code : Nat} (found : codeForTone tone = some code) :
    code < 16 ∧ tones.getD code '0' = (tone.toList.map Char.toUpper).headD '0' := by
  rw [codeForTone] at found
  split at found
  · rename_i upper shape
    obtain ⟨before, after, table, _⟩ := List.lookup_eq_some_iff.mp found
    have member : (upper, code) ∈ eventCodes := by
      rw [table]
      exact List.mem_append_right _ List.mem_cons_self
    have each : ∀ entry ∈ eventCodes, entry.2 < 16 ∧ tones.getD entry.2 '0' = entry.1 := by
      decide
    rw [shape]
    exact each _ member
  · cases found

theorem run_press {self : DtmfPacketizer} (internal : self.nextSeq = none) {press : Press}
    (valid : press.Valid) {code : Nat} (found : codeForTone press.tone = some code) :
    Continues self (press.updates.length + 3) (run call self press.calls).1 ∧
      (run call self press.calls).2.map arrives =
        ((self.started code press.timestamp).arrivals
          ((reports self.clockRate press.finalDeltaMs press.volume 0 press.updates).map
            (·.payload code))).map some := by
  have begun : self.call (.startEvent press.tone press.timestamp) =
      (self.started code press.timestamp, []) := by
    rw [call, startEvent, found]
    rfl
  have ran := @run_started (self.started code press.timestamp) internal code rfl (le_refl _)
    press.updates valid.updates press.finalDeltaMs valid.final press.volume
  rw [Press.calls, run, begun, List.nil_append]
  exact ⟨⟨ran.1.internal, ran.1.clockRate, ran.1.seq⟩, ran.2⟩

end DtmfPacketizer

def DtmfEvent.output (event : DtmfEvent) (timestamp : Nat) : DtmfOutput where
  tone := event.tone
  event := event.event
  volume := event.volume
  duration := event.duration
  timestamp := timestamp

/-- The packets of one press, and what the receiver reads of them. -/
structure Press.Sent (press : Press) (clockRate : Nat) (packets : List ParsedPacket)
    (events : List DtmfEvent) : Prop where
  timestamps : ∀ packet ∈ packets, packet.timestamp = wrapUnsigned 32 press.timestamp
  markers : packets.map (·.marker) = true :: List.replicate (packets.length - 1) false
  read : packets.map (fun packet => parseDtmf packet.payload) = events.map some
  ends : events.map (·.isEnd) = List.replicate press.updates.length false ++ List.replicate 3 true
  durations : events.Pairwise fun earlier later => earlier.duration ≤ later.duration
  told : ∀ event ∈ events, event.isEnd = true →
    event.output (wrapUnsigned 32 press.timestamp) = press.output clockRate

theorem sent_of_reports {press : Press} {clockRate code : Nat} (valid : press.Valid)
    (found : DtmfPacketizer.codeForTone press.tone = some code) (self : DtmfPacketizer) :
    press.Sent clockRate
      ((self.started code press.timestamp).arrivals
        ((reports clockRate press.finalDeltaMs press.volume 0 press.updates).map
          (·.payload code)))
      ((reports clockRate press.finalDeltaMs press.volume 0 press.updates).map
        (·.event code)) := by
  obtain ⟨small, tone⟩ := DtmfPacketizer.code_for_tone_tone found
  obtain ⟨ascending, _⟩ := @reports_ascending clockRate press.finalDeltaMs press.volume 0
    press.updates valid.updates valid.final
  constructor
  case timestamps =>
    intro packet member
    rw [DtmfPacketizer.arrivals_timestamps _ _ packet member]
    exact wrap_unsigned_of_lt (wrap_unsigned_lt 32 press.timestamp)
  case markers =>
    apply DtmfPacketizer.arrivals_markers rfl
    intro none
    have length := congrArg List.length none
    rw [List.length_map, reports_length] at length
    cases length
  case read => exact DtmfPacketizer.arrivals_read _ small _
  case ends =>
    rw [List.map_map]
    exact reports_ends 0 press.updates
  case durations =>
    apply List.pairwise_map.mpr
    apply ascending.imp
    intro earlier later order
    simp only [Report.event]
    omega
  case told =>
    intro event member isEnd
    obtain ⟨report, inside, rfl⟩ := List.mem_map.mp member
    have duration : (min (press.totalTicks clockRate) 0xFFFF).toNat =
        min (press.totalTicks clockRate).toNat 65535 := by omega
    rw [reports_end inside isEnd, Int.zero_add, DtmfEvent.output, Report.event, Press.output,
      found, ← tone, ← duration]
    rfl

def DtmfPacketizer.press (self : DtmfPacketizer) (press : Press) :
    DtmfPacketizer × List (List (Except String Bytes)) :=
  let called := run call self press.calls
  (called.1, [called.2])

theorem run_presses {self : DtmfPacketizer} (internal : self.nextSeq = none)
    {presses : List Press} (valid : ∀ press ∈ presses, press.Valid) :
    ∃ sent : List (List ParsedPacket),
      (run DtmfPacketizer.press self presses).2.map (·.map DtmfPacketizer.arrives) =
        sent.map (·.map some) ∧
      sent.flatten.map (·.sequenceNumber) =
        successive 65536 self.seq sent.flatten.length ∧
      List.Forall₂ (fun press packets => ∃ events, press.Sent self.clockRate packets events)
        presses sent := by
  induction presses generalizing self with
  | nil => exact ⟨[], rfl, rfl, .nil⟩
  | cons press rest ih =>
      have good := valid press List.mem_cons_self
      obtain ⟨code, found⟩ := Option.isSome_iff_exists.mp good.tone
      obtain ⟨continues, arrived⟩ := DtmfPacketizer.run_press internal good found
      have facts := @sent_of_reports press self.clockRate code good found self
      obtain ⟨packets, named⟩ : ∃ packets, (self.started code press.timestamp).arrivals
        ((reports self.clockRate press.finalDeltaMs press.volume 0 press.updates).map
          (·.payload code)) = packets := ⟨_, rfl⟩
      have count : packets.length = press.updates.length + 3 := by
        rw [← named, DtmfPacketizer.arrivals_length, List.length_map, reports_length]
      have numbers : packets.map (·.sequenceNumber) =
          successive 65536 self.seq packets.length := by
        rw [← named, DtmfPacketizer.arrivals_sequence_numbers, DtmfPacketizer.arrivals_length]
        rfl
      obtain ⟨sent, others, later, told⟩ := @ih (run DtmfPacketizer.call self press.calls).1
        continues.internal fun other member => valid other (List.mem_cons_of_mem _ member)
      rw [named] at arrived facts
      refine ⟨packets :: sent, ?_, ?_, ?_⟩
      · have pressed : self.press press = ((run DtmfPacketizer.call self press.calls).1,
            [(run DtmfPacketizer.call self press.calls).2]) := rfl
        rw [run, pressed, List.map_append, others, List.map_cons, arrived]
        rfl
      · rw [List.flatten_cons, List.map_append, List.length_append, numbers, later,
          continues.seq, successive_add, count]
      · rw [continues.clockRate] at told
        exact .cons ⟨_, facts⟩ told

/-- Some packets of a press in any order, each any number of times, with one end packet
at least. -/
def Received (sent received : List ParsedPacket) : Prop :=
  received ⊆ sent ∧ ∃ packet ∈ received, (parseDtmf packet.payload).any (·.isEnd) = true

namespace DTMFDepacketizer

/-- The end packet that was handed out hides all others with its timestamp. -/
theorem run_seen {self : DTMFDepacketizer} {timestamp : Nat}
    (seen : self.lastEndTs = some (timestamp % 2 ^ 32)) {received : List ParsedPacket}
    (same : ∀ packet ∈ received, packet.timestamp = timestamp) :
    run depacketize self (received.map .packet) = (self, []) := by
  induction received with
  | nil => rfl
  | cons packet rest ih =>
      have idle : self.depacketize (.packet packet) = (self, []) := by
        have hidden : self.lastEndTs = some (Input.packet packet).timestamp := by
          rw [seen, Input.timestamp, same packet List.mem_cons_self]
        rw [depacketize]
        split_ifs
        · rfl
        · split
          · rfl
          · rw [ite_self]
      rw [List.map_cons, run, idle, ih fun other member =>
        same other (List.mem_cons_of_mem _ member)]
      rfl

theorem run_received {press : Press} {clockRate : Nat} {sent : List ParsedPacket}
    {events : List DtmfEvent} (facts : press.Sent clockRate sent events)
    {received : List ParsedPacket} (got : Received sent received) {self : DTMFDepacketizer}
    (listens : self.output = true)
    (fresh : self.lastEndTs ≠ some (wrapUnsigned 32 press.timestamp)) :
    run depacketize self (received.map .packet) =
      ({ self with lastEndTs := some (wrapUnsigned 32 press.timestamp) },
        [press.output clockRate]) := by
  obtain ⟨inside, ended⟩ := got
  induction received with
  | nil =>
      obtain ⟨_, none, _⟩ := ended
      cases none
  | cons packet rest ih =>
      have member := inside List.mem_cons_self
      have timestamp := facts.timestamps packet member
      have others : rest ⊆ sent := fun other later => inside (List.mem_cons_of_mem _ later)
      obtain ⟨event, known, read⟩ : ∃ event ∈ events, some event = parseDtmf packet.payload :=
        List.mem_map.mp (facts.read ▸ List.mem_map_of_mem member)
      have time : (Input.packet packet).timestamp = wrapUnsigned 32 press.timestamp := by
        rw [Input.timestamp, timestamp]
        exact wrap_unsigned_mod 32 press.timestamp
      have step : self.depacketize (.packet packet) =
          if event.isEnd then
            ({ self with lastEndTs := some (wrapUnsigned 32 press.timestamp) },
              [event.output (wrapUnsigned 32 press.timestamp)])
          else (self, []) := by
        rw [depacketize, listens, Input.payload, ← read, time]
        simp only [Bool.not_true, Bool.false_eq_true, if_false, if_neg fresh]
        rfl
      rw [List.map_cons, run, step]
      cases last : event.isEnd with
      | true =>
          rw [if_pos rfl, run_seen (by rw [wrap_unsigned_mod]) fun other later =>
            facts.timestamps other (others later), facts.told event known last]
          rfl
      | false =>
          have later : ∃ packet ∈ rest, (parseDtmf packet.payload).any (·.isEnd) = true := by
            obtain ⟨found, where_, isEnd⟩ := ended
            cases List.mem_cons.mp where_ with
            | inl first =>
                rw [first, ← read, Option.any_some, last] at isEnd
                cases isEnd
            | inr behind => exact ⟨found, behind, isEnd⟩
          rw [if_neg Bool.false_ne_true, ih others later]
          rfl

theorem run_all_received {clockRate : Nat} {presses : List Press}
    {sent received : List (List ParsedPacket)}
    (facts : List.Forall₂ (fun press packets => ∃ events, press.Sent clockRate packets events)
      presses sent)
    (got : List.Forall₂ Received sent received)
    (apart : presses.IsChain fun earlier later =>
      wrapUnsigned 32 earlier.timestamp ≠ wrapUnsigned 32 later.timestamp)
    {self : DTMFDepacketizer} (listens : self.output = true)
    (fresh : ∀ press ∈ presses.head?, self.lastEndTs ≠ some (wrapUnsigned 32 press.timestamp)) :
    (run depacketize self (received.flatten.map .packet)).2 =
      presses.map (·.output clockRate) := by
  induction facts generalizing received self with
  | nil =>
      cases got
      rfl
  | @cons press packets presses sent first _ ih =>
      obtain ⟨events, facts⟩ := first
      cases got with
      | @cons _ here _ received one more =>
          rw [List.flatten_cons, List.map_append, run_append,
            run_received facts one listens (fresh press rfl), List.map_cons]
          apply congrArg (_ :: ·)
          obtain ⟨different, rest⟩ := List.isChain_cons.mp apart
          apply ih more rest
          · exact listens
          · intro next member same
            exact different next member (Option.some.inj same)

end DTMFDepacketizer

/-- Any presses on one packetizer with its own counter: packets numbered one by one, each
press with its timestamp, one marker, three ends and rising durations. Whatever arrives of
them, the receiver hands out each press once and whole. -/
theorem presses_handed_out_once {self : DtmfPacketizer} (internal : self.nextSeq = none)
    {presses : List Press} (valid : ∀ press ∈ presses, press.Valid)
    (apart : presses.IsChain fun earlier later =>
      wrapUnsigned 32 earlier.timestamp ≠ wrapUnsigned 32 later.timestamp) :
    ∃ sent : List (List ParsedPacket),
      (run DtmfPacketizer.press self presses).2.map (·.map DtmfPacketizer.arrives) =
        sent.map (·.map some) ∧
      sent.flatten.map (·.sequenceNumber) =
        successive 65536 self.seq sent.flatten.length ∧
      List.Forall₂ (fun press packets => ∃ events, press.Sent self.clockRate packets events)
        presses sent ∧
      ∀ received, List.Forall₂ Received sent received →
        (run DTMFDepacketizer.depacketize .new (received.flatten.map .packet)).2 =
          presses.map (·.output self.clockRate) := by
  obtain ⟨sent, arrived, numbers, facts⟩ := run_presses internal valid
  refine ⟨sent, arrived, numbers, facts, ?_⟩
  intro received got
  exact DTMFDepacketizer.run_all_received facts got apart rfl fun _ _ => nofun

def wrappingDtmf : DtmfPacketizer where
  ssrc := 1
  payloadType := 101
  clockRate := 8000
  nextSeq := none
  calls := 0
  seq := 65534
  eventCode := none
  eventTs := 0
  elapsedTicks := 0
  first := false
  seq_range := by decide

def twoPresses : List Press :=
  [{ tone := "5", timestamp := -1, updates := [(50, none), (50, some 7)]
     finalDeltaMs := none, volume := none },
    { tone := "a", timestamp := 0, updates := [], finalDeltaMs := some 9000, volume := some 20 }]

theorem two_presses_handed_out :
    ∃ sent : List (List ParsedPacket), sent.length = 2 ∧
      ∀ received, List.Forall₂ Received sent received →
        (run DTMFDepacketizer.depacketize .new (received.flatten.map .packet)).2 =
          [⟨'5', 5, 10, 800, 4294967295⟩, ⟨'A', 12, 20, 65535, 0⟩] := by
  have valid : ∀ press ∈ twoPresses, press.Valid := by
    intro press member
    cases List.mem_cons.mp member with
    | inl first =>
        rw [first]
        exact ⟨by decide, by decide, by decide⟩
    | inr second =>
        rw [List.mem_singleton.mp second]
        exact ⟨by decide, by decide, by decide⟩
  obtain ⟨sent, _, _, facts, once⟩ := @presses_handed_out_once wrappingDtmf rfl twoPresses valid
    (by decide)
  refine ⟨sent, facts.length_eq.symm, ?_⟩
  intro received got
  rw [once received got]
  decide +kernel

end RtpPacket.Codec
