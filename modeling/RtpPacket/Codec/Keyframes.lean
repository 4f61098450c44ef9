import RtpPacket.Codec.H264
import RtpPacket.Codec.H265
import RtpPacket.Lib.Run

/-!
# Keyframes seen twice

`peekKeyframe` looks at one payload, the depacketizers at the units they collect. Both
read a payload the same way, and what a fragment adds to a unit in flight does not
change whether the unit makes a keyframe: its header decides.
-/

namespace RtpPacket.Codec

open ByteCodec Rtp Run

set_option autoImplicit false

inductive Reading where
  /-- Nothing, with the error that says why. -/
  | refused (message : Option String)
  | whole (nalu : Bytes)
  | aggregate (units : Bytes) (truncated : String)
  | fragment (startBit endBit : Bool) (header body : Bytes) (lostStart : String)
  deriving DecidableEq, Repr

namespace Reading

def startsKeyframe (isIDR : Bytes → Bool) : Reading → Bool
  | refused _ => false
  | whole nalu => isIDR nalu
  | aggregate units _ => (NaluDepacketizer.aggregatedUnits units).1.any isIDR
  | fragment startBit _ header _ _ => startBit && isIDR header

def leavesOpen (inFlight : Bool) : Reading → Bool
  | refused _ => inFlight
  | whole _ => inFlight
  | aggregate _ _ => inFlight
  | fragment startBit endBit _ _ _ => (startBit || inFlight) && !endBit

/-- It starts no unit while another one is in flight. -/
def Orderly (inFlight : Bool) : Reading → Prop
  | fragment startBit _ _ _ _ => startBit = true → inFlight = false
  | _ => True

/-- The header of a fragment decides whether the whole unit makes a keyframe. -/
def Decided (isIDR : Bytes → Bool) : Reading → Prop
  | fragment _ _ header _ _ => ∀ more, isIDR (header ++ more) = isIDR header
  | _ => True

instance Orderly.instDecidable (inFlight : Bool) :
    (reading : Reading) → Decidable (reading.Orderly inFlight)
  | refused _ => inferInstanceAs (Decidable True)
  | whole _ => inferInstanceAs (Decidable True)
  | aggregate _ _ => inferInstanceAs (Decidable True)
  | fragment startBit _ _ _ _ =>
      inferInstanceAs (Decidable (startBit = true → inFlight = false))

end Reading

namespace NaluDepacketizer

def take (isIDR : Bytes → Bool) (self : NaluDepacketizer) (reading : Reading)
    (timestamp : Nat) (marker : Bool) : NaluDepacketizer × List DepacketizerEvent :=
  match reading with
  | .refused none => (self, [])
  | .refused (some message) => (self, self.callbacks.emitError message)
  | .whole nalu => (self.collect isIDR nalu).finish timestamp marker
  | .aggregate units truncated => self.takeAggregate isIDR truncated units timestamp marker
  | .fragment startBit endBit header body lostStart =>
      self.takeFragment isIDR lostStart startBit endBit header body timestamp marker

theorem peek_aggregated_any {isIDR : Bytes → Bool} {startsIDR : Nat → Bytes → Bool}
    (agree : ∀ size rest, size ≠ 0 → size ≤ rest.length →
      startsIDR size rest = isIDR (rest.take size)) (units : Bytes) :
    peekAggregated startsIDR units = (aggregatedUnits units).1.any isIDR := by
  induction units using aggregatedUnits.induct with
  | case1 high low rest size empty ih =>
      rw [peekAggregated, aggregatedUnits, if_pos empty, if_pos empty]
      exact ih
  | case2 high low rest size nonempty short =>
      rw [peekAggregated, aggregatedUnits, if_neg nonempty, if_neg nonempty, if_pos short,
        if_pos short]
      rfl
  | case3 high low rest size nonempty within ih =>
      rw [peekAggregated, aggregatedUnits, if_neg nonempty, if_neg nonempty, if_neg within,
        if_neg within, agree _ rest nonempty (Nat.le_of_not_lt within), List.any_cons, ← ih]
      cases isIDR (rest.take (decodeBE [high, low])) <;> rfl
  | case4 units tooShort =>
      rw [peekAggregated, aggregatedUnits]
      · rfl
      · exact tooShort
      · exact tooShort

theorem finish_unmarked (self : NaluDepacketizer) (timestamp : Nat) :
    self.finish timestamp false = (self, []) := rfl

theorem finish_output {self : NaluDepacketizer} {timestamp : Nat} {marker : Bool}
    {chunk : OutputChunk} (handed : .output chunk ∈ (self.finish timestamp marker).2) :
    marker = true ∧ chunk.type = if self.sawIDR then .key else .delta := by
  rw [finish] at handed
  by_cases marked : (marker && !self.nalus.isEmpty) = true
  · rw [if_pos marked] at handed
    cases List.mem_singleton.mp handed
    exact ⟨(Bool.and_eq_true_iff.mp marked).1, rfl⟩
  · rw [if_neg marked] at handed
    cases handed

/-- A chunk is handed out at the marker only, a keyframe when the units collected by then
have one. -/
theorem take_output {isIDR : Bytes → Bool} {self : NaluDepacketizer} {reading : Reading}
    {timestamp : Nat} {marker : Bool} {chunk : OutputChunk}
    (handed : .output chunk ∈ (self.take isIDR reading timestamp marker).2) :
    marker = true ∧
      chunk.type =
        if (self.take isIDR reading timestamp false).1.sawIDR then .key else .delta := by
  cases reading with
  | refused message =>
      cases message with
      | none => cases handed
      | some message => exact absurd handed (self.callbacks.emit_error_no_output message chunk)
  | whole nalu => exact finish_output handed
  | aggregate units truncated =>
      rw [take, takeAggregate] at handed
      cases List.mem_append.mp handed with
      | inl error =>
          split_ifs at error
          · exact absurd error (self.callbacks.emit_error_no_output truncated chunk)
          · cases error
      | inr finished => exact finish_output finished
  | fragment startBit endBit header body lostStart =>
      rw [take, takeFragment] at handed ⊢
      by_cases lost : (!startBit && self.fuFragments.isEmpty) = true
      · rw [if_pos lost] at handed
        exact absurd handed (self.callbacks.emit_error_no_output lostStart chunk)
      · rw [if_neg lost] at handed ⊢
        cases endBit with
        | false => exact finish_output handed
        | true => exact finish_output handed

theorem take_callbacks (isIDR : Bytes → Bool) (self : NaluDepacketizer) (reading : Reading)
    (timestamp : Nat) :
    (self.take isIDR reading timestamp false).1.callbacks = self.callbacks := by
  cases reading with
  | refused message => cases message <;> rfl
  | whole nalu => rfl
  | aggregate units truncated => rw [take, takeAggregate, finish_unmarked, foldl_collect]
  | fragment startBit endBit header body lostStart =>
      rw [take, takeFragment]
      split_ifs
      all_goals rfl

/-- What the payloads so far showed is what the units collected and the one in flight show. -/
structure Witnessed (isIDR : Bytes → Bool) (inFlight seen : Bool) (state : NaluDepacketizer) :
    Prop where
  opened : state.fuFragments.isEmpty = !inFlight
  decided : inFlight = true →
    ∀ more, isIDR (state.fuFragments.flatten ++ more) = isIDR state.fuFragments.flatten
  shown : seen = (state.sawIDR || (inFlight && isIDR state.fuFragments.flatten))

theorem witnessed_reset (isIDR : Bytes → Bool) (self : NaluDepacketizer) :
    Witnessed isIDR false false self.reset :=
  ⟨rfl, (nomatch ·), rfl⟩

theorem witnessed_fragment {isIDR : Bytes → Bool} {self : NaluDepacketizer}
    {pieces : List Bytes} {seen : Bool}
    (decided : ∀ more, isIDR (pieces.flatten ++ more) = isIDR pieces.flatten)
    (shows : seen = (self.sawIDR || isIDR pieces.flatten)) (body : Bytes) (endBit : Bool)
    (timestamp : Nat) :
    Witnessed isIDR (!endBit) seen
      (if endBit then
        (collect isIDR { self with fuFragments := [] } (pieces ++ [body]).flatten).finish
          timestamp false
      else
        { self with fuFragments := pieces ++ [body] }.finish timestamp false).1 := by
  have extended : (pieces ++ [body]).flatten = pieces.flatten ++ body := by simp
  cases endBit with
  | true =>
      refine ⟨rfl, (nomatch ·), ?_⟩
      rw [shows, if_pos rfl, finish_unmarked, collect, extended, decided body, Bool.not_true,
        Bool.false_and, Bool.or_false]
  | false =>
      refine ⟨by simp [finish_unmarked], fun _ more => ?_, ?_⟩
      · rw [if_neg Bool.false_ne_true, finish_unmarked, extended, List.append_assoc, decided,
          decided]
      · rw [shows, if_neg Bool.false_ne_true, finish_unmarked, extended, decided body,
          Bool.not_false, Bool.true_and]

theorem take_witnessed {isIDR : Bytes → Bool} {inFlight seen : Bool} {self : NaluDepacketizer}
    (before : Witnessed isIDR inFlight seen self) {reading : Reading}
    (orderly : reading.Orderly inFlight) (decided : reading.Decided isIDR) (timestamp : Nat) :
    Witnessed isIDR (reading.leavesOpen inFlight) (seen || reading.startsKeyframe isIDR)
      (self.take isIDR reading timestamp false).1 := by
  cases reading with
  | refused message =>
      rw [Reading.leavesOpen, Reading.startsKeyframe, Bool.or_false]
      cases message with
      | none => exact before
      | some message => exact before
  | whole nalu =>
      refine ⟨before.opened, before.decided, ?_⟩
      rw [Reading.startsKeyframe, before.shown, Bool.or_right_comm]
      rfl
  | aggregate units truncated =>
      rw [take, takeAggregate, finish_unmarked, foldl_collect]
      refine ⟨before.opened, before.decided, ?_⟩
      rw [Reading.startsKeyframe, before.shown, Bool.or_right_comm]
      rfl
  | fragment startBit endBit header body lostStart =>
      rw [take, takeFragment, Reading.leavesOpen, Reading.startsKeyframe]
      cases startBit with
      | true =>
          have closed := orderly rfl
          rw [if_neg (by simp)]
          have shows : (seen || (true && isIDR header)) =
              (self.sawIDR || isIDR [header].flatten) := by
            rw [before.shown, closed]
            simp
          simpa using witnessed_fragment (by simpa [Reading.Decided] using decided) shows body endBit
            timestamp
      | false =>
          cases inFlight with
          | false =>
              rw [if_pos (by rw [before.opened]; rfl), Bool.or_false, Bool.false_and,
                Bool.false_and, Bool.or_false]
              exact before
          | true =>
              have some : self.fuFragments.isEmpty = false := before.opened
              rw [if_neg (by simp [some]), Bool.false_and, Bool.or_false]
              have shows : seen = (self.sawIDR || isIDR self.fuFragments.flatten) := by
                rw [before.shown, Bool.true_and]
              simpa using witnessed_fragment (before.decided rfl) shows body endBit timestamp

end NaluDepacketizer

namespace H264

def reading (payload : Bytes) : Reading :=
  if payload.length < 1 then .refused none
  else
    let type := naluType payload
    if 1 ≤ type ∧ type ≤ 23 then .whole payload
    else if type = 24 then
      .aggregate (payload.drop 1) "H264Depacketizer: STAP-A truncated NALU"
    else if type = 28 then
      if payload.length < 2 then .refused (some "H264Depacketizer: FU-A header truncated")
      else
        let fuHeader := (payload.getD 1 0).toNat
        let header := ((payload.headD 0).toNat &&& 0x60) ||| (fuHeader &&& 0x1F)
        .fragment (fuHeader &&& 0x80 != 0) (fuHeader &&& 0x40 != 0) [byteAt header 0]
          (payload.drop 2) "H264Depacketizer: FU-A fragment without start (start packet lost)"
    else .refused (some s!"H264Depacketizer: unsupported NAL type {type}")

theorem depacketize_reads {self : NaluDepacketizer} (listens : self.callbacks.output = true)
    (packet : ParsedPacket) :
    depacketize self packet =
      self.take isIDR (reading packet.payload) packet.timestamp packet.marker := by
  rw [depacketize, reading, Callbacks.checkDepacketizePayload, listens, Bool.true_and]
  by_cases short : packet.payload.length < 1
  · rw [if_pos short, if_pos (by simpa using short)]
    rfl
  · rw [if_neg short, if_neg (by simpa using short)]
    dsimp only
    split_ifs
    all_goals rfl

theorem rebuilt_type (fuIndicator fuHeader : Nat) :
    (byteAt ((fuIndicator &&& 0x60) ||| (fuHeader &&& 0x1F)) 0).toNat &&& 0x1F =
      fuHeader &&& 0x1F := by
  have low (value : Nat) : value &&& 0x1F = value % 2 ^ 5 := Nat.and_two_pow_sub_one_eq_mod value 5
  rw [byte_at_low, low, Nat.mod_mod_of_dvd _ (by decide), Nat.or_mod_two_pow, Nat.and_mod_two_pow,
    Nat.and_mod_two_pow, low fuHeader]
  simp only [Nat.reduceMod, Nat.reducePow, Nat.and_zero, Nat.zero_or]
  exact (low _).trans (Nat.mod_mod fuHeader 32)

theorem peek_keyframe_reads (payload : Bytes) :
    peekKeyframe payload = (reading payload).startsKeyframe isIDR := by
  rw [peekKeyframe, reading]
  dsimp only
  split_ifs with short whole aggregate fragment truncated start
  · rfl
  · rfl
  · apply NaluDepacketizer.peek_aggregated_any
    intro size rest nonempty _
    rw [isIDR, naluType, naluType]
    cases rest with
    | nil => rw [List.take_nil]
    | cons first later =>
        obtain ⟨size, rfl⟩ := Nat.exists_eq_succ_of_ne_zero nonempty
        rw [List.take_succ_cons, List.headD_cons, List.headD_cons]
  · rfl
  · simp only [Bool.not_eq_true'] at start
    rw [Reading.startsKeyframe, start, Bool.false_and]
  · simp only [Bool.not_eq_true', Bool.not_eq_false] at start
    rw [Reading.startsKeyframe, start, Bool.true_and, isIDR, naluType, List.headD_cons,
      rebuilt_type]
  · rfl

theorem reading_decided (payload : Bytes) : (reading payload).Decided isIDR := by
  rw [reading]
  dsimp only
  split_ifs
  all_goals first | trivial | exact fun _ => rfl

end H264

namespace H265

def reading (payload : Bytes) : Reading :=
  if payload.length < 2 then .refused none
  else
    let type := naluType payload
    if type = nalAP then .aggregate (payload.drop 2) "H265Depacketizer: AP truncated NALU"
    else if type = nalFU then
      if payload.length < 3 then .refused (some "H265Depacketizer: FU header truncated")
      else
        let fuByte := (payload.getD 2 0).toNat
        let fuHdrHi := ((payload.getD 0 0).toNat &&& 0x81) ||| ((fuByte &&& 0x3F) <<< 1)
        let fuHdrLo := (payload.getD 1 0).toNat
        .fragment (fuByte &&& 0x80 != 0) (fuByte &&& 0x40 != 0)
          [byteAt fuHdrHi 0, byteAt fuHdrLo 0] (payload.drop 3)
          "H265Depacketizer: FU fragment without start (start packet lost)"
    else if type < nalAP then .whole payload
    else .refused (some s!"H265Depacketizer: unsupported NAL type {type}")

theorem depacketize_reads {self : NaluDepacketizer} (listens : self.callbacks.output = true)
    (packet : ParsedPacket) :
    depacketize self packet =
      self.take isIDR (reading packet.payload) packet.timestamp packet.marker := by
  rw [depacketize, reading, Callbacks.checkDepacketizePayload, listens, Bool.true_and]
  by_cases short : packet.payload.length < 2
  · rw [if_pos short, if_pos (by simpa using short)]
    rfl
  · rw [if_neg short, if_neg (by simpa using short)]
    dsimp only
    split_ifs
    all_goals rfl

theorem rebuilt_type (payloadHdr fuByte : Nat) :
    (byteAt ((payloadHdr &&& 0x81) ||| ((fuByte &&& 0x3F) <<< 1)) 0).toNat >>> 1 &&& 0x3F =
      fuByte &&& 0x3F := by
  have low (value : Nat) : value &&& 0x3F = value % 2 ^ 6 := Nat.and_two_pow_sub_one_eq_mod value 6
  have skip (value : Nat) : (value % 256) >>> 1 % 2 ^ 6 = (value >>> 1) % 2 ^ 6 := by
    rw [Nat.shiftRight_eq_div_pow, Nat.shiftRight_eq_div_pow]
    omega
  rw [byte_at_low, low, skip, Nat.shiftRight_or_distrib, Nat.or_mod_two_pow,
    Nat.shiftRight_and_distrib, Nat.and_mod_two_pow, Nat.shiftLeft_shiftRight, low fuByte]
  simp only [Nat.reduceShiftRight, Nat.reduceMod, Nat.reducePow, Nat.and_zero, Nat.zero_or]
  exact Nat.mod_mod fuByte 64

theorem peek_keyframe_reads (payload : Bytes) :
    peekKeyframe payload = (reading payload).startsKeyframe isIDR := by
  rw [peekKeyframe, reading]
  dsimp only
  by_cases short : payload.length < 2
  · rw [if_pos short, if_pos short]
    rfl
  · rw [if_neg short, if_neg short]
    -- The two read the types in another order.
    split_ifs with whole aggregate fragment _ aggregate fragment truncated start
    · exact absurd whole (by rw [aggregate]; decide)
    · exact absurd whole (by rw [fragment]; decide)
    · exact absurd whole (by rw [fragment]; decide)
    · rw [Reading.startsKeyframe, isIDR, decide_eq_true (Nat.le_of_not_lt short), Bool.true_and]
    · apply NaluDepacketizer.peek_aggregated_any
      intro size rest _ within
      rw [isIDR, naluType, naluType, List.length_take, Nat.min_eq_left within]
      cases rest with
      | nil => rw [List.take_nil]
      | cons first later =>
          cases size with
          | zero => rfl
          | succ size => rw [List.take_succ_cons, List.headD_cons, List.headD_cons]
    · rfl
    · simp only [Bool.not_eq_true'] at start
      rw [Reading.startsKeyframe, start, Bool.false_and]
    · simp only [Bool.not_eq_true', Bool.not_eq_false] at start
      rw [Reading.startsKeyframe, start, Bool.true_and, isIDR, naluType, List.headD_cons,
        rebuilt_type]
      rfl
    · rfl

theorem reading_decided (payload : Bytes) : (reading payload).Decided isIDR := by
  rw [reading]
  dsimp only
  split_ifs
  all_goals first | trivial | exact fun _ => by simp [isIDR, naluType]

end H265

inductive NaluCodec where
  | h264
  | h265
  deriving DecidableEq, Repr

namespace NaluCodec

def depacketize : NaluCodec → NaluDepacketizer → ParsedPacket →
    NaluDepacketizer × List DepacketizerEvent
  | h264 => H264.depacketize
  | h265 => H265.depacketize

def peekKeyframe : NaluCodec → Bytes → Bool
  | h264 => H264.peekKeyframe
  | h265 => H265.peekKeyframe

def isIDR : NaluCodec → Bytes → Bool
  | h264 => H264.isIDR
  | h265 => H265.isIDR

def reading : NaluCodec → Bytes → Reading
  | h264 => H264.reading
  | h265 => H265.reading

variable (codec : NaluCodec)

/-- Every unit sent in fragments ends before the next one starts, and before the end. -/
def FragmentsEnd : Bool → List Bytes → Prop
  | inFlight, [] => inFlight = false
  | inFlight, payload :: rest =>
      (codec.reading payload).Orderly inFlight ∧
        FragmentsEnd ((codec.reading payload).leavesOpen inFlight) rest

instance FragmentsEnd.instDecidable :
    (inFlight : Bool) → (payloads : List Bytes) → Decidable (codec.FragmentsEnd inFlight payloads)
  | inFlight, [] => inferInstanceAs (Decidable (inFlight = false))
  | inFlight, payload :: rest =>
      have := instDecidable ((codec.reading payload).leavesOpen inFlight) rest
      inferInstanceAs (Decidable ((codec.reading payload).Orderly inFlight ∧
        codec.FragmentsEnd ((codec.reading payload).leavesOpen inFlight) rest))

theorem depacketize_reads {self : NaluDepacketizer} (listens : self.callbacks.output = true)
    (packet : ParsedPacket) :
    codec.depacketize self packet =
      self.take codec.isIDR (codec.reading packet.payload) packet.timestamp packet.marker := by
  cases codec with
  | h264 => exact H264.depacketize_reads listens packet
  | h265 => exact H265.depacketize_reads listens packet

theorem peek_keyframe_reads (payload : Bytes) :
    codec.peekKeyframe payload = (codec.reading payload).startsKeyframe codec.isIDR := by
  cases codec with
  | h264 => exact H264.peek_keyframe_reads payload
  | h265 => exact H265.peek_keyframe_reads payload

theorem reading_decided (payload : Bytes) : (codec.reading payload).Decided codec.isIDR := by
  cases codec with
  | h264 => exact H264.reading_decided payload
  | h265 => exact H265.reading_decided payload

theorem depacketize_closed {self : NaluDepacketizer} (closed : self.callbacks.output = false)
    (packet : ParsedPacket) : codec.depacketize self packet = (self, []) := by
  cases codec with
  | h264 =>
      exact if_pos (by rw [Callbacks.checkDepacketizePayload, closed, Bool.false_and]; rfl)
  | h265 =>
      exact if_pos (by rw [Callbacks.checkDepacketizePayload, closed, Bool.false_and]; rfl)

theorem run_closed {self : NaluDepacketizer} (closed : self.callbacks.output = false)
    (packets : List ParsedPacket) : run codec.depacketize self packets = (self, []) := by
  induction packets with
  | nil => rfl
  | cons packet rest ih => rw [run, depacketize_closed codec closed, ih]; rfl

theorem run_witnessed {packets : List ParsedPacket}
    (unmarked : ∀ packet ∈ packets, packet.marker = false) {inFlight seen : Bool}
    {self : NaluDepacketizer} (listens : self.callbacks.output = true)
    (before : self.Witnessed codec.isIDR inFlight seen)
    (fragmentsEnd : codec.FragmentsEnd inFlight (packets.map (·.payload))) :
    (run codec.depacketize self packets).1.sawIDR =
      (seen || packets.any fun packet => codec.peekKeyframe packet.payload) := by
  induction packets generalizing self inFlight seen with
  | nil =>
      have closed : inFlight = false := fragmentsEnd
      rw [List.any_nil, Bool.or_false, before.shown, closed, Bool.false_and, Bool.or_false]
      rfl
  | cons packet rest ih =>
      obtain ⟨orderly, later⟩ := fragmentsEnd
      have now := NaluDepacketizer.take_witnessed before orderly
        (codec.reading_decided packet.payload) packet.timestamp
      have still := NaluDepacketizer.take_callbacks codec.isIDR self
        (codec.reading packet.payload) packet.timestamp
      rw [run, depacketize_reads codec listens, unmarked packet List.mem_cons_self,
        List.any_cons, ← Bool.or_assoc, peek_keyframe_reads]
      exact ih (fun other member => unmarked other (List.mem_cons_of_mem _ member))
        (still ▸ listens) now later

theorem run_unmarked {packets : List ParsedPacket}
    (unmarked : ∀ packet ∈ packets, packet.marker = false) {self : NaluDepacketizer}
    (listens : self.callbacks.output = true) :
    (run codec.depacketize self packets).1.callbacks.output = true ∧
      ∀ chunk, .output chunk ∉ (run codec.depacketize self packets).2 := by
  induction packets generalizing self with
  | nil => exact ⟨listens, fun _ => List.not_mem_nil⟩
  | cons packet rest ih =>
      have still := NaluDepacketizer.take_callbacks codec.isIDR self
        (codec.reading packet.payload) packet.timestamp
      have marker := unmarked packet List.mem_cons_self
      rw [run, depacketize_reads codec listens, marker]
      obtain ⟨open', silent⟩ := ih
        (fun other member => unmarked other (List.mem_cons_of_mem _ member)) (still ▸ listens)
      refine ⟨open', fun chunk member => ?_⟩
      cases List.mem_append.mp member with
      | inl now => exact Bool.false_ne_true (NaluDepacketizer.take_output now).1
      | inr later => exact silent chunk later

/-- Where every unit sent in fragments ends, a chunk is a keyframe exactly when one of its
payloads alone tells so. Payloads the depacketizer refuses tell nothing. -/
theorem key_iff_peeked (self : NaluDepacketizer) {earlier : List ParsedPacket}
    {last : ParsedPacket} (unmarked : ∀ packet ∈ earlier, packet.marker = false)
    (fragmentsEnd : codec.FragmentsEnd false ((earlier ++ [last]).map (·.payload)))
    {chunk : OutputChunk}
    (handed : .output chunk ∈ (run codec.depacketize self.reset (earlier ++ [last])).2) :
    chunk.type = .key ↔ ∃ packet ∈ earlier ++ [last], codec.peekKeyframe packet.payload = true := by
  cases listens : self.callbacks.output with
  | false =>
      rw [@run_closed codec self.reset listens] at handed
      cases handed
  | true =>
      obtain ⟨still, silent⟩ := @run_unmarked codec earlier unmarked self.reset listens
      -- The marker only hands out what the last packet leaves without it.
      let unmarkedLast : ParsedPacket := { last with marker := false }
      have each : ∀ packet ∈ earlier ++ [unmarkedLast], packet.marker = false := by
        intro packet member
        cases List.mem_append.mp member with
        | inl before => exact unmarked packet before
        | inr now => rw [List.mem_singleton.mp now]
      have payloads : (earlier ++ [unmarkedLast]).map (·.payload) =
          (earlier ++ [last]).map (·.payload) := by
        rw [List.map_append, List.map_append]
        rfl
      have saw := @run_witnessed codec _ each false false self.reset listens
        (NaluDepacketizer.witnessed_reset codec.isIDR self) (payloads ▸ fragmentsEnd)
      have peeked : ((earlier ++ [unmarkedLast]).any fun packet =>
          codec.peekKeyframe packet.payload) = true ↔
          ∃ packet ∈ earlier ++ [last], codec.peekKeyframe packet.payload = true := by
        rw [List.any_append, ← List.any_eq_true, List.any_append]
        rfl
      rw [run_append, run, run, depacketize_reads codec still, Bool.false_or] at saw
      rw [run_append, run, run, depacketize_reads codec still, List.append_nil] at handed
      cases List.mem_append.mp handed with
      | inl before => exact absurd before (silent chunk)
      | inr now =>
          rw [(NaluDepacketizer.take_output now).2, ← peeked, ← saw]
          split_ifs with key
          · exact iff_of_true rfl key
          · exact iff_of_false (by decide) key

def bare (payload : Bytes) (marker : Bool) : ParsedPacket :=
  { version := 2, padding := false, extension := false, csrcCount := 0, marker := marker
    payloadType := 96, sequenceNumber := 0, timestamp := 90, ssrc := 1, csrc := []
    payload := payload, headerLength := 12, extensions := none }

/-- A keyframe in two fragments with a delta unit in a packet between them. -/
theorem key_iff_peeked_interleaved :
    ∃ packet ∈ [bare [0x62, 0x01, 0x93, 0xAA] false, bare [0x02, 0x01, 0x07] false] ++
      [bare [0x62, 0x01, 0x53, 0xBB] true], h265.peekKeyframe packet.payload = true :=
  (@key_iff_peeked h265 ⟨⟨true, true⟩, [[0x26, 0x01]], [], true⟩
    [bare [0x62, 0x01, 0x93, 0xAA] false, bare [0x02, 0x01, 0x07] false]
    (bare [0x62, 0x01, 0x53, 0xBB] true) (by decide) (by decide)
    ⟨joinAnnexB [[0x02, 0x01, 0x07], [0x26, 0x01, 0xAA, 0xBB]], 90, .key⟩ (by decide)).mp rfl

end NaluCodec

end RtpPacket.Codec
