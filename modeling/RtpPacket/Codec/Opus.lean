import RtpPacket.Codec.Audio

/-!
# Opus

One frame in each packet. The marker says that a talkspurt begins: on the first packet, and
on one whose frame is half a second later than the one before it.
-/

namespace RtpPacket.Codec.Opus

open ByteCodec Rtp Run Receive Word

set_option autoImplicit false

def clockRate : Nat := 48000

def silenceGapRtp : Nat := clockRate / 2

structure OpusPacketizer where
  base : Packetizer
  sentFirst : Bool
  lastRtpTs : Nat

namespace OpusPacketizer

def new (random : Fin 65536) (opts : PacketizerOptions) : Except String OpusPacketizer := do
  let base ← initPacketizer "OpusPacketizer" random opts
  return { base := base, sentFirst := false, lastRtpTs := 0 }

/-- A frame longer than a packet is sent all the same, with a warning. -/
def packetizeWith (withMeta : Bool) (self : OpusPacketizer) (chunk : Chunk) :
    Except String (List Packet × OpusPacketizer) := do
  validateChunk "OpusPacketizer" chunk
  let data ← chunk.frame
  let rtpTs := usToRtp chunk.timestamp clockRate
  let marker :=
    if self.sentFirst then decide (wrapUnsigned 32 ((rtpTs : Int) - self.lastRtpTs) > silenceGapRtp)
    else true
  let made := self.base.makePacket data rtpTs marker withMeta
  return ([made.1], { base := made.2, sentFirst := true, lastRtpTs := rtpTs })

def packetize := packetizeWith false

def packetizeWithMeta := packetizeWith true

end OpusPacketizer

def depacketize := Audio.depacketize

def rtpTs (chunk : Chunk) : Nat := usToRtp chunk.timestamp clockRate

def marks (last : Option Nat) (chunk : Chunk) : Bool :=
  match last with
  | none => true
  | some before => decide (wrapUnsigned 32 ((rtpTs chunk : Int) - before) > silenceGapRtp)

/-- Whether a frame begins a talkspurt, `before` being the one sent before it. -/
def begins (before : Option Chunk) (chunk : Chunk) : Bool := marks (before.map rtpTs) chunk

/-- By the caller's clock, in whole microseconds, the pause is half a second, give or take two
ticks. -/
theorem begins_iff_pause {earlier chunk : Chunk} {first second : Nat}
    (then_ : earlier.timestamp = first) (now : chunk.timestamp = second) (later : first ≤ second)
    (exact : second < 2 ^ 53) (day : second ≤ first + 86400000000) :
    (second ≤ first + 499979 → begins (some earlier) chunk = false) ∧
      (first + 500042 ≤ second → begins (some earlier) chunk = true) := by
  have apart : second * clockRate = first * clockRate + (second - first) * 48000 := by
    rw [clockRate, ← add_mul, Nat.add_sub_cancel' later]
  have gap := us_to_rtp_gap later exact (show 0 < clockRate by decide) (by decide)
    (by omega)
  have marker : begins (some earlier) chunk = true ↔
      24000 < wrapUnsigned 32 ((usToRtp second clockRate : Int) - usToRtp first clockRate) := by
    rw [begins, Option.map_some, marks, decide_eq_true_iff, rtpTs, rtpTs, then_, now]
    rfl
  constructor
  · intro short
    rw [← Bool.not_eq_true, marker]
    omega
  · intro long
    rw [marker]
    omega

def utterances (data : Chunk → Bytes) :
    Option Chunk → List Chunk → List (DepacketizerEvent AudioOutput)
  | _, [] => []
  | before, chunk :: rest =>
      (if data chunk = [] then []
        else [.output
          { data := data chunk
            timestamp := rtpTs chunk
            type := .key
            marker := begins before chunk }]) ++ utterances data (some chunk) rest

def describe (data : Chunk → Bytes) (last : Option Nat) (chunk : Chunk) : List Outgoing :=
  [{ payload := data chunk, timestamp := rtpTs chunk, marker := marks last chunk }]

def OpusPacketizer.last (self : OpusPacketizer) : Option Nat :=
  if self.sentFirst then some self.lastRtpTs else none

theorem describe_timestamps (data : Chunk → Bytes) (last : Option Nat) (chunk : Chunk) :
    ∀ out ∈ describe data last chunk, out.timestamp < 2 ^ 32 := by
  intro out member
  rw [List.mem_singleton.mp member]
  exact wrap_unsigned_lt 32 _

theorem packetize_sends {data : Chunk → Bytes} {chunk : Chunk}
    (carries : chunk.data = some (data chunk)) (self : OpusPacketizer) :
    ∃ packets after, Sends OpusPacketizer.packetize (·.base) (·.last) (describe data)
      (fun _ chunk => some (rtpTs chunk)) self chunk packets after := by
  obtain ⟨valid, frame⟩ := Chunk.accepted carries "OpusPacketizer"
  let made := self.base.makePacket (data chunk) (rtpTs chunk) (marks self.last chunk) false
  refine ⟨[made.1], ⟨made.2, true, rtpTs chunk⟩, ?_, rfl, rfl⟩
  rw [OpusPacketizer.packetize, OpusPacketizer.packetizeWith, valid, frame]
  dsimp only [made]
  rw [OpusPacketizer.last]
  cases self.sentFirst <;> rfl

theorem described_utterances (data : Chunk → Bytes) (before : Option Chunk) (chunks : List Chunk) :
    ((describeAll (describe data) (fun _ chunk => some (rtpTs chunk)) (before.map rtpTs)
      chunks).flatten.flatMap fun out =>
        if out.payload = [] then []
        else [.output ⟨out.payload, out.timestamp, .key, out.marker⟩]) =
      utterances data before chunks := by
  induction chunks generalizing before with
  | nil => rfl
  | cons chunk rest ih =>
      have later := ih (some chunk)
      rw [describeAll, List.flatten_cons, List.flatMap_append, describe, List.flatMap_singleton,
        utterances, ← later]
      rfl

/-- Whatever packets come, frames are handed out whole, in order and once, each with its
time and whether a talkspurt begins with it; without a loss the first ones, and all of them
in the end. -/
structure PlaysFrames (data : Chunk → Bytes) (chunks : List Chunk) (sender : OpusPacketizer)
    (state : Callbacks) {seq : Nat}
    (reception : Reception seq (sentPackets OpusPacketizer.packetize sender chunks)) : Prop where
  survivors : Survivors OpusPacketizer.packetize sender chunks reception.played
  some_frames : (handedOutAudio depacketize state reception).Sublist (utterances data none chunks)
  first_frames : reception.Unbroken →
    handedOutAudio depacketize state reception <+: utterances data none chunks
  all_frames : reception.Unbroken → reception.Complete →
    handedOutAudio depacketize state reception = utterances data none chunks

/-- A stream of Opus behind the jitter buffer, and the pauses that its markers show. -/
theorem opus_plays {chunks : List Chunk} (data : Chunk → Bytes)
    (carries : ∀ chunk ∈ chunks, chunk.data = some (data chunk)) {random : Fin 65536}
    {opts : PacketizerOptions} {self : OpusPacketizer}
    (packetizer : OpusPacketizer.new random opts = .ok self) {error : Bool} {state : Callbacks}
    (fresh : initDepacketizer "OpusDepacketizer" ⟨true, error⟩ = .ok state)
    (reception : Reception self.base.seq (sentPackets OpusPacketizer.packetize self chunks)) :
    PlaysFrames data chunks self state reception ∧
      ∀ (earlier chunk : Chunk) (first second : Nat), earlier.timestamp = first →
        chunk.timestamp = second → first ≤ second → second < 2 ^ 53 →
        second ≤ first + 86400000000 →
        (second ≤ first + 499979 → begins (some earlier) chunk = false) ∧
          (first + 500042 ≤ second → begins (some earlier) chunk = true) := by
  refine ⟨?_, fun earlier chunk first second => begins_iff_pause⟩
  have listening : state.output = true := by
    cases fresh
    rfl
  have unsent : self.last = none := by
    rw [OpusPacketizer.new] at packetizer
    cases base : initPacketizer "OpusPacketizer" random opts with
    | error message =>
        rw [base] at packetizer
        cases packetizer
    | ok made =>
        rw [base] at packetizer
        cases packetizer
        rfl
  have sends (chunk : Chunk) (member : chunk ∈ chunks) := packetize_sends (carries chunk member)
  obtain ⟨described, survivors⟩ := survivors_iff (describe_timestamps data) sends self
  have consecutive : Consecutive self.base.seq
      (sentPackets OpusPacketizer.packetize self chunks) :=
    sent_packets_numbered (describe_timestamps data) sends self
  have whole : (run depacketize state
      (sentPackets OpusPacketizer.packetize self chunks)).2 = utterances data none chunks := by
    rw [depacketize, Audio.run_depacketize listening, ← described_utterances, Option.map_none,
      ← unsent, ← described, List.flatMap_map]
    rfl
  constructor
  · exact (survivors _).mpr (reception.played_sublist consecutive)
  · rw [handedOutAudio, ← whole, depacketize, Audio.run_depacketize listening,
      Audio.run_depacketize listening]
    exact (reception.packets_sublist consecutive).flatMap _
  · intro unbroken
    rw [handedOutAudio, Reception.packets_first consecutive unbroken, ← whole, depacketize,
      Audio.run_depacketize listening, Audio.run_depacketize listening]
    exact (List.take_prefix _ _).flatMap _
  · intro unbroken complete
    rw [handedOutAudio, Reception.packets_all consecutive unbroken complete, whole]

def pausedFrames : List Chunk :=
  [⟨some [1], none, 0⟩, ⟨some [2, 3], none, 20000⟩, ⟨some [4], none, 1020000⟩]

def newOpus : OpusPacketizer := ⟨smallPackets, false, 0⟩

theorem paused_frames_packets :
    (sentPackets OpusPacketizer.packetize newOpus pausedFrames).length = 3 := by
  decide +kernel

theorem opus_plays_paused :
    ∃ reception : Reception newOpus.base.seq
        (sentPackets OpusPacketizer.packetize newOpus pausedFrames),
      reception.actions = reordered _ paused_frames_packets ++ [.flush 100] ∧
        handedOutAudio depacketize ⟨true, false⟩ reception =
          [.output ⟨[1], 0, .key, true⟩, .output ⟨[2, 3], 960, .key, false⟩,
            .output ⟨[4], 48960, .key, true⟩] := by
  have carries : ∀ chunk ∈ pausedFrames, chunk.data = some (chunk.data.getD []) := by
    simp [pausedFrames]
  obtain ⟨reception, same, unbroken, complete⟩ :=
    @reordered_reception newOpus.base.seq _ paused_frames_packets (by decide +kernel)
      (by decide +kernel) (by decide +kernel)
  have plays := (@opus_plays pausedFrames (fun chunk => chunk.data.getD []) carries 65535
    ⟨1, 96, some 100, none⟩ newOpus rfl false ⟨true, false⟩ rfl reception).1
  have all : utterances (fun chunk => chunk.data.getD []) none pausedFrames =
      [.output ⟨[1], 0, .key, true⟩, .output ⟨[2, 3], 960, .key, false⟩,
        .output ⟨[4], 48960, .key, true⟩] := by
    decide +kernel
  exact ⟨reception, same, (plays.all_frames unbroken complete).trans all⟩

end RtpPacket.Codec.Opus
