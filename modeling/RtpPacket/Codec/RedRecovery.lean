import RtpPacket.Codec.Fragments
import RtpPacket.Codec.Red
import RtpPacket.Lib.Redundancy
import RtpPacket.Lib.SerialNumber

/-!
# RED streams under loss

Packets are lost and repeated, but never more of them in a row than the copies a frame
has. Then every frame comes out, once and in order. The argument is that of
`Redundancy`, with timestamps as keys; the rest of the module connects the packetizer
and the depacketizer to it.
-/

namespace RtpPacket.Codec.Red

open ByteCodec Redundancy Rtp Run SerialNumber Word

set_option autoImplicit false

/-- Timestamps that move by steps the offset field can tell, `redundancy` of them together. -/
structure Paced (redundancy : Nat) (times : List Nat) : Prop where
  step : ∀ step ∈ steps (2 ^ 32) times, 1 ≤ step ∧ step ≤ 16383
  reach : ∀ window, window <:+: steps (2 ^ 32) times → window.length ≤ redundancy →
    window.sum ≤ 16383

theorem sum_bounds {numbers : List Nat} {bound : Nat}
    (each : ∀ number ∈ numbers, 1 ≤ number ∧ number ≤ bound) :
    numbers.length ≤ numbers.sum ∧ numbers.sum ≤ numbers.length * bound := by
  induction numbers with
  | nil => simp
  | cons number numbers ih =>
      obtain ⟨least, most⟩ := ih fun other member => each other (List.mem_cons_of_mem _ member)
      obtain ⟨positive, small⟩ := each number List.mem_cons_self
      rw [List.sum_cons, List.length_cons, Nat.succ_mul]
      omega

section Timeline

variable {redundancy : Nat} {times : List Nat}

theorem Paced.distance (paced : Paced redundancy times) (bounded : ∀ time ∈ times, time < 2 ^ 32)
    {first last : Nat} {between : List Nat} (inside : first :: (between ++ [last]) <:+: times)
    (short : between.length < 2 ^ 18 - 1) :
    SerialNumber.distance (2 ^ 32) first last =
        (steps (2 ^ 32) (first :: (between ++ [last]))).sum ∧
      1 ≤ SerialNumber.distance (2 ^ 32) first last := by
  have length : (steps (2 ^ 32) (first :: (between ++ [last]))).length = between.length + 1 := by
    rw [steps_length]
    simp
  obtain ⟨least, most⟩ := sum_bounds fun step member =>
    paced.step step ((steps_within inside).subset member)
  rw [length] at least most
  have apart := distance_eq_sum (fun time member => bounded time (inside.subset member))
    (by omega)
  exact ⟨apart, by omega⟩

theorem Paced.near (paced : Paced redundancy times) (bounded : ∀ time ∈ times, time < 2 ^ 32)
    (few : redundancy ≤ 63) {first last : Nat} {between : List Nat}
    (inside : first :: (between ++ [last]) <:+: times) (short : between.length < redundancy) :
    SerialNumber.distance (2 ^ 32) first last ≤ 16383 := by
  rw [(paced.distance bounded inside (by omega)).1]
  apply paced.reach _ (steps_within inside)
  rw [steps_length]
  simpa using short

theorem Paced.apart (paced : Paced redundancy times) (bounded : ∀ time ∈ times, time < 2 ^ 32) :
    Apart id 128 times := by
  intro window inside short
  rw [List.map_id]
  apply pairwise_of_spans
  intro first between last span same
  have length := span.length_le
  simp only [List.length_cons, List.length_append, List.length_nil] at length
  have positive := (paced.distance bounded (span.trans inside) (by omega)).2
  have bound := bounded last ((span.trans inside).subset (by simp))
  rw [same, distance_self bound] at positive
  omega

end Timeline

theorem wrap_sub_wrap_sub {base : Nat} (baseBound : base < 2 ^ 32) (value : Nat) :
    wrapUnsigned 32 (value - wrapUnsigned 32 (value - base)) = base := by
  zify
  rw [wrap_unsigned_cast, wrap_unsigned_cast]
  omega

theorem sorts_before {first second : Nat} (firstBound : first < 2 ^ 32)
    (secondBound : second < 2 ^ 32)
    (near : SerialNumber.distance (2 ^ 32) first second ≤ 16383) :
    toInt32 (first - second) ≤ 0 := by
  rw [distance_cases firstBound secondBound] at near
  rw [toInt32, Int.bmod_def]
  split_ifs at near ⊢ <;> omega

def Frame.redundant (h : Frame) (rtpTs : Nat) : Redundant where
  off := wrapUnsigned 32 (rtpTs - h.rtpTs)
  data := h.data

/-- A packet whose payload is the last of these frames behind copies of the others. -/
def Holds (innerPt : Nat) (out : Outgoing) (items : List Frame) : Prop :=
  ∃ before frame, items = before ++ [frame] ∧ out.timestamp = frame.rtpTs ∧
    out.payload = payload innerPt (before.map (·.redundant frame.rtpTs)) frame.data

def Copied (redundancy : Nat) (frames : List Frame) : Prop :=
  ∀ first between last, first :: (between ++ [last]) <:+: frames → between.length < redundancy →
    (first.redundant last.rtpTs).Fits

section Sending

variable (clockRate : Nat) (data : Chunk → Bytes)

def frameOf (chunk : Chunk) : Frame where
  rtpTs := usToRtp chunk.timestamp clockRate
  data := data chunk

def describe (self : REDPacketizer) (chunk : Chunk) : List Outgoing :=
  let frame := frameOf self.clockRate data chunk
  [{ payload := payload self.innerPt (self.blocks frame.rtpTs) frame.data
     timestamp := frame.rtpTs
     marker := !self.sentFirst }]

def next (self : REDPacketizer) (chunk : Chunk) : REDPacketizer :=
  (self.send (data chunk) (usToRtp chunk.timestamp self.clockRate) false).2

variable {clockRate data}

theorem packetize_sends {chunk : Chunk} (carries : chunk.data = some (data chunk))
    (self : REDPacketizer) :
    ∃ packets after, Sends REDPacketizer.packetize (·.base) id (describe data) (next data)
      self chunk packets after := by
  obtain ⟨valid, frame⟩ := Chunk.accepted carries "REDPacketizer"
  refine ⟨_, next data self chunk, ?_, rfl, rfl⟩
  rw [REDPacketizer.packetize, REDPacketizer.packetizeWith, valid, frame]
  rfl

theorem blocks_eq {self : REDPacketizer} {sent rest : List Frame} {frame : Frame}
    (history : self.history = sent.rtake (max 1 self.redundancy))
    (copied : Copied self.redundancy (sent ++ frame :: rest)) :
    self.blocks frame.rtpTs =
      (sent.rtake self.redundancy).map (·.redundant frame.rtpTs) := by
  have newest : self.history.drop (self.history.length - self.redundancy) =
      sent.rtake self.redundancy := by
    rw [history]
    exact rtake_rtake sent (Nat.le_max_right 1 self.redundancy)
  rw [REDPacketizer.blocks, newest, ← List.filterMap_eq_map]
  apply List.filterMap_congr
  intro h member
  obtain ⟨left, right, split, short⟩ := mem_rtake member
  have fits := copied h right frame ⟨left, rest, by rw [split]; simp⟩ short
  have off : ¬wrapUnsigned 32 (frame.rtpTs - h.rtpTs) > maxTsOffset := Nat.not_lt.mpr fits.off
  have length : ¬h.data.length > maxBlockLen := Nat.not_lt.mpr fits.length
  simp only [off, length, if_false]
  rfl

theorem describe_holds {chunks : List Chunk} {self : REDPacketizer} {sent : List Frame}
    (history : self.history = sent.rtake (max 1 self.redundancy))
    (copied : Copied self.redundancy (sent ++ chunks.map (frameOf self.clockRate data))) :
    List.Forall₂ (Holds self.innerPt)
      (describeAll (describe data) (next data) self chunks).flatten
      (carried self.redundancy sent (chunks.map (frameOf self.clockRate data))) := by
  induction chunks generalizing self sent with
  | nil => exact .nil
  | cons chunk rest ih =>
      have kept : (next data self chunk).history =
          (sent ++ [frameOf self.clockRate data chunk]).rtake
            (max 1 (next data self chunk).redundancy) := by
        have same : (next data self chunk).redundancy = self.redundancy := rfl
        rw [same, ← rtake_rtake_append, ← history]
        rfl
      have moved : Copied self.redundancy (sent ++ [frameOf self.clockRate data chunk] ++
          rest.map (frameOf self.clockRate data)) := by
        rw [List.append_assoc]
        exact copied
      have later := ih kept moved
      have blocks := blocks_eq history copied
      exact .cons ⟨_, _, rfl, rfl, by rw [blocks]⟩ later

end Sending

def HandsOut (innerPt : Nat) (event : DepacketizerEvent PseudoPacket) (frame : Frame) : Prop :=
  ∃ packet, event = .output packet ∧ packet.payloadType = innerPt ∧
    packet.timestamp = frame.rtpTs ∧ packet.payload = frame.data

/-- Frames that can share a packet: copies fit, timestamps ascend and differ. -/
structure Packable (items : List Frame) : Prop where
  bounded : ∀ frame ∈ items, frame.rtpTs < 2 ^ 32
  fits : items.Pairwise fun first last => (first.redundant last.rtpTs).Fits
  nodup : (items.map Frame.rtpTs).Nodup

def entryOf (innerPt : Nat) (last : Frame) (isPrimary : Bool) (frame : Frame) : Entry where
  ts := frame.rtpTs
  blk :=
    { pt := innerPt
      tsOffset := if isPrimary then 0 else wrapUnsigned 32 (last.rtpTs - frame.rtpTs)
      data := frame.data
      isPrimary := isPrimary }

theorem remember_all {entries : List Entry} (nodup : (entries.map Entry.ts).Nodup)
    {self : REDDepacketizer} (unseen : ∀ entry ∈ entries, entry.ts ∉ self.seen)
    (short : self.seen.length ≤ self.seenMax) :
    entries.foldl (fun current entry => current.remember entry.ts) self =
      { self with seen := (self.seen ++ entries.map Entry.ts).rtake self.seenMax } := by
  induction entries generalizing self with
  | nil =>
      rw [List.map_nil, List.append_nil, List.rtake, Nat.sub_eq_zero_of_le short]
      rfl
  | cons entry entries ih =>
      obtain ⟨notLater, laterNodup⟩ := List.nodup_cons.mp nodup
      have remembered : self.remember entry.ts =
          { self with seen := (self.seen ++ [entry.ts]).rtake self.seenMax } := by
        rw [REDDepacketizer.remember, if_neg (unseen entry List.mem_cons_self)]
        rfl
      have laterUnseen : ∀ other ∈ entries,
          other.ts ∉ (self.seen ++ [entry.ts]).rtake self.seenMax := by
        intro other member seen
        cases List.mem_append.mp ((rtake_suffix _ _).subset seen) with
        | inl old => exact unseen other (List.mem_cons_of_mem _ member) old
        | inr new =>
            rw [← List.mem_singleton.mp new] at notLater
            exact notLater (List.mem_map_of_mem member)
      have later := @ih laterNodup
        { self with seen := (self.seen ++ [entry.ts]).rtake self.seenMax } laterUnseen
        (rtake_length_le _ _)
      rw [List.foldl_cons, remembered, later, List.map_cons]
      simp only [rtake_rtake_append, List.append_assoc, List.singleton_append]

theorem filter_map_unless {Item Result : Type} (skip : Item → Prop) [DecidablePred skip]
    (build : Item → Result) (items : List Item) :
    items.filterMap (fun item => if skip item then none else some (build item)) =
      (items.filter fun item => ¬skip item).map build := by
  induction items with
  | nil => rfl
  | cons item items ih =>
      by_cases skipped : skip item
      · simp [skipped, ih]
      · simp [skipped, ih]

theorem fresh_times (innerPt : Nat) (before : List Frame) (frame : Frame) (seen : List Nat) :
    ((before.filter (·.rtpTs ∉ seen)).map (entryOf innerPt frame false) ++
        ([frame].filter (·.rtpTs ∉ seen)).map (entryOf innerPt frame true)).map Entry.ts =
      ((before ++ [frame]).filter (·.rtpTs ∉ seen)).map Frame.rtpTs := by
  rw [List.map_append, List.map_map, List.map_map, List.filter_append, List.map_append]
  rfl

theorem Packable.sorted {items : List Frame} (packable : Packable items) (seen : List Nat) :
    ((items.filter (·.rtpTs ∉ seen)).map Frame.rtpTs).Pairwise
      fun (first second : Nat) => toInt32 ((first : Int) - second) ≤ 0 := by
  apply List.Pairwise.sublist (List.filter_sublist.map Frame.rtpTs)
  rw [List.pairwise_map]
  apply packable.fits.imp_of_mem
  intro first second firstMember secondMember fits
  have firstBound := packable.bounded first firstMember
  have secondBound := packable.bounded second secondMember
  have near := fits.off
  rw [Frame.redundant, wrap_sub_eq_distance firstBound secondBound] at near
  exact sorts_before firstBound secondBound near

theorem fresh_eq {self : REDDepacketizer} {innerPt : Nat} {before : List Frame} {frame : Frame}
    (packable : Packable (before ++ [frame])) :
    self.fresh frame.rtpTs ((before.map (·.redundant frame.rtpTs)).map (·.block innerPt) ++
        [{ pt := innerPt, tsOffset := 0, data := frame.data, isPrimary := true }]) =
      (before.filter (·.rtpTs ∉ self.seen)).map (entryOf innerPt frame false) ++
        ([frame].filter (·.rtpTs ∉ self.seen)).map (entryOf innerPt frame true) := by
  have bounded : frame.rtpTs < 2 ^ 32 := packable.bounded frame (by simp)
  have copies : ((before.map (·.redundant frame.rtpTs)).map (·.block innerPt)).filterMap
      (fun blk =>
        let ts := wrapUnsigned 32 (frame.rtpTs - blk.tsOffset)
        if ts ∈ self.seen then none else some ({ ts := ts, blk := blk } : Entry)) =
      (before.filter (·.rtpTs ∉ self.seen)).map (entryOf innerPt frame false) := by
    rw [List.filterMap_map, List.filterMap_map, ← filter_map_unless]
    apply List.filterMap_congr
    intro h member
    have back := wrap_sub_wrap_sub (packable.bounded h (by simp [member])) frame.rtpTs
    simp only [Function.comp_apply, Frame.redundant, Redundant.block, entryOf, back]
    rfl
  have own : ([{ pt := innerPt, tsOffset := 0, data := frame.data, isPrimary := true }] :
      List Block).filterMap
      (fun blk =>
        let ts := wrapUnsigned 32 (frame.rtpTs - blk.tsOffset)
        if ts ∈ self.seen then none else some ({ ts := ts, blk := blk } : Entry)) =
      ([frame].filter (·.rtpTs ∉ self.seen)).map (entryOf innerPt frame true) := by
    rw [← filter_map_unless]
    have back : wrapUnsigned 32 ((frame.rtpTs : Int) - (0 : Nat)) = frame.rtpTs := by
      rw [Nat.cast_zero, sub_zero, wrap_unsigned_of_lt bounded]
    simp only [List.filterMap_cons, List.filterMap_nil, back]
    rfl
  rw [REDDepacketizer.fresh, List.filterMap_append, copies, own]
  apply List.Pairwise.insertionSort_eq
  have sorted := packable.sorted self.seen
  rw [← fresh_times innerPt, List.pairwise_map] at sorted
  exact sorted

theorem depacketize_holds {innerPt : Nat} (range : innerPt < 128) {packet : ParsedPacket}
    {items : List Frame} (holds : Holds innerPt packet.outgoing items)
    (packable : Packable items) {self : REDDepacketizer}
    (listening : self.callbacks.output = true) (short : self.seen.length ≤ self.seenMax) :
    (self.depacketize packet).1 =
        { self with seen := (receive Frame.rtpTs self.seenMax self.seen items).1 } ∧
      List.Forall₂ (HandsOut innerPt) (self.depacketize packet).2
        (receive Frame.rtpTs self.seenMax self.seen items).2 := by
  obtain ⟨before, frame, rfl, time, payload⟩ := holds
  have fits : ∀ blk ∈ before.map (·.redundant frame.rtpTs), blk.Fits := by
    intro blk member
    obtain ⟨h, hMember, rfl⟩ := List.mem_map.mp member
    exact (List.pairwise_append.mp packable.fits).2.2 h hMember frame (by simp)
  have parsed : parseRed packet.payload = _ := payload ▸ parse_red_payload range fits frame.data
  have nonempty : 1 ≤ packet.payload.length := by
    have bytes : packet.payload = _ := payload
    rw [bytes, Red.payload, List.length_append, List.length_cons]
    omega
  have times := fresh_times innerPt before frame self.seen
  have remembered := @remember_all _
    (times ▸ packable.nodup.sublist (List.filter_sublist.map Frame.rtpTs)) self
    (by
      intro entry member seen
      have inside := List.mem_map_of_mem (f := Entry.ts) member
      rw [times] at inside
      obtain ⟨item, itemMember, same⟩ := List.mem_map.mp inside
      have unseen := of_decide_eq_true (List.mem_filter.mp itemMember).2
      exact unseen (same ▸ seen)) short
  have timestamp : packet.timestamp = frame.rtpTs := time
  rw [REDDepacketizer.depacketize, Callbacks.checkDepacketizePayload, listening, parsed, timestamp]
  simp only [nonempty, decide_true, Bool.and_self, Bool.not_true, Bool.false_eq_true, if_false,
    fresh_eq packable, remembered, times]
  refine ⟨rfl, ?_⟩
  rw [receive, List.filter_append, List.map_append]
  apply List.rel_append
  · rw [List.map_map, List.forall₂_map_left_iff]
    exact List.forall₂_same.mpr fun item _ => ⟨_, rfl, rfl, rfl, rfl⟩
  · rw [List.map_map, List.forall₂_map_left_iff]
    exact List.forall₂_same.mpr fun item _ => ⟨_, rfl, rfl, rfl, rfl⟩

structure Tracks (state : REDDepacketizer) (seen : List Nat) : Prop where
  listening : state.callbacks.output = true
  width : state.seenMax = 64
  same : state.seen = seen
  short : seen.length ≤ 64

theorem Tracks.step {innerPt : Nat} (range : innerPt < 128) {state : REDDepacketizer}
    {seen : List Nat} (tracks : Tracks state seen) {packet : ParsedPacket} {items : List Frame}
    (holds : Holds innerPt packet.outgoing items) (packable : Packable items) :
    Tracks (state.depacketize packet).1 (receive Frame.rtpTs 64 seen items).1 ∧
      List.Forall₂ (HandsOut innerPt) (state.depacketize packet).2
        (receive Frame.rtpTs 64 seen items).2 := by
  obtain ⟨listening, width, rfl, short⟩ := tracks
  obtain ⟨after, handed⟩ := depacketize_holds range holds packable listening (width ▸ short)
  rw [width] at after handed
  rw [after]
  exact ⟨⟨listening, rfl, rfl, rtake_length_le _ _⟩, handed⟩

section Stream

variable {redundancy : Nat} {frames : List Frame}

theorem copied_of_paced (few : redundancy ≤ 63)
    (paced : Paced redundancy (frames.map Frame.rtpTs))
    (bounded : ∀ frame ∈ frames, frame.rtpTs < 2 ^ 32)
    (short : ∀ frame ∈ frames, frame.data.length ≤ 1023) : Copied redundancy frames := by
  intro first between last inside near
  have firstMember : first ∈ frames := inside.subset (by simp)
  have lastMember : last ∈ frames := inside.subset (by simp)
  have times : ∀ time ∈ frames.map Frame.rtpTs, time < 2 ^ 32 := by
    intro time member
    obtain ⟨frame, frameMember, rfl⟩ := List.mem_map.mp member
    exact bounded frame frameMember
  have span : first.rtpTs :: (between.map Frame.rtpTs ++ [last.rtpTs]) <:+:
      frames.map Frame.rtpTs := by
    simpa using inside.map Frame.rtpTs
  constructor
  · rw [Frame.redundant, wrap_sub_eq_distance (bounded first firstMember)
      (bounded last lastMember)]
    exact paced.near times few span (by simpa using near)
  · exact short first firstMember

theorem apart_of_paced (few : redundancy ≤ 63)
    (paced : Paced redundancy (frames.map Frame.rtpTs))
    (bounded : ∀ frame ∈ frames, frame.rtpTs < 2 ^ 32) :
    Apart Frame.rtpTs (64 + redundancy + 1) frames := by
  have times : ∀ time ∈ frames.map Frame.rtpTs, time < 2 ^ 32 := by
    intro time member
    obtain ⟨frame, frameMember, rfl⟩ := List.mem_map.mp member
    exact bounded frame frameMember
  intro window inside near
  have nodup := paced.apart times _ (inside.map Frame.rtpTs) (by rw [List.length_map]; omega)
  rwa [List.map_id] at nodup

theorem packable_of_carried (copied : Copied redundancy frames)
    (apart : Apart Frame.rtpTs (64 + redundancy + 1) frames)
    (bounded : ∀ frame ∈ frames, frame.rtpTs < 2 ^ 32) {items : List Frame}
    (member : items ∈ carried redundancy [] frames) : Packable items := by
  obtain ⟨inside, short⟩ := carried_infix member
  rw [List.nil_append] at inside
  refine ⟨fun frame frameMember => bounded frame (inside.subset frameMember), ?_,
    apart items inside (by omega)⟩
  apply pairwise_of_spans
  intro first between last span
  apply copied first between last (span.trans inside)
  have length := span.length_le
  simp only [List.length_cons, List.length_append, List.length_nil] at length
  omega

end Stream

theorem new_history {random : Fin 0x10000} {opts : Options} {self : REDPacketizer}
    (made : REDPacketizer.new random opts = .ok self) : self.history = [] := by
  rw [REDPacketizer.new] at made
  cases base : initPacketizer "REDPacketizer" random opts.toPacketizerOptions with
  | error message =>
      rw [base] at made
      cases made
  | ok packetizer =>
      rw [base] at made
      cases inner : opts.innerPayloadType with
      | none =>
          rw [inner] at made
          cases made
      | some innerPayloadType =>
          rw [inner] at made
          cases made
          rfl

theorem describe_timestamps (data : Chunk → Bytes) (self : REDPacketizer) (chunk : Chunk) :
    ∀ out ∈ describe data self chunk, out.timestamp < 2 ^ 32 := by
  intro out member
  rw [List.mem_singleton.mp member]
  exact wrap_unsigned_lt 32 _

theorem red_recovers {random : Fin 0x10000} {opts : Options} {self : REDPacketizer}
    (made : REDPacketizer.new random opts = .ok self) (few : self.redundancy ≤ 63)
    {chunks : List Chunk} (data : Chunk → Bytes)
    (carries : ∀ chunk ∈ chunks, chunk.data = some (data chunk))
    (short : ∀ chunk ∈ chunks, (data chunk).length ≤ 1023)
    (paced : Paced self.redundancy (chunks.map fun chunk => usToRtp chunk.timestamp self.clockRate))
    {copies : List Nat} (length : copies.length = chunks.length)
    (recoverable : Recoverable self.redundancy copies) {error : Bool}
    {depacketizer : REDDepacketizer}
    (fresh : REDDepacketizer.new ⟨true, error⟩ none = .ok depacketizer) :
    ∃ (sent : List (List Packet)) (last : REDPacketizer) (received : List (List ParsedPacket)),
      packetizeAll REDPacketizer.packetize self chunks = .ok (sent, last) ∧
      sent.map (·.map fun packet => parse packet.bytes) = received.map (·.map some) ∧
      received.flatten.length = chunks.length ∧
      List.Forall₂ (HandsOut self.innerPt)
        (run REDDepacketizer.depacketize depacketizer (deliver received.flatten copies)).2
        (chunks.map (frameOf self.clockRate data)) := by
  have history : self.history = [] := new_history made
  have bounded : ∀ frame ∈ chunks.map (frameOf self.clockRate data), frame.rtpTs < 2 ^ 32 := by
    intro frame member
    obtain ⟨chunk, _, rfl⟩ := List.mem_map.mp member
    exact wrap_unsigned_lt 32 _
  have lengths : ∀ frame ∈ chunks.map (frameOf self.clockRate data), frame.data.length ≤ 1023 := by
    intro frame member
    obtain ⟨chunk, chunkMember, rfl⟩ := List.mem_map.mp member
    exact short chunk chunkMember
  have times : Paced self.redundancy
      ((chunks.map (frameOf self.clockRate data)).map Frame.rtpTs) := by
    rw [List.map_map]
    exact paced
  have copied := copied_of_paced few times bounded lengths
  have apart := apart_of_paced few times bounded
  obtain ⟨sent, last, received, packetized, parsed, described, _⟩ :=
    packetize_all_arrives (describe_timestamps data)
      (fun chunk member before => packetize_sends (carries chunk member) before) self
  have outs : received.flatten.map (·.outgoing) =
      (describeAll (describe data) (next data) self chunks).flatten := by
    rw [List.map_flatten, described]
    rfl
  have held : List.Forall₂ (fun packet items => Holds self.innerPt packet.outgoing items)
      received.flatten (carried self.redundancy [] (chunks.map (frameOf self.clockRate data))) := by
    rw [← List.forall₂_map_left_iff, outs]
    exact describe_holds (by rw [history, List.rtake_nil]) copied
  have packed : List.Forall₂
      (fun packet items => Holds self.innerPt packet.outgoing items ∧ Packable items)
      received.flatten (carried self.redundancy [] (chunks.map (frameOf self.clockRate data))) := by
    have both := (List.forall₂_and_left _ _).mpr
      ⟨fun items member => packable_of_carried copied apart bounded member, held.flip⟩
    exact both.flip.imp fun _ _ pair => ⟨pair.2, pair.1⟩
  refine ⟨sent, last, received, packetized, parsed, ?_, ?_⟩
  · rw [held.length_eq, carried_length, List.length_map]
  · have once := every_item_once (show self.redundancy < 64 by omega)
      (by rw [length, List.length_map]) recoverable apart
    rw [← once]
    have start : Tracks depacketizer [] := by
      cases fresh
      exact ⟨rfl, rfl, rfl, by simp⟩
    exact run_simulates Tracks
      (fun _ _ _ _ tracks pair => tracks.step self.inner_pt_range pair.1 pair.2)
      (deliver_forall₂ packed copies) start

def opusOptions : Options where
  ssrc := 1
  payloadType := 63
  mtu := none
  initialSequenceNumber := some 65535
  innerPayloadType := some 111
  redundancy := some 3
  clockRate := none

def opusPacketizer : REDPacketizer where
  base :=
    { mtu := 1400
      ssrc := 1
      payloadType := 63
      seq := 65535
      mtu_range := by decide
      payload_type_range := by decide
      seq_range := last_number_lt }
  innerPt := 111
  redundancy := 3
  clockRate := 48000
  history := []
  sentFirst := false
  inner_pt_range := by decide

theorem opus_packetizer_new : REDPacketizer.new 0 opusOptions = .ok opusPacketizer := rfl

def opusFrame (data : Bytes) (timestamp : Rat) : Chunk where
  data := some data
  nalus := none
  timestamp := timestamp

/-- The first packet is lost and the second arrives twice. -/
theorem red_recovers_first :
    ∃ (sent : List (List Packet)) (last : REDPacketizer) (received : List (List ParsedPacket)),
      packetizeAll REDPacketizer.packetize opusPacketizer
        [opusFrame [1, 2] 0, opusFrame [3] 20000] = .ok (sent, last) ∧
      sent.map (·.map fun packet => parse packet.bytes) = received.map (·.map some) ∧
      List.Forall₂ (HandsOut 111)
        (run REDDepacketizer.depacketize ⟨⟨true, false⟩, [], 64⟩
          (deliver received.flatten [0, 2])).2
        [⟨usToRtp 0 48000, [1, 2]⟩, ⟨usToRtp 20000 48000, [3]⟩] := by
  have paced : Paced opusPacketizer.redundancy
      ([opusFrame [1, 2] 0, opusFrame [3] 20000].map fun chunk =>
        usToRtp chunk.timestamp opusPacketizer.clockRate) := by
    constructor
    · decide +kernel
    · intro window inside _
      exact (inside.sublist.sum_le_sum (by simp)).trans (by decide +kernel)
  have recoverable : Recoverable opusPacketizer.redundancy [0, 2] := by
    constructor
    · intro inside
      exact absurd inside.length_le (by decide)
    · decide
  obtain ⟨sent, last, received, packetized, parsed, _, handed⟩ :=
    red_recovers opus_packetizer_new (by decide) (fun chunk => chunk.data.getD [])
      (by simp [opusFrame]) (by simp [opusFrame]) paced rfl recoverable
      (show REDDepacketizer.new ⟨true, false⟩ none = .ok ⟨⟨true, false⟩, [], 64⟩ from rfl)
  exact ⟨sent, last, received, packetized, parsed, handed⟩

def slowFrames : List Chunk := [opusFrame [1] 0, opusFrame [2] 200000, opusFrame [3] 400000]

theorem red_loses_slow_frame :
    (∀ step ∈ steps (2 ^ 32) (slowFrames.map fun chunk => usToRtp chunk.timestamp 48000),
      1 ≤ step ∧ step ≤ 16383) ∧
    (∀ window, window <:+: steps (2 ^ 32)
        (slowFrames.map fun chunk => usToRtp chunk.timestamp 48000) →
      window.length = 3 → window.sum ≤ 16383) ∧
    Recoverable 3 [0, 0, 1] ∧
    ∃ sent last, packetizeAll REDPacketizer.packetize opusPacketizer slowFrames =
        .ok (sent, last) ∧
      ¬List.Forall₂ (HandsOut 111)
        (run REDDepacketizer.depacketize ⟨⟨true, false⟩, [], 64⟩
          (deliver (sent.flatten.filterMap fun packet => parse packet.bytes) [0, 0, 1])).2
        (slowFrames.map (frameOf 48000 fun chunk => chunk.data.getD [])) := by
  refine ⟨by decide +kernel, ?_, ?_, _, _, rfl, ?_⟩
  · intro window inside length
    have short := inside.length_le
    rw [length, steps_length] at short
    exact absurd short (by decide)
  · constructor
    · intro inside
      exact absurd inside.length_le (by decide)
    · decide
  · intro handed
    exact absurd handed.length_eq (by decide +kernel)

end RtpPacket.Codec.Red
