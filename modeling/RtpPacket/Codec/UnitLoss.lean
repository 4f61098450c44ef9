import RtpPacket.Codec.AccessUnits
import RtpPacket.Lib.Parts

/-!
# Access units with losses

Every packet of an access unit has its stage: the units sent before it and what a
receiver that lost nothing holds of the unit in flight. A depacketizer that sees some
of the packets collects units of the right access unit as long as it meets no packet
of another one with units in its hands, and continues no fragments across a gap.
-/

namespace RtpPacket.Codec

open ByteCodec Rtp Run

set_option autoImplicit false

/-- A piece of a unit; `front` is the rebuilt header and the pieces before. -/
structure Fragment where
  start : Bool
  last : Bool
  front : List Bytes
  piece : Bytes

/-- A packet with the units of its access unit sent before; none of a fragment is in a
packet that holds the unit as a whole. -/
structure Stage where
  out : Outgoing
  done : List Bytes
  nalu : Bytes
  fragment : Option Fragment

namespace Stage

def fragments (stage : Stage) : List Bytes :=
  match stage.fragment with
  | none => []
  | some fragment => if fragment.last then [] else fragment.front ++ [fragment.piece]

def units (stage : Stage) : List Bytes :=
  if stage.fragment.all (·.last) then stage.done ++ [stage.nalu] else stage.done

structure Sound (descriptor : Bytes → Bool → Bool → Bytes) (headerLen : Nat) (stage : Stage) :
    Prop where
  whole : stage.fragment = none → stage.out.payload = stage.nalu
  payload : ∀ fragment ∈ stage.fragment,
    stage.out.payload = descriptor stage.nalu fragment.start fragment.last ++ fragment.piece
  piece : ∀ fragment ∈ stage.fragment, fragment.piece ≠ []
  first : ∀ fragment ∈ stage.fragment, fragment.start = true →
    fragment.front = [stage.nalu.take headerLen]
  front : ∀ fragment ∈ stage.fragment, fragment.front ≠ []
  last : ∀ fragment ∈ stage.fragment, fragment.last = true →
    (fragment.front ++ [fragment.piece]).flatten = stage.nalu

def Precedes (earlier later : Stage) : Prop :=
  earlier.out.timestamp = later.out.timestamp → earlier.units <+: later.done

/-- A packet that goes on with a unit finds held what the packet before it leaves. -/
def Follows (earlier later : Stage) : Prop :=
  ∀ fragment ∈ later.fragment, fragment.start = false → earlier.fragments = fragment.front

/-- A packet that goes on with no unit. -/
def Opens (stage : Stage) : Prop := ∀ fragment ∈ stage.fragment, fragment.start = true

theorem done_prefix (stage : Stage) : stage.done <+: stage.units := by
  rw [units]
  split_ifs
  · exact List.prefix_append _ _
  · exact List.prefix_refl _

theorem units_prefix (stage : Stage) : stage.units <+: stage.done ++ [stage.nalu] := by
  rw [units]
  split_ifs
  · exact List.prefix_refl _
  · exact List.prefix_append _ _

theorem complete {stage : Stage} (ended : stage.fragment.all (·.last) = true) :
    stage.units = stage.done ++ [stage.nalu] ∧ stage.fragments = [] := by
  rw [units, if_pos ended, fragments]
  refine ⟨rfl, ?_⟩
  cases present : stage.fragment with
  | none => rfl
  | some fragment =>
      rw [present] at ended
      exact if_pos ended

theorem follows_of_opens (earlier : Stage) {later : Stage} (opens : later.Opens) :
    earlier.Follows later := by
  intro fragment member continues
  rw [opens fragment member] at continues
  cases continues

end Stage

/-- What the receiver relies on in the packets of a stream. -/
structure Staged (descriptor : Bytes → Bool → Bool → Bytes) (headerLen : Nat)
    (stages : List Stage) : Prop where
  sound : ∀ stage ∈ stages, stage.Sound descriptor headerLen
  ordered : stages.Pairwise Stage.Precedes
  chained : stages.IsChain Stage.Follows
  opens : ∀ stage ∈ stages.head?, stage.Opens

section Stages

variable {descriptor : Bytes → Bool → Bool → Bytes} {headerLen mtu rtpTs : Nat}

def fragmentStages (descriptor : Bytes → Bool → Bool → Bytes) (rtpTs : Nat) (marker : Bool)
    (done : List Bytes) (nalu : Bytes) : List Bytes → Bool → List Bytes → List Stage
  | _, _, [] => []
  | front, first, piece :: rest =>
      { out := ⟨descriptor nalu first rest.isEmpty ++ piece, rtpTs, rest.isEmpty && marker⟩
        done := done
        nalu := nalu
        fragment := some ⟨first, rest.isEmpty, front, piece⟩ } ::
        fragmentStages descriptor rtpTs marker done nalu (front ++ [piece]) false rest

def naluStages (descriptor : Bytes → Bool → Bool → Bytes) (headerLen mtu rtpTs : Nat)
    (last : Bool) (done : List Bytes) (nalu : Bytes) : List Stage :=
  if nalu.length ≤ mtu then [⟨⟨nalu, rtpTs, last⟩, done, nalu, none⟩]
  else
    fragmentStages descriptor rtpTs last done nalu [nalu.take headerLen] true
      (naluPieces headerLen mtu nalu)

def unitStages (descriptor : Bytes → Bool → Bool → Bytes) (headerLen mtu rtpTs : Nat) :
    List Bytes → List Bytes → List Stage
  | _, [] => []
  | done, nalu :: rest =>
      naluStages descriptor headerLen mtu rtpTs rest.isEmpty done nalu ++
        unitStages descriptor headerLen mtu rtpTs (done ++ [nalu]) rest

theorem fragment_stages_out (marker : Bool) (done : List Bytes) (nalu : Bytes)
    (front : List Bytes) (first : Bool) (pieces : List Bytes) :
    (fragmentStages descriptor rtpTs marker done nalu front first pieces).map (·.out) =
      fragmentOutgoing (descriptor nalu) rtpTs marker first pieces := by
  induction pieces generalizing front first with
  | nil => rfl
  | cons piece rest ih => rw [fragmentStages, List.map_cons, ih, fragmentOutgoing]

theorem unit_stages_out (done nalus : List Bytes) :
    (unitStages descriptor headerLen mtu rtpTs done nalus).map (·.out) =
      unitOutgoing descriptor headerLen mtu rtpTs nalus := by
  induction nalus generalizing done with
  | nil => rfl
  | cons nalu rest ih =>
      rw [unitStages, List.map_append, ih, unitOutgoing, naluStages, naluOutgoing]
      split_ifs with fits
      · rfl
      · rw [fragment_stages_out]

theorem fragment_stages_member {marker : Bool} {done : List Bytes} {nalu : Bytes}
    {front : List Bytes} {first : Bool} {pieces : List Bytes} {stage : Stage}
    (member : stage ∈ fragmentStages descriptor rtpTs marker done nalu front first pieces) :
    stage.done = done ∧ stage.nalu = nalu ∧ stage.out.timestamp = rtpTs := by
  induction pieces generalizing front first with
  | nil => cases member
  | cons piece rest ih =>
      cases List.mem_cons.mp member with
      | inl here =>
          rw [here]
          exact ⟨rfl, rfl, rfl⟩
      | inr later => exact ih later

theorem fragment_stages_sound {marker : Bool} {done : List Bytes} {nalu : Bytes}
    {front : List Bytes} {first : Bool} {pieces : List Bytes}
    (started : first = true → front = [nalu.take headerLen]) (some : front ≠ [])
    (nonempty : ∀ piece ∈ pieces, piece ≠ []) (whole : (front ++ pieces).flatten = nalu)
    {stage : Stage}
    (member : stage ∈ fragmentStages descriptor rtpTs marker done nalu front first pieces) :
    stage.Sound descriptor headerLen := by
  induction pieces generalizing front first with
  | nil => cases member
  | cons piece rest ih =>
      cases List.mem_cons.mp member with
      | inl here =>
          rw [here]
          refine ⟨?_, ?_, ?_, ?_, ?_, ?_⟩
          · intro none
            cases none
          · intro fragment only
            cases only
            rfl
          · intro fragment only
            cases only
            exact nonempty piece List.mem_cons_self
          · intro fragment only
            cases only
            exact started
          · intro fragment only
            cases only
            exact some
          · intro fragment only ended
            cases only
            rw [List.isEmpty_iff.mp ended] at whole
            exact whole
      | inr later =>
          have extended : (front ++ [piece] ++ rest).flatten = nalu := by
            rw [List.append_assoc]
            exact whole
          have notFirst : false = true → front ++ [piece] = [nalu.take headerLen] := by
            intro impossible
            cases impossible
          exact ih notFirst (by simp)
            (fun other inside => nonempty other (List.mem_cons_of_mem _ inside)) extended later

theorem fragment_stages_ordered (marker : Bool) (done : List Bytes) (nalu : Bytes)
    (front : List Bytes) (first : Bool) (pieces : List Bytes) :
    (fragmentStages descriptor rtpTs marker done nalu front first pieces).Pairwise
      Stage.Precedes := by
  induction pieces generalizing front first with
  | nil => exact .nil
  | cons piece rest ih =>
      apply List.Pairwise.cons _ (ih _ _)
      intro later member _
      have notLast : rest.isEmpty = false := by
        cases rest with
        | nil => cases member
        | cons _ _ => rfl
      rw [(fragment_stages_member member).1, Stage.units]
      simp only [Option.all_some, notLast, Bool.false_eq_true, if_false]
      exact List.prefix_refl done

theorem fragment_stages_chained (marker : Bool) (done : List Bytes) (nalu : Bytes)
    (front : List Bytes) (first : Bool) (pieces : List Bytes) :
    (fragmentStages descriptor rtpTs marker done nalu front first pieces).IsChain
      Stage.Follows := by
  induction pieces generalizing front first with
  | nil => exact .nil
  | cons piece rest ih =>
      have later := ih (front ++ [piece]) false
      cases rest with
      | nil => exact .singleton _
      | cons next others =>
          apply List.IsChain.cons_cons _ later
          intro fragment only _
          cases only
          rfl

theorem nalu_stages_staged (header : headerLen ≤ 2) (mtuRange : 100 ≤ mtu) (last : Bool)
    (done : List Bytes) (nalu : Bytes) :
    Staged descriptor headerLen
      (naluStages descriptor headerLen mtu rtpTs last done nalu) := by
  rw [naluStages]
  split_ifs with fits
  · refine ⟨?_, List.pairwise_singleton _ _, .singleton _, ?_⟩
    · intro stage member
      rw [List.mem_singleton.mp member]
      exact ⟨fun _ => rfl, by simp, by simp, by simp, by simp, by simp⟩
    · intro stage only
      cases only
      simp [Stage.Opens]
  · obtain ⟨_, pieces, together⟩ :=
      @nalu_pieces headerLen mtu nalu header mtuRange (Nat.lt_of_not_le fits)
    have whole : ([nalu.take headerLen] ++ naluPieces headerLen mtu nalu).flatten = nalu := by
      rw [List.flatten_append, List.flatten_singleton, together, List.take_append_drop]
    refine ⟨?_, fragment_stages_ordered _ _ _ _ _ _, fragment_stages_chained _ _ _ _ _ _, ?_⟩
    · intro stage member
      exact fragment_stages_sound (fun _ => rfl) (List.cons_ne_nil _ _)
        (fun piece inside => (pieces piece inside).1) whole member
    · cases naluPieces headerLen mtu nalu with
      | nil =>
          intro stage head
          cases head
      | cons piece rest =>
          intro stage head fragment only
          cases head
          cases only
          rfl

theorem nalu_stages_member {last : Bool} {done : List Bytes} {nalu : Bytes} {stage : Stage}
    (member : stage ∈ naluStages descriptor headerLen mtu rtpTs last done nalu) :
    stage.done = done ∧ stage.nalu = nalu ∧ stage.out.timestamp = rtpTs := by
  rw [naluStages] at member
  split_ifs at member with fits
  · rw [List.mem_singleton.mp member]
    exact ⟨rfl, rfl, rfl⟩
  · exact fragment_stages_member member

theorem unit_stages_member {done nalus : List Bytes} {stage : Stage}
    (member : stage ∈ unitStages descriptor headerLen mtu rtpTs done nalus) :
    done <+: stage.done ∧ stage.units <+: done ++ nalus ∧ stage.nalu ∈ nalus ∧
      stage.out.timestamp = rtpTs := by
  induction nalus generalizing done with
  | nil => cases member
  | cons nalu rest ih =>
      have shifted : done ++ [nalu] ++ rest = done ++ nalu :: rest := by
        rw [List.append_assoc, List.singleton_append]
      rw [← shifted]
      cases List.mem_append.mp member with
      | inl here =>
          obtain ⟨behind, unit, time⟩ := nalu_stages_member here
          have units := stage.units_prefix
          rw [behind, unit] at units
          exact ⟨behind ▸ List.prefix_refl done, units.trans (List.prefix_append _ _),
            unit ▸ List.mem_cons_self, time⟩
      | inr later =>
          obtain ⟨behind, units, inside, time⟩ := ih later
          exact ⟨(List.prefix_append done [nalu]).trans behind, units,
            List.mem_cons_of_mem _ inside, time⟩

theorem Staged.append {first second : List Stage} (left : Staged descriptor headerLen first)
    (right : Staged descriptor headerLen second)
    (ordered : ∀ earlier ∈ first, ∀ later ∈ second, Stage.Precedes earlier later) :
    Staged descriptor headerLen (first ++ second) where
  sound := by
    intro stage member
    cases List.mem_append.mp member with
    | inl here => exact left.sound stage here
    | inr later => exact right.sound stage later
  ordered := List.pairwise_append.mpr ⟨left.ordered, right.ordered, ordered⟩
  chained := by
    apply List.isChain_append.mpr
    refine ⟨left.chained, right.chained, ?_⟩
    intro earlier _ later head
    exact earlier.follows_of_opens (right.opens later head)
  opens := by
    cases first with
    | nil => exact right.opens
    | cons stage rest => exact left.opens

theorem unit_stages_staged (header : headerLen ≤ 2) (mtuRange : 100 ≤ mtu)
    (done nalus : List Bytes) :
    Staged descriptor headerLen (unitStages descriptor headerLen mtu rtpTs done nalus) := by
  induction nalus generalizing done with
  | nil => exact ⟨by simp [unitStages], .nil, .nil, by simp [unitStages]⟩
  | cons nalu rest ih =>
      apply Staged.append (nalu_stages_staged header mtuRange _ _ _) (ih _)
      intro earlier here later there _
      obtain ⟨behind, unit, _⟩ := nalu_stages_member here
      have units := earlier.units_prefix
      rw [behind, unit] at units
      exact units.trans (unit_stages_member there).1

def streamStages (descriptor : Bytes → Bool → Bool → Bytes) (headerLen mtu : Nat)
    (groups : List (Nat × List Bytes)) : List Stage :=
  groups.flatMap fun group => unitStages descriptor headerLen mtu group.1 [] group.2

theorem stream_stages_member {groups : List (Nat × List Bytes)} {stage : Stage}
    (member : stage ∈ streamStages descriptor headerLen mtu groups) :
    ∃ group ∈ groups, stage.out.timestamp = group.1 ∧ stage.units <+: group.2 ∧
      stage.nalu ∈ group.2 := by
  obtain ⟨group, groupMember, inside⟩ := List.mem_flatMap.mp member
  obtain ⟨_, units, unit, time⟩ := unit_stages_member inside
  exact ⟨group, groupMember, time, units, unit⟩

theorem stream_stages_staged (header : headerLen ≤ 2) (mtuRange : 100 ≤ mtu)
    {groups : List (Nat × List Bytes)} (distinct : (groups.map Prod.fst).Nodup) :
    Staged descriptor headerLen (streamStages descriptor headerLen mtu groups) := by
  induction groups with
  | nil => exact ⟨by simp [streamStages], .nil, .nil, by simp [streamStages]⟩
  | cons group rest ih =>
      obtain ⟨alone, others⟩ := List.nodup_cons.mp distinct
      apply Staged.append (unit_stages_staged header mtuRange _ _) (ih others)
      intro earlier here later there same
      obtain ⟨other, otherMember, time, _⟩ := stream_stages_member there
      rw [(unit_stages_member here).2.2.2, time] at same
      exact absurd (List.mem_map.mpr ⟨other, otherMember, same.symm⟩) alone

end Stages

/-- A chunk that holds units of an access unit only, each at most once and in order. -/
def HoldsSome (stage : Stage) (chunk : OutputChunk) : Prop :=
  chunk.timestamp = stage.out.timestamp ∧
    ∃ nalus, nalus.Sublist stage.units ∧ chunk.data = joinAnnexB nalus

/-- What is held behind a packet: some units of its access unit, and of fragments that
the next packet may go on with those that belong there. -/
structure Behind (stage : Stage) (state : NaluDepacketizer) : Prop where
  listening : state.callbacks.output = true
  units : state.nalus.Sublist stage.units
  fragments : stage.fragments ≠ [] → state.fuFragments ≠ [] → state.fuFragments = stage.fragments

theorem finish_behind {stage : Stage} {state : NaluDepacketizer} (behind : Behind stage state)
    (marker : Bool) :
    Behind stage (state.finish stage.out.timestamp marker).1 ∧
      ∀ chunk, .output chunk ∈ (state.finish stage.out.timestamp marker).2 →
        HoldsSome stage chunk := by
  rw [NaluDepacketizer.finish]
  by_cases handsOut : (marker && !state.nalus.isEmpty) = true
  · rw [if_pos handsOut]
    refine ⟨⟨behind.listening, List.nil_sublist _, behind.fragments⟩, ?_⟩
    intro chunk member
    injection List.mem_singleton.mp member with same
    rw [same]
    exact ⟨rfl, state.nalus, behind.units, rfl⟩
  · rw [if_neg handsOut]
    refine ⟨behind, ?_⟩
    intro chunk member
    cases member

theorem complete_behind {stage : Stage} {state : NaluDepacketizer}
    (ended : stage.fragment.all (·.last) = true) (listening : state.callbacks.output = true)
    {held : List Bytes} (units : held.Sublist stage.done)
    (nalus : state.nalus = held ++ [stage.nalu]) : Behind stage state := by
  obtain ⟨unit, nothing⟩ := Stage.complete ended
  refine ⟨listening, ?_, fun some => absurd nothing some⟩
  rw [nalus, unit]
  exact units.append_right [stage.nalu]

section Receiving

variable {receive : NaluDepacketizer → Outgoing → NaluDepacketizer × List DepacketizerEvent}
  {isIDR : Bytes → Bool} {lostStart : String} {descriptor : Bytes → Bool → Bool → Bytes}
  {headerLen : Nat}

theorem receive_stage {stage : Stage} {state : NaluDepacketizer}
    (receives : Receives receive isIDR lostStart descriptor headerLen stage.nalu)
    (sound : stage.Sound descriptor headerLen) (listening : state.callbacks.output = true)
    (units : state.nalus.Sublist stage.done)
    (fragments : ∀ fragment ∈ stage.fragment, fragment.start = false →
      state.fuFragments ≠ [] → state.fuFragments = fragment.front) :
    Behind stage (receive state stage.out).1 ∧
      ∀ chunk, .output chunk ∈ (receive state stage.out).2 → HoldsSome stage chunk := by
  cases present : stage.fragment with
  | none =>
      have whole : stage.out = ⟨stage.nalu, stage.out.timestamp, stage.out.marker⟩ := by
        rw [← sound.whole present]
      have ended : stage.fragment.all (·.last) = true := by
        rw [present]
        rfl
      rw [whole, receives.single state _ _ listening]
      apply finish_behind
      exact complete_behind ended listening units rfl
  | some fragment =>
      have written : stage.out = ⟨descriptor stage.nalu fragment.start fragment.last ++
          fragment.piece, stage.out.timestamp, stage.out.marker⟩ := by
        rw [← sound.payload fragment present]
      rw [written, receives.fragment state _ _ _ _ _ listening (sound.piece fragment present),
        NaluDepacketizer.takeFragment]
      by_cases dropped : (!fragment.start && state.fuFragments.isEmpty) = true
      · rw [if_pos dropped]
        have nothing : state.fuFragments = [] := by
          simpa using (Bool.and_eq_true_iff.mp dropped).2
        refine ⟨⟨listening, units.trans stage.done_prefix.sublist, ?_⟩, ?_⟩
        · intro _ some
          exact absurd nothing some
        · intro chunk member
          exact absurd member (state.callbacks.emit_error_no_output lostStart chunk)
      · rw [if_neg dropped]
        have front : (if fragment.start then [stage.nalu.take headerLen] else state.fuFragments) =
            fragment.front := by
          by_cases start : fragment.start = true
          · rw [if_pos start, sound.first fragment present start]
          · have continues : fragment.start = false := by simpa using start
            have some : state.fuFragments ≠ [] := by simpa [continues] using dropped
            rw [if_neg start, fragments fragment present continues some]
        rw [front]
        by_cases last : fragment.last = true
        · have ended : stage.fragment.all (·.last) = true := by
            rw [present]
            exact last
          rw [if_pos last, sound.last fragment present last]
          apply finish_behind
          exact complete_behind ended listening units rfl
        · have held : stage.fragments = fragment.front ++ [fragment.piece] := by
            rw [Stage.fragments, present]
            exact if_neg last
          rw [if_neg last]
          apply finish_behind
          exact ⟨listening, units.trans stage.done_prefix.sublist, fun _ _ => held.symm⟩

end Receiving

/-- A receiver and what was delivered to it last; packets come with their place among
those sent. -/
structure Link where
  depacketizer : NaluDepacketizer
  before : Option (ParsedPacket × Nat)

section Runs

variable {depacketize : NaluDepacketizer → ParsedPacket →
    NaluDepacketizer × List DepacketizerEvent}
  {isIDR : Bytes → Bool} {lostStart : String} {descriptor : Bytes → Bool → Bool → Bytes}
  {headerLen : Nat} {continuation : Bytes → Bool} {stages : List Stage}

def deliver (depacketize : NaluDepacketizer → ParsedPacket →
    NaluDepacketizer × List DepacketizerEvent) (link : Link) (arrival : ParsedPacket × Nat) :
    Link × List DepacketizerEvent :=
  let stepped := depacketize link.depacketizer arrival.1
  (⟨stepped.1, some arrival⟩, stepped.2)

/-- Units are held of the arriving packet's access unit only, and a fragment that goes on
with others was sent right behind the packet before. -/
structure Continues (continuation : Bytes → Bool) (link : Link) (arrival : ParsedPacket × Nat) :
    Prop where
  units : link.depacketizer.nalus ≠ [] →
    ∀ before ∈ link.before, arrival.1.timestamp = before.1.timestamp
  fragments : link.depacketizer.fuFragments ≠ [] → continuation arrival.1.payload = true →
    ∀ before ∈ link.before, arrival.2 = before.2 + 1

instance (continuation : Bytes → Bool) (link : Link) (arrival : ParsedPacket × Nat) :
    Decidable (Continues continuation link arrival) :=
  decidable_of_iff
    ((link.depacketizer.nalus ≠ [] →
        ∀ before ∈ link.before, arrival.1.timestamp = before.1.timestamp) ∧
      (link.depacketizer.fuFragments ≠ [] → continuation arrival.1.payload = true →
        ∀ before ∈ link.before, arrival.2 = before.2 + 1))
    ⟨fun both => ⟨both.1, both.2⟩, fun continues => ⟨continues.units, continues.fragments⟩⟩

theorem run_deliver (link : Link) (received : List (ParsedPacket × Nat)) :
    (run (deliver depacketize) link received).2 =
      (run depacketize link.depacketizer (received.map Prod.fst)).2 := by
  induction received generalizing link with
  | nil => rfl
  | cons arrival rest ih => simp only [run, deliver, List.map_cons, ih]

structure Placed (stages : List Stage) (arrival : ParsedPacket × Nat) (stage : Stage) : Prop where
  there : stages[arrival.2]? = some stage
  outgoing : arrival.1.outgoing = stage.out

structure Ready (stages : List Stage) (link : Link) : Prop where
  listening : link.depacketizer.callbacks.output = true
  first : link.before = none →
    link.depacketizer.nalus = [] ∧ link.depacketizer.fuFragments = []
  later : ∀ before ∈ link.before, ∃ stage, Placed stages before stage ∧
    Behind stage link.depacketizer

theorem Staged.precedes (staged : Staged descriptor headerLen stages) {first second : Nat}
    (earlier : first < second) {before stage : Stage} (one : stages[first]? = some before)
    (other : stages[second]? = some stage) : before.Precedes stage := by
  obtain ⟨firstInside, firstIs⟩ := List.getElem?_eq_some_iff.mp one
  obtain ⟨secondInside, secondIs⟩ := List.getElem?_eq_some_iff.mp other
  rw [← firstIs, ← secondIs]
  exact List.pairwise_iff_getElem.mp staged.ordered first second _ _ earlier

theorem Staged.follows (staged : Staged descriptor headerLen stages) {index : Nat}
    {before stage : Stage} (one : stages[index]? = some before)
    (other : stages[index + 1]? = some stage) : before.Follows stage := by
  obtain ⟨_, firstIs⟩ := List.getElem?_eq_some_iff.mp one
  obtain ⟨inside, secondIs⟩ := List.getElem?_eq_some_iff.mp other
  rw [← firstIs, ← secondIs]
  exact List.isChain_iff_getElem.mp staged.chained index inside

theorem Ready.units (staged : Staged descriptor headerLen stages) {link : Link}
    (ready : Ready stages link) {arrival : ParsedPacket × Nat} {stage : Stage}
    (placed : Placed stages arrival stage) (earlier : ∀ before ∈ link.before, before.2 < arrival.2)
    (continues : Continues continuation link arrival) :
    link.depacketizer.nalus.Sublist stage.done := by
  cases before : link.before with
  | none =>
      rw [(ready.first before).1]
      exact List.nil_sublist _
  | some last =>
      obtain ⟨previous, there, behind⟩ := ready.later last before
      by_cases held : link.depacketizer.nalus = []
      · rw [held]
        exact List.nil_sublist _
      · have same : previous.out.timestamp = stage.out.timestamp := by
          rw [← there.outgoing, ← placed.outgoing]
          exact (continues.units held last before).symm
        exact behind.units.trans
          (staged.precedes (earlier last before) there.there placed.there same).sublist

theorem Ready.fragments (staged : Staged descriptor headerLen stages) {link : Link}
    (ready : Ready stages link) {arrival : ParsedPacket × Nat} {stage : Stage}
    (placed : Placed stages arrival stage)
    (continuing : ∀ fragment ∈ stage.fragment, fragment.start = false →
      continuation stage.out.payload = true)
    (continues : Continues continuation link arrival) {fragment : Fragment}
    (member : fragment ∈ stage.fragment) (goesOn : fragment.start = false)
    (held : link.depacketizer.fuFragments ≠ []) :
    link.depacketizer.fuFragments = fragment.front := by
  cases before : link.before with
  | none => exact absurd (ready.first before).2 held
  | some last =>
      obtain ⟨previous, there, behind⟩ := ready.later last before
      have payload : continuation arrival.1.payload = true := by
        have same := continuing fragment member goesOn
        rw [← placed.outgoing] at same
        exact same
      have next := placed.there
      rw [continues.fragments held payload last before] at next
      have front := staged.follows there.there next fragment member goesOn
      have sound := staged.sound stage (List.mem_of_getElem? placed.there)
      rw [← front]
      apply behind.fragments _ held
      rw [front]
      exact sound.front fragment member

theorem deliver_step (staged : Staged descriptor headerLen stages)
    (reads : ∀ state packet, depacketize state packet = depacketize state packet.outgoing.packet)
    {link : Link} (ready : Ready stages link) {arrival : ParsedPacket × Nat} {stage : Stage}
    (placed : Placed stages arrival stage)
    (receives : Receives (fun state out => depacketize state out.packet) isIDR lostStart
      descriptor headerLen stage.nalu)
    (continuing : ∀ fragment ∈ stage.fragment, fragment.start = false →
      continuation stage.out.payload = true)
    (earlier : ∀ before ∈ link.before, before.2 < arrival.2)
    (continues : Continues continuation link arrival) :
    Ready stages (deliver depacketize link arrival).1 ∧
      ∀ chunk, .output chunk ∈ (deliver depacketize link arrival).2 → HoldsSome stage chunk := by
  have received := receive_stage receives
    (staged.sound stage (List.mem_of_getElem? placed.there)) ready.listening
    (ready.units staged placed earlier continues)
    (fun _ member goesOn held =>
      ready.fragments staged placed continuing continues member goesOn held)
  have step : deliver depacketize link arrival =
      (⟨(depacketize link.depacketizer stage.out.packet).1, some arrival⟩,
        (depacketize link.depacketizer stage.out.packet).2) := by
    rw [deliver, reads, placed.outgoing]
  rw [step]
  refine ⟨⟨received.1.listening, ?_, ?_⟩, received.2⟩
  · intro none
    cases none
  · intro before last
    cases last
    exact ⟨stage, placed, received.1⟩

theorem run_ready (staged : Staged descriptor headerLen stages)
    (reads : ∀ state packet, depacketize state packet = depacketize state packet.outgoing.packet)
    (receives : ∀ stage ∈ stages, Receives (fun state out => depacketize state out.packet) isIDR
      lostStart descriptor headerLen stage.nalu)
    (continuing : ∀ stage ∈ stages, ∀ fragment ∈ stage.fragment, fragment.start = false →
      continuation stage.out.payload = true)
    {received : List (ParsedPacket × Nat)}
    (placed : ∀ arrival ∈ received, ∃ stage, Placed stages arrival stage) {link : Link}
    (ready : Ready stages link)
    (ordered : (link.before.toList ++ received).Pairwise fun earlier later =>
      earlier.2 < later.2)
    (continues : Always (deliver depacketize) (Continues continuation) link received)
    {chunk : OutputChunk} (handed : .output chunk ∈ (run (deliver depacketize) link received).2) :
    ∃ stage ∈ stages, HoldsSome stage chunk := by
  induction received generalizing link with
  | nil => cases handed
  | cons arrival rest ih =>
      obtain ⟨stage, here⟩ := placed arrival List.mem_cons_self
      have member := List.mem_of_getElem? here.there
      obtain ⟨now, later⟩ := continues
      obtain ⟨_, sorted, crossing⟩ := List.pairwise_append.mp ordered
      have step := deliver_step staged reads ready here (receives stage member)
        (continuing stage member)
        (fun before last => crossing before (Option.mem_toList.mpr last) arrival
          List.mem_cons_self) now
      rw [run] at handed
      cases List.mem_append.mp handed with
      | inl emitted => exact ⟨stage, member, step.2 chunk emitted⟩
      | inr emitted =>
          exact ih (fun other inside => placed other (List.mem_cons_of_mem _ inside)) step.1
            sorted later emitted

/-- However many packets are lost, chunks hold units of one access unit each, whole and in
order, when every packet of the run meets the condition. -/
theorem run_lossy (staged : Staged descriptor headerLen stages)
    (reads : ∀ state packet, depacketize state packet = depacketize state packet.outgoing.packet)
    (receives : ∀ stage ∈ stages, Receives (fun state out => depacketize state out.packet) isIDR
      lostStart descriptor headerLen stage.nalu)
    (continuing : ∀ stage ∈ stages, ∀ fragment ∈ stage.fragment, fragment.start = false →
      continuation stage.out.payload = true)
    {packets : List ParsedPacket} (described : packets.map (·.outgoing) = stages.map (·.out))
    {received : List (ParsedPacket × Nat)} (lossy : received.Sublist packets.zipIdx)
    {state : NaluDepacketizer} (idle : Idle state)
    (continues : Always (deliver depacketize) (Continues continuation) ⟨state, none⟩ received)
    {chunk : OutputChunk}
    (handed : .output chunk ∈ (run depacketize state (received.map Prod.fst)).2) :
    ∃ stage ∈ stages, HoldsSome stage chunk := by
  have placed (arrival : ParsedPacket × Nat) (member : arrival ∈ received) :
      ∃ stage, Placed stages arrival stage := by
    have there := List.mem_zipIdx_iff_getElem?.mp (lossy.subset member)
    have entry : (stages.map (·.out))[arrival.2]? = some arrival.1.outgoing := by
      rw [← described, List.getElem?_map, there]
      rfl
    rw [List.getElem?_map] at entry
    obtain ⟨stage, found, same⟩ := Option.map_eq_some_iff.mp entry
    exact ⟨stage, found, same.symm⟩
  have ready : Ready stages ⟨state, none⟩ := by
    refine ⟨idle.listening, fun _ => ⟨idle.empty, idle.between⟩, ?_⟩
    intro before last
    cases last
  rw [← run_deliver ⟨state, none⟩] at handed
  exact run_ready staged reads receives continuing placed ready (Parts.zip_idx_increasing lossy)
    continues handed

end Runs

section Streams

variable {packetize : Packetizer → Chunk → Except String (List Packet × Packetizer)}
  {descriptor : Bytes → Bool → Bool → Bytes} {headerLen : Nat} {clockRate : Nat}

theorem stream_stages_out (mtu : Nat) (groups : List (Nat × List Bytes)) :
    (streamStages descriptor headerLen mtu groups).map (·.out) =
      groups.flatMap fun group => unitOutgoing descriptor headerLen mtu group.1 group.2 := by
  rw [streamStages, List.map_flatMap]
  simp only [unit_stages_out]

theorem survivors_staged (self : Packetizer) {chunks : List Chunk} {units : Chunk → List Bytes}
    (packetizes : ∀ chunk ∈ chunks, ∀ sender : Packetizer,
      packetize sender chunk = .ok (Packetizer.sendAll false
        (unitOutgoing descriptor headerLen sender.mtu (usToRtp chunk.timestamp clockRate)
          (units chunk)) sender))
    (header : headerLen ≤ 2) :
    (sentPackets packetize self chunks).map (·.outgoing) =
        (streamStages descriptor headerLen self.mtu (chunks.map fun chunk =>
          (usToRtp chunk.timestamp clockRate, units chunk))).map (·.out) ∧
      ∀ received, Survivors packetize self chunks received ↔
        received.Sublist (sentPackets packetize self chunks).zipIdx := by
  obtain ⟨described, survivors⟩ :=
    survivors_iff (describe_units_timestamps units header)
      (fun chunk member sender => units_sent (packetizes chunk member) sender) self
  refine ⟨?_, survivors⟩
  rw [described, describe_all_const, stream_stages_out, List.flatMap_map]
  rfl

end Streams

end RtpPacket.Codec
