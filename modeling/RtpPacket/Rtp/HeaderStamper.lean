import RtpPacket.Lib.FloatingPoint
import RtpPacket.Lib.Run
import RtpPacket.Lib.Utf8
import RtpPacket.Rtp.StampingEach

/-!
# Stamping outgoing packets

A stamper numbers the packets of a session across its streams and sets the number, with the
other extensions that are mapped, on each packet before it is sent. The counter advances
before the packet is written, and the writer may decline the packet.
-/

namespace RtpPacket.Rtp

open ByteCodec FloatingPoint Run Utf8 Word

set_option autoImplicit false

/-- The names that have an action; other names of a map are ignored. -/
inductive ExtensionName where
  | audioLevel
  | transportCc
  | absSendTime
  | mid
  | rtpStreamId
  | repairedRtpStreamId
  deriving DecidableEq

abbrev ExtMap := ExtensionName → Option Int

/-- The payloads are held encoded, those of a stream under its source. -/
structure RtpHeaderStamper where
  extMap : ExtMap
  mid : Option String
  midPayload : Option Bytes
  midBySsrc : Nat → Option Bytes
  ridPayloadCache : Nat → Option Bytes
  repairedRidPayloadCache : Nat → Option Bytes
  twccSeq : Nat

/-- What the caller knows of one packet. -/
structure Hints where
  audioLevel : Option Int
  voiceActivity : Bool

def codeUnits (char : Char) : List Nat :=
  if char.toNat < 0x10000 then [char.toNat]
  else [0xD800 + (char.toNat - 0x10000) / 0x400, 0xDC00 + (char.toNat - 0x10000) % 0x400]

/-- `Buffer.from(text, 'ascii')` keeps the low byte of each code unit. -/
def asciiBytes (text : String) : Bytes :=
  (text.toList.flatMap codeUnits).map fun unit => byteAt unit 0

def transportCC (seq : Nat) : Bytes := encodeBE 2 seq

def audioLevel (level : Nat) (voice : Bool) : Bytes :=
  [byteAt ((if voice then 0x80 else 0) ||| (level &&& 0x7F)) 0]

def fixedSendTime (now : Nat) : Nat :=
  let sec := double (double ((now : ℚ) / 1000) + 2208988800)
  ⌊double (sec * 2 ^ 18)⌋.toNat

def absSendTime (now : Nat) : Bytes := encodeBE 3 (fixedSendTime now)

/-- An own property set; the keys are distinct, so their order does not matter. -/
def assign (batch : List (Int × Bytes)) (id : Int) (data : Bytes) : List (Int × Bytes) :=
  batch.filter (·.1 ≠ id) ++ [(id, data)]

def addMapped (batch : List (Int × Bytes)) (id : Option Int) (data : Option Bytes) :
    List (Int × Bytes) :=
  match id, data with
  | some id, some data => assign batch id data
  | _, _ => batch

def levelData (hints : Option Hints) : Option Bytes :=
  hints.bind fun hint => hint.audioLevel.map fun level =>
    audioLevel (wrapUnsigned 7 level) hint.voiceActivity

namespace RtpHeaderStamper

def new (extMap : ExtMap) (mid : Option String) (initialTransportCcSeq : Int) :
    RtpHeaderStamper where
  extMap := extMap
  mid := mid
  midPayload := if (extMap .mid).isSome then mid.map asciiBytes else none
  midBySsrc _ := none
  ridPayloadCache _ := none
  repairedRidPayloadCache _ := none
  twccSeq := wrapUnsigned 16 (toInt32 initialTransportCcSeq)

def advance (stamper : RtpHeaderStamper) : RtpHeaderStamper :=
  if (stamper.extMap .transportCc).isSome then
    { stamper with twccSeq := (stamper.twccSeq + 1) % 65536 }
  else stamper

def batch (stamper : RtpHeaderStamper) (rtpPacket : Bytes) (hints : Option Hints) (now : Nat) :
    List (Int × Bytes) :=
  let ssrc := readBE 4 rtpPacket 8
  let level := addMapped [] (stamper.extMap .audioLevel) (levelData hints)
  let numbered := addMapped level (stamper.extMap .transportCc) (some (transportCC stamper.twccSeq))
  let timed := addMapped numbered (stamper.extMap .absSendTime) (some (absSendTime now))
  let named := addMapped timed (stamper.extMap .mid)
    ((stamper.midBySsrc ssrc).or stamper.midPayload)
  let layered := addMapped named (stamper.extMap .rtpStreamId) (stamper.ridPayloadCache ssrc)
  addMapped layered (stamper.extMap .repairedRtpStreamId) (stamper.repairedRidPayloadCache ssrc)

def stamp (stamper : RtpHeaderStamper) (rtpPacket : Bytes) (hints : Option Hints) (now : Nat)
    (memory : Nat → Byte) : RtpHeaderStamper × Except String Bytes :=
  let advanced := stamper.advance
  let batch := advanced.batch rtpPacket hints now
  (advanced, if batch.isEmpty then .ok rtpPacket else setHeaderExtensions memory rtpPacket batch)

def lastTransportCcSeq (stamper : RtpHeaderStamper) : Nat := stamper.twccSeq

def setMid (stamper : RtpHeaderStamper) (mid : Option String) : RtpHeaderStamper :=
  { stamper with
    mid := mid
    midPayload := if (stamper.extMap .mid).isSome then mid.map asciiBytes else none }

def setMidForSsrc (stamper : RtpHeaderStamper) (ssrc : Int) (mid : Option String) :
    RtpHeaderStamper :=
  { stamper with
    midBySsrc := Function.update stamper.midBySsrc (wrapUnsigned 32 ssrc) (mid.map utf8Bytes) }

def setRidForSsrc (stamper : RtpHeaderStamper) (ssrc : Int) (rid : Option String) :
    RtpHeaderStamper :=
  { stamper with
    ridPayloadCache :=
      Function.update stamper.ridPayloadCache (wrapUnsigned 32 ssrc) (rid.map asciiBytes) }

def clearSsrc (stamper : RtpHeaderStamper) (ssrc : Int) : RtpHeaderStamper :=
  let key := wrapUnsigned 32 ssrc
  { stamper with
    midBySsrc := Function.update stamper.midBySsrc key none
    ridPayloadCache := Function.update stamper.ridPayloadCache key none
    repairedRidPayloadCache := Function.update stamper.repairedRidPayloadCache key none }

/-- What is not given stays as it was. -/
def setRtxRids (stamper : RtpHeaderStamper) (rtxSsrc : Int) (rid repairedRid : Option String) :
    RtpHeaderStamper :=
  let key := wrapUnsigned 32 rtxSsrc
  { stamper with
    ridPayloadCache := Function.update stamper.ridPayloadCache key
      ((rid.map asciiBytes).or (stamper.ridPayloadCache key))
    repairedRidPayloadCache := Function.update stamper.repairedRidPayloadCache key
      ((repairedRid.map asciiBytes).or (stamper.repairedRidPayloadCache key)) }

def setExtMap (stamper : RtpHeaderStamper) (extMap : ExtMap) : RtpHeaderStamper :=
  { stamper with
    extMap := extMap
    midPayload := if (extMap .mid).isSome then stamper.mid.map asciiBytes else none }

end RtpHeaderStamper

/-- `now` and `memory` are what the clock and the new buffer hold at the call. -/
inductive StamperCall where
  | stamp (rtpPacket : Bytes) (hints : Option Hints) (now : Nat) (memory : Nat → Byte)
  | setMid (mid : Option String)
  | setMidForSsrc (ssrc : Int) (mid : Option String)
  | setRidForSsrc (ssrc : Int) (rid : Option String)
  | clearSsrc (ssrc : Int)
  | setRtxRids (rtxSsrc : Int) (rid repairedRid : Option String)
  | setExtMap (extMap : ExtMap)

/-- A returned packet, and the stamper as its caller finds it. -/
structure Stamped where
  returned : Except String Bytes
  after : RtpHeaderStamper

def RtpHeaderStamper.step (stamper : RtpHeaderStamper) :
    StamperCall → RtpHeaderStamper × List Stamped
  | .stamp rtpPacket hints now memory =>
      let stamped := stamper.stamp rtpPacket hints now memory
      (stamped.1, [⟨stamped.2, stamped.1⟩])
  | .setMid mid => (stamper.setMid mid, [])
  | .setMidForSsrc ssrc mid => (stamper.setMidForSsrc ssrc mid, [])
  | .setRidForSsrc ssrc rid => (stamper.setRidForSsrc ssrc rid, [])
  | .clearSsrc ssrc => (stamper.clearSsrc ssrc, [])
  | .setRtxRids rtxSsrc rid repairedRid => (stamper.setRtxRids rtxSsrc rid repairedRid, [])
  | .setExtMap extMap => (stamper.setExtMap extMap, [])

/-- The transport-wide number has an identifier of the one-byte form, and has it alone. -/
def MapsTransport (extMap : ExtMap) : Prop :=
  ∃ id, extMap .transportCc = some id ∧ 1 ≤ id ∧ id ≤ 14 ∧
    ∀ name, extMap name = some id → name = .transportCc

/-- Packets are parsed and maps keep the transport-wide number. -/
def StamperCall.Allowed : StamperCall → Prop
  | .stamp rtpPacket _ _ _ => ∃ parsed, parse rtpPacket = some parsed
  | .setExtMap extMap => MapsTransport extMap
  | _ => True

def StamperCall.packet? : StamperCall → Option Bytes
  | .stamp rtpPacket _ _ _ => some rtpPacket
  | _ => none

def Stamped.carried (stamped : Stamped) : Option Nat := do
  let id ← stamped.after.extMap .transportCc
  let packet ← stamped.returned.toOption
  let parsed ← parse packet
  let exts ← parsed.extensions
  let data ← exts.get id.toNat
  if data.length = 2 then some (readBE 2 data 0) else none

/-- Every returned packet carries the number that the stamper tells, one after the other. -/
structure Paired (calls : List Stamped) : Prop where
  carries : ∀ call ∈ calls, call.carried = some call.after.lastTransportCcSeq
  consecutive : ∃ values : List Nat, calls.map Stamped.carried = values.map some ∧
    values.IsChain fun before after => after = (before + 1) % 2 ^ 16

theorem add_mapped_distinct {batch : List (Int × Bytes)} (distinct : (batch.map Prod.fst).Nodup)
    (id : Option Int) (data : Option Bytes) : ((addMapped batch id data).map Prod.fst).Nodup := by
  unfold addMapped
  split
  · rename_i own value
    rw [assign, List.map_append, List.map_singleton, List.nodup_append]
    refine ⟨(List.filter_sublist.map Prod.fst).nodup distinct, List.nodup_singleton own, ?_⟩
    intro key member other here
    obtain ⟨entry, kept, rfl⟩ := List.mem_map.mp member
    rw [List.mem_singleton.mp here]
    exact of_decide_eq_true (List.mem_filter.mp kept).2
  · exact distinct

theorem mem_add_mapped_self (batch : List (Int × Bytes)) (id : Int) (data : Bytes) :
    (id, data) ∈ addMapped batch (some id) (some data) :=
  List.mem_append_right _ (List.mem_singleton.mpr rfl)

theorem mem_add_mapped_of_ne {batch : List (Int × Bytes)} {entry : Int × Bytes}
    (member : entry ∈ batch) {id : Option Int} (apart : id ≠ some entry.1) (data : Option Bytes) :
    entry ∈ addMapped batch id data := by
  unfold addMapped
  split
  · rename_i own value
    apply List.mem_append_left
    apply List.mem_filter.mpr
    refine ⟨member, decide_eq_true ?_⟩
    intro same
    exact apart (congrArg some same.symm)
  · exact member

theorem get_merge_entries_of_absent {entries : List (Int × Bytes)} {id : Int}
    (absent : id ∉ entries.map Prod.fst) (positive : 1 ≤ id) (exts : Extensions) :
    (entries.foldl mergeEntry exts).get id.toNat = exts.get id.toNat := by
  induction entries generalizing exts with
  | nil => rfl
  | cons entry rest ih =>
      rw [List.map_cons, List.mem_cons, not_or] at absent
      rw [List.foldl_cons, ih absent.2, mergeEntry]
      split_ifs with valid
      · obtain ⟨low, _⟩ := valid
        have apart := absent.1
        exact AscendingMap.get_insert_of_ne exts entry.2 (by omega)
      · rfl

theorem get_merge_entries {entries : List (Int × Bytes)} (distinct : (entries.map Prod.fst).Nodup)
    {entry : Int × Bytes} (member : entry ∈ entries) (valid : ValidEntry entry)
    (exts : Extensions) :
    (entries.foldl mergeEntry exts).get entry.1.toNat = some entry.2 := by
  induction entries generalizing exts with
  | nil => cases member
  | cons first rest ih =>
      rw [List.map_cons, List.nodup_cons] at distinct
      rw [List.foldl_cons]
      cases List.mem_cons.mp member with
      | inl here =>
          rw [← here] at distinct ⊢
          rw [get_merge_entries_of_absent distinct.1 valid.1, mergeEntry, if_pos valid,
            AscendingMap.get_insert_self]
      | inr later => exact ih distinct.2 later _

/-- Values set on a packet that can be stamped are parsed from it. -/
theorem set_header_extensions_read (memory : Nat → Byte) {packet : Bytes}
    (parseable : Parseable packet) (stampable : Stampable packet) {entries : List (Int × Bytes)}
    (distinct : (entries.map Prod.fst).Nodup) {entry : Int × Bytes} (member : entry ∈ entries)
    (valid : ValidEntry entry) :
    ∃ out, setHeaderExtensions memory packet entries = .ok out ∧
      ∃ after exts, parse out = some after ∧ after.extensions = some exts ∧
        exts.get entry.1.toNat = some entry.2 := by
  obtain ⟨existing, extBlockLen, decoded, carried, _, _⟩ := existing_block_stampable stampable
  have merged := merge_entries_carried entries carried
  obtain ⟨block, written, assembled⟩ := framed_ok (flagged memory packet)
    (packet.drop (fixedHeaderEnd packet + extBlockLen)) merged
  obtain ⟨small, flags, count, extended⟩ := extension_bit (read_be_lt 1 packet 0)
  obtain ⟨after, parses, _, extensions, _⟩ := parse_rebuilt_block parseable block
    (packet.drop (fixedHeaderEnd packet + extBlockLen)) small flags count extended merged written
  refine ⟨_, ?_, after, _, parses, extensions, get_merge_entries distinct member valid existing⟩
  rw [set_header_extensions_merged memory parseable.long decoded,
    if_neg fun both => some_entry_counted ⟨entry, member, valid⟩ both.1, assembled, flagged,
    copy_front memory parseable.sources, rebuilt]

namespace RtpHeaderStamper

variable {stamper : RtpHeaderStamper} {rtpPacket : Bytes} {hints : Option Hints} {now : Nat}
  {memory : Nat → Byte}

theorem batch_distinct (stamper : RtpHeaderStamper) (rtpPacket : Bytes) (hints : Option Hints)
    (now : Nat) : ((stamper.batch rtpPacket hints now).map Prod.fst).Nodup := by
  rw [batch]
  iterate 6 apply add_mapped_distinct
  exact List.nodup_nil

theorem number_in_batch {id : Int} (mapped : stamper.extMap .transportCc = some id)
    (alone : ∀ name, stamper.extMap name = some id → name = .transportCc) :
    (id, transportCC stamper.twccSeq) ∈ stamper.batch rtpPacket hints now := by
  have apart : ∀ name, name ≠ .transportCc → stamper.extMap name ≠ some id :=
    fun name other same => other (alone name same)
  rw [batch, mapped]
  apply mem_add_mapped_of_ne _ (apart _ (by decide))
  apply mem_add_mapped_of_ne _ (apart _ (by decide))
  apply mem_add_mapped_of_ne _ (apart _ (by decide))
  apply mem_add_mapped_of_ne _ (apart _ (by decide))
  exact mem_add_mapped_self _ id _

theorem advance_ext_map (stamper : RtpHeaderStamper) : stamper.advance.extMap = stamper.extMap := by
  rw [advance]
  split_ifs
  · rfl
  · rfl

theorem advance_seq (mapped : MapsTransport stamper.extMap) :
    stamper.advance.twccSeq = (stamper.twccSeq + 1) % 65536 := by
  obtain ⟨id, maps, _⟩ := mapped
  rw [advance, if_pos (by rw [maps]; rfl)]

/-- The number is on the packet exactly when the packet can be stamped. -/
theorem stamp_carries_iff (mapped : MapsTransport stamper.extMap)
    {parsed : ParsedPacket} (parses : parse rtpPacket = some parsed) :
    (Stamped.mk (stamper.stamp rtpPacket hints now memory).2
        (stamper.stamp rtpPacket hints now memory).1).carried =
      some (stamper.stamp rtpPacket hints now memory).1.lastTransportCcSeq ↔
    Stampable rtpPacket := by
  obtain ⟨parseable, rfl⟩ := parse_eq_some_iff.mp parses
  have maps := mapped
  rw [← advance_ext_map stamper] at maps
  obtain ⟨id, own, low, high, alone⟩ := maps
  have member : (id, transportCC stamper.advance.twccSeq) ∈
      stamper.advance.batch rtpPacket hints now := number_in_batch own alone
  have filled : ¬ (stamper.advance.batch rtpPacket hints now).isEmpty = true := by
    rw [List.isEmpty_iff]
    exact List.ne_nil_of_mem member
  have written : (stamper.stamp rtpPacket hints now memory).2 =
      setHeaderExtensions memory rtpPacket (stamper.advance.batch rtpPacket hints now) :=
    if_neg filled
  have valid : ValidEntry (id, transportCC stamper.advance.twccSeq) :=
    ⟨low, high, Nat.le_of_ble_eq_true rfl, Nat.le_of_ble_eq_true rfl⟩
  constructor
  · -- What is declined comes back as it was, and nothing is parsed of its block.
    intro carries extended
    by_contra cut
    have declined : setHeaderExtensions memory rtpPacket
        (stamper.advance.batch rtpPacket hints now) = .ok rtpPacket := by
      rw [setHeaderExtensions, existing_block_refused extended cut]
      exact ite_self _
    have nothing : (parsedFields rtpPacket).extensions = none := by
      rw [parsed_extensions, if_neg]
      intro whole
      exact cut ⟨whole.1, whole.2⟩
    rw [written, declined, Stamped.carried] at carries
    simp only [Except.toOption, parses, nothing, Option.bind_eq_bind, Option.bind_some,
      Option.bind_none, Option.bind_fun_none] at carries
    cases carries
  · intro stampable
    obtain ⟨out, returned, after, exts, reread, extensions, value⟩ :=
      set_header_extensions_read memory parseable stampable
        (batch_distinct stamper.advance rtpPacket hints now) member valid
    have number : readBE 2 (transportCC stamper.advance.twccSeq) 0 = stamper.advance.twccSeq := by
      have back := read_be_encode 2 stamper.advance.twccSeq []
      rw [List.append_nil] at back
      rw [transportCC, back, advance_seq mapped]
      exact Nat.mod_mod_of_dvd _ (by decide)
    rw [written, returned, Stamped.carried]
    change (Option.bind (stamper.advance.extMap .transportCc) _) = _
    rw [own]
    simp only [Except.toOption, reread, extensions, value, Option.bind_eq_bind, Option.bind_some,
      number]
    exact if_pos (encode_be_length 2 _)

theorem step_maps (mapped : MapsTransport stamper.extMap) {call : StamperCall}
    (allowed : call.Allowed) : MapsTransport (stamper.step call).1.extMap := by
  cases call with
  | stamp rtpPacket hints now memory =>
      change MapsTransport stamper.advance.extMap
      rw [advance_ext_map]
      exact mapped
  | setExtMap extMap => exact allowed
  | setMid mid => exact mapped
  | setMidForSsrc ssrc mid => exact mapped
  | setRidForSsrc ssrc rid => exact mapped
  | clearSsrc ssrc => exact mapped
  | setRtxRids rtxSsrc rid repairedRid => exact mapped

/-- The counter advances by one for each packet, whatever is registered between. -/
theorem run_numbers (mapped : MapsTransport stamper.extMap) {calls : List StamperCall}
    (allowed : ∀ call ∈ calls, call.Allowed) :
    (stamper.twccSeq :: (run step stamper calls).2.map (·.after.lastTransportCcSeq)).IsChain
      fun before after => after = (before + 1) % 2 ^ 16 := by
  induction calls generalizing stamper with
  | nil => exact List.isChain_singleton _
  | cons call rest ih =>
      have later := @ih (stamper.step call).1 (step_maps mapped (allowed call List.mem_cons_self))
        fun other member => allowed other (List.mem_cons_of_mem _ member)
      cases call with
      | stamp rtpPacket hints now memory =>
          exact List.isChain_cons_cons.mpr ⟨advance_seq mapped, later⟩
      | setExtMap extMap => exact later
      | setMid mid => exact later
      | setMidForSsrc ssrc mid => exact later
      | setRidForSsrc ssrc rid => exact later
      | clearSsrc ssrc => exact later
      | setRtxRids rtxSsrc rid repairedRid => exact later

theorem run_carries_iff (mapped : MapsTransport stamper.extMap) {calls : List StamperCall}
    (allowed : ∀ call ∈ calls, call.Allowed) :
    (∀ stamped ∈ (run step stamper calls).2,
        stamped.carried = some stamped.after.lastTransportCcSeq) ↔
      ∀ packet ∈ calls.filterMap StamperCall.packet?, Stampable packet := by
  induction calls generalizing stamper with
  | nil => simp [run]
  | cons call rest ih =>
      have later := @ih (stamper.step call).1 (step_maps mapped (allowed call List.mem_cons_self))
        fun other member => allowed other (List.mem_cons_of_mem _ member)
      cases call with
      | stamp rtpPacket hints now memory =>
          obtain ⟨parsed, parses⟩ := allowed _ List.mem_cons_self
          rw [List.filterMap_cons_some (show StamperCall.packet? _ = some rtpPacket from rfl), run]
          simp only [step, List.singleton_append, List.forall_mem_cons]
          exact and_congr (stamp_carries_iff mapped parses) later
      | setExtMap extMap => exact later
      | setMid mid => exact later
      | setMidForSsrc ssrc mid => exact later
      | setRidForSsrc ssrc rid => exact later
      | clearSsrc ssrc => exact later
      | setRtxRids rtxSsrc rid repairedRid => exact later

/-- In a whole run the counter and the packets stay paired exactly when no packet has a block
that the writer declines. -/
theorem run_paired_iff (mapped : MapsTransport stamper.extMap) {calls : List StamperCall}
    (allowed : ∀ call ∈ calls, call.Allowed) :
    Paired (run step stamper calls).2 ↔
      ∀ packet ∈ calls.filterMap StamperCall.packet?, Stampable packet := by
  rw [← run_carries_iff mapped allowed]
  constructor
  · intro paired
    exact paired.carries
  · intro carries
    refine ⟨carries, (run step stamper calls).2.map (·.after.lastTransportCcSeq), ?_, ?_⟩
    · rw [List.map_map]
      exact List.map_congr_left carries
    · exact (run_numbers mapped allowed).tail

end RtpHeaderStamper

def numberOnly : ExtMap := fun name => if name = .transportCc then some 2 else none

theorem number_only_maps : MapsTransport numberOnly := by
  refine ⟨2, rfl, by decide, by decide, ?_⟩
  intro name same
  by_contra other
  rw [numberOnly, if_neg other] at same
  cases same

theorem run_paired_over_wrap :
    Paired (run RtpHeaderStamper.step (.new numberOnly none 65534)
      [.stamp twoExtensions none 0 fun _ => 0, .setMidForSsrc 7 (some "a"),
        .stamp twoExtensions none 1 fun _ => 0]).2 := by
  have parses : ∃ parsed, parse twoExtensions = some parsed := ⟨_, parse_eq_some (by decide)⟩
  apply (RtpHeaderStamper.run_paired_iff (show MapsTransport _ from number_only_maps) _).mpr
  · intro packet member
    change packet ∈ List.replicate 2 twoExtensions at member
    rw [List.eq_of_mem_replicate member]
    exact fun _ => ⟨⟨by decide, by decide, by decide⟩, by decide⟩
  · intro call member
    rcases List.mem_cons.mp member with rfl | later
    · exact parses
    rcases List.mem_cons.mp later with rfl | last
    · exact trivial
    · rw [List.mem_singleton.mp last]
      exact parses

def twoByteBlock : Bytes :=
  [0x90, 0x60, 0, 0, 0, 0, 0, 0, 0, 0, 0, 7, 0x10, 0, 0, 1, 1, 1, 9, 0]

theorem run_not_always_paired :
    ¬ ∀ (stamper : RtpHeaderStamper) (calls : List StamperCall), MapsTransport stamper.extMap →
      (∀ call ∈ calls, call.Allowed) → Paired (run RtpHeaderStamper.step stamper calls).2 := by
  intro always
  have allowed : ∀ call ∈ [StamperCall.stamp twoByteBlock none 0 fun _ => 0], call.Allowed := by
    intro call member
    rw [List.mem_singleton.mp member]
    exact ⟨_, parse_eq_some (by decide)⟩
  have paired := always (.new numberOnly none 0) _ number_only_maps allowed
  have stampable := (RtpHeaderStamper.run_carries_iff number_only_maps allowed).mp paired.carries
    twoByteBlock List.mem_cons_self
  exact absurd (stampable (by decide)).profile (by decide)

end RtpPacket.Rtp
