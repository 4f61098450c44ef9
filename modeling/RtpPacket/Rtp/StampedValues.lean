import RtpPacket.Rtp.HeaderStamper

/-!
# What the stamps say

A stamper holds its values encoded, under the source they were registered for. What it knows
is a registry of names: for every run of calls, a packet that can be stamped carries the values
of the registry, a reader gets them back, and everything else on the packet stays.
-/

namespace RtpPacket.Rtp

open ByteCodec FloatingPoint Run Utf8 Word

set_option autoImplicit false

structure AudioLevel where
  level : Nat
  voice : Bool
  deriving DecidableEq

def readAudioLevel (data : Option Bytes) : Option AudioLevel :=
  match data with
  | some (first :: _) => some ⟨first.toNat &&& 0x7F, decide (first.toNat &&& 0x80 ≠ 0)⟩
  | _ => none

/-- Seconds within the 64 that the value can tell. -/
def readAbsSendTime (data : Option Bytes) : ℚ :=
  match data with
  | some data => if data.length < 3 then 0 else readBE 3 data 0 / 2 ^ 18
  | none => 0

theorem read_audio_level (level : Nat) (voice : Bool) :
    readAudioLevel (some (audioLevel level voice)) = some ⟨level % 128, voice⟩ := by
  have all : ∀ low : Fin 128, ∀ voice : Bool,
      readAudioLevel (some [byteAt ((if voice then 0x80 else 0) ||| low.val) 0]) =
        some ⟨low.val, voice⟩ := by
    decide +kernel
  rw [audioLevel, Nat.and_two_pow_sub_one_eq_mod _ 7]
  exact all ⟨level % 128, Nat.mod_lt _ (by decide)⟩ voice

theorem fixed_send_time_near {now : Nat} (small : now < 2 ^ 41) :
    ((now : ℚ) / 1000 + 2208988800) * 2 ^ 18 - 3 / 2 < fixedSendTime now ∧
      fixedSendTime now < ((now : ℚ) / 1000 + 2208988800) * 2 ^ 18 + 1 / 2 := by
  have bound : (now : ℚ) < 2 ^ 41 := by exact_mod_cast small
  obtain ⟨whole, seconds⟩ := nearest_close 53 (show 0 ≤ (now : ℚ) / 1000 by positivity)
  obtain ⟨sec, sum⟩ := nearest_close 53
    (show 0 ≤ double ((now : ℚ) / 1000) + 2208988800 by linarith)
  obtain ⟨units, product⟩ := nearest_close 53
    (show 0 ≤ double (double ((now : ℚ) / 1000) + 2208988800) * 2 ^ 18 by linarith)
  have fixed := Int.toNat_of_nonneg (Int.floor_nonneg.mpr units)
  have low := Int.lt_floor_add_one
    (double (double (double ((now : ℚ) / 1000) + 2208988800) * 2 ^ 18))
  have high := Int.floor_le
    (double (double (double ((now : ℚ) / 1000) + 2208988800) * 2 ^ 18))
  rw [← fixed, Int.cast_natCast] at low high
  rw [fixedSendTime]
  constructor
  · linarith [seconds.1, sum.1, product.1]
  · linarith [seconds.2, sum.2, product.2]

theorem read_abs_send_time (now : Nat) :
    readAbsSendTime (some (absSendTime now)) = (fixedSendTime now % 2 ^ 24 : Nat) / 2 ^ 18 := by
  have long : ¬ (absSendTime now).length < 3 := by
    rw [absSendTime, encode_be_length]
    decide
  have value := read_be_encode 3 (fixedSendTime now) []
  rw [List.append_nil, ← absSendTime] at value
  rw [readAbsSendTime, if_neg long, value, show 256 ^ 3 = 2 ^ 24 from rfl]

/-- The entries of a map are set, all other extensions stay, and so does the rest. -/
structure Carried (entries : List (Int × Bytes)) (before after : ParsedPacket) : Prop where
  values : ∀ entry ∈ entries, ValidEntry entry →
    extensionValue after.extensions entry.1.toNat = some entry.2
  others : ∀ id : Int, 1 ≤ id → (∀ entry ∈ entries, ValidEntry entry → entry.1 ≠ id) →
    extensionValue after.extensions id.toNat = extensionValue before.extensions id.toNat
  header : SameHeader before after
  payload : after.payload = before.payload

theorem merge_entries_others {entries : List (Int × Bytes)} {id : Int} (positive : 1 ≤ id)
    (others : ∀ entry ∈ entries, ValidEntry entry → entry.1 ≠ id) (exts : Extensions) :
    (entries.foldl mergeEntry exts).get id.toNat = exts.get id.toNat := by
  induction entries generalizing exts with
  | nil => rfl
  | cons entry rest ih =>
      obtain ⟨own, later⟩ := List.forall_mem_cons.mp others
      rw [List.foldl_cons, ih later, mergeEntry]
      split_ifs with valid
      · have apart := own valid
        have low := valid.1
        exact AscendingMap.get_insert_of_ne exts entry.2 (by omega)
      · rfl

theorem set_header_extensions_carried (memory : Nat → Byte) {packet : Bytes}
    (parseable : Parseable packet) (stampable : Stampable packet) {entries : List (Int × Bytes)}
    (distinct : (entries.map Prod.fst).Nodup) :
    ∃ out after, setHeaderExtensions memory packet entries = .ok out ∧ parse out = some after ∧
      Carried entries (parsedFields packet) after := by
  obtain ⟨existing, extBlockLen, decoded, carried, values, ends⟩ :=
    existing_block_stampable stampable
  rw [set_header_extensions_merged memory parseable.long decoded]
  split_ifs with untouched
  · -- No entry is valid and the packet has no block: it comes back as it was.
    have none (entry : Int × Bytes) (member : entry ∈ entries) : ¬ ValidEntry entry := by
      have zero := List.countP_eq_zero.mp untouched.1 entry member
      simpa using zero
    exact ⟨packet, _, rfl, parse_eq_some parseable,
      fun entry member valid => absurd valid (none entry member), fun _ _ _ => rfl,
      ⟨rfl, rfl, rfl, rfl, rfl, rfl, rfl, rfl, rfl⟩, rfl⟩
  · have merged := merge_entries_carried entries carried
    obtain ⟨block, written, assembled⟩ := framed_ok (flagged memory packet)
      (packet.drop (fixedHeaderEnd packet + extBlockLen)) merged
    obtain ⟨small, flags, count, extended⟩ := extension_bit (read_be_lt 1 packet 0)
    obtain ⟨after, parses, header, extensions, payload⟩ := parse_rebuilt_block parseable block
      (packet.drop (fixedHeaderEnd packet + extBlockLen)) small flags count extended merged written
    refine ⟨_, after, assembled, ?_, ?_, ?_, header, ?_⟩
    · rw [flagged, copy_front memory parseable.sources]
      exact parses
    · intro entry member valid
      rw [extensions]
      exact get_merge_entries distinct member valid existing
    · intro id positive others
      rw [extensions]
      exact (merge_entries_others positive others existing).trans (values _)
    · rw [payload, parseable.payload, ends]

theorem mem_add_mapped {batch : List (Int × Bytes)} {id : Option Int} {data : Option Bytes}
    {entry : Int × Bytes} :
    entry ∈ addMapped batch id data ↔
      (id = some entry.1 ∧ data = some entry.2) ∨
        (entry ∈ batch ∧ ¬ (id = some entry.1 ∧ data.isSome = true)) := by
  obtain ⟨key, value⟩ := entry
  cases id with
  | none => simp [addMapped]
  | some id =>
      cases data with
      | none => simp [addMapped]
      | some data =>
          simp only [addMapped, assign, List.mem_append, List.mem_filter, List.mem_singleton,
            Prod.mk.injEq, Option.some.injEq, Option.isSome_some, and_true, ne_eq,
            decide_not, Bool.not_eq_eq_eq_not, Bool.not_true, decide_eq_false_iff_not]
          grind

/-- Names with identifiers of their own do not replace each other. -/
theorem mem_add_names {extMap : ExtMap} {values : ExtensionName → Option Bytes}
    (apart : ∀ name other id, extMap name = some id → extMap other = some id → name = other)
    {names : List ExtensionName} (distinct : names.Nodup) {batch : List (Int × Bytes)}
    {entry : Int × Bytes} :
    entry ∈ names.foldl (fun batch name => addMapped batch (extMap name) (values name)) batch ↔
      (∃ name ∈ names, extMap name = some entry.1 ∧ values name = some entry.2) ∨
        (entry ∈ batch ∧ ∀ name ∈ names,
          ¬ (extMap name = some entry.1 ∧ (values name).isSome = true)) := by
  induction names generalizing batch with
  | nil => simp
  | cons name rest ih =>
      obtain ⟨fresh, others⟩ := List.nodup_cons.mp distinct
      have alone (own : extMap name = some entry.1) :
          ∀ other ∈ rest, ¬ (extMap other = some entry.1 ∧ (values other).isSome = true) :=
        fun other member both => fresh (apart name other _ own both.1 ▸ member)
      rw [List.foldl_cons, ih others, mem_add_mapped]
      simp only [List.exists_mem_cons_iff, List.forall_mem_cons]
      grind

/-- What a session knows: names and layers in plain text. -/
structure Registry where
  extMap : ExtMap
  mid : Option String
  midOf : Nat → Option String
  ridOf : Nat → Option String
  repairedRidOf : Nat → Option String
  number : Nat

namespace Registry

def new (extMap : ExtMap) (mid : Option String) (number : Nat) : Registry where
  extMap := extMap
  mid := mid
  midOf _ := none
  ridOf _ := none
  repairedRidOf _ := none
  number := number

def advance (registry : Registry) : Registry :=
  if (registry.extMap .transportCc).isSome then
    { registry with number := (registry.number + 1) % 65536 }
  else registry

def call (registry : Registry) : StamperCall → Registry
  | .stamp _ _ _ _ => registry.advance
  | .setMid mid => { registry with mid := mid }
  | .setMidForSsrc ssrc mid =>
      { registry with midOf := Function.update registry.midOf (wrapUnsigned 32 ssrc) mid }
  | .setRidForSsrc ssrc rid =>
      { registry with ridOf := Function.update registry.ridOf (wrapUnsigned 32 ssrc) rid }
  | .clearSsrc ssrc =>
      { registry with
        midOf := Function.update registry.midOf (wrapUnsigned 32 ssrc) none
        ridOf := Function.update registry.ridOf (wrapUnsigned 32 ssrc) none
        repairedRidOf := Function.update registry.repairedRidOf (wrapUnsigned 32 ssrc) none }
  | .setRtxRids rtxSsrc rid repairedRid =>
      let key := wrapUnsigned 32 rtxSsrc
      { registry with
        ridOf := Function.update registry.ridOf key (rid.or (registry.ridOf key))
        repairedRidOf := Function.update registry.repairedRidOf key
          (repairedRid.or (registry.repairedRidOf key)) }
  | .setExtMap extMap => { registry with extMap := extMap }

/-- What a packet of a source is to carry under a name. A name of the source goes before the one
of the session. -/
def value (registry : Registry) (ssrc : Nat) (hints : Option Hints) (now : Nat) :
    ExtensionName → Option Bytes
  | .audioLevel => levelData hints
  | .transportCc => some (transportCC registry.number)
  | .absSendTime => some (absSendTime now)
  | .mid => ((registry.midOf ssrc).map utf8Bytes).or (registry.mid.map asciiBytes)
  | .rtpStreamId => (registry.ridOf ssrc).map asciiBytes
  | .repairedRtpStreamId => (registry.repairedRidOf ssrc).map asciiBytes

end Registry

/-- The stamper holds the values of a registry, encoded. -/
structure Represents (registry : Registry) (stamper : RtpHeaderStamper) : Prop where
  extMap : stamper.extMap = registry.extMap
  mid : stamper.mid = registry.mid
  midPayload : stamper.midPayload =
    if (registry.extMap .mid).isSome then registry.mid.map asciiBytes else none
  midBySsrc : stamper.midBySsrc = fun ssrc => (registry.midOf ssrc).map utf8Bytes
  ridPayloadCache : stamper.ridPayloadCache = fun ssrc => (registry.ridOf ssrc).map asciiBytes
  repairedRidPayloadCache : stamper.repairedRidPayloadCache =
    fun ssrc => (registry.repairedRidOf ssrc).map asciiBytes
  twccSeq : stamper.twccSeq = registry.number

theorem update_map {Key Text Value : Type} [DecidableEq Key] (encode : Text → Value)
    (names : Key → Option Text) (key : Key) (name : Option Text) :
    Function.update (fun key => (names key).map encode) key (name.map encode) =
      fun other => (Function.update names key name other).map encode := by
  funext other
  by_cases same : other = key
  · subst same
    simp only [Function.update_self]
  · simp only [Function.update_of_ne same]

namespace Represents

variable {registry : Registry} {stamper : RtpHeaderStamper}

theorem new (extMap : ExtMap) (mid : Option String) (initialTransportCcSeq : Int) :
    Represents (.new extMap mid (wrapUnsigned 16 (toInt32 initialTransportCcSeq)))
      (.new extMap mid initialTransportCcSeq) :=
  ⟨rfl, rfl, rfl, rfl, rfl, rfl, rfl⟩

theorem advance (represents : Represents registry stamper) :
    Represents registry.advance stamper.advance := by
  rw [Registry.advance, RtpHeaderStamper.advance, represents.extMap]
  split_ifs
  · exact { represents with
      extMap := rfl
      twccSeq := by rw [represents.twccSeq] }
  · exact represents

theorem step (represents : Represents registry stamper) (call : StamperCall) :
    Represents (registry.call call) (stamper.step call).1 := by
  cases call with
  | stamp rtpPacket hints now memory => exact represents.advance
  | setMid mid =>
      refine { represents with mid := rfl, midPayload := ?_ }
      rw [RtpHeaderStamper.step, RtpHeaderStamper.setMid, represents.extMap]
      rfl
  | setMidForSsrc ssrc mid =>
      refine { represents with midBySsrc := ?_ }
      rw [RtpHeaderStamper.step, RtpHeaderStamper.setMidForSsrc, represents.midBySsrc]
      exact update_map utf8Bytes _ _ _
  | setRidForSsrc ssrc rid =>
      refine { represents with ridPayloadCache := ?_ }
      rw [RtpHeaderStamper.step, RtpHeaderStamper.setRidForSsrc, represents.ridPayloadCache]
      exact update_map asciiBytes _ _ _
  | clearSsrc ssrc =>
      refine { represents with
        midBySsrc := ?_
        ridPayloadCache := ?_
        repairedRidPayloadCache := ?_ }
      · rw [RtpHeaderStamper.step, RtpHeaderStamper.clearSsrc, represents.midBySsrc]
        exact update_map utf8Bytes _ _ none
      · rw [RtpHeaderStamper.step, RtpHeaderStamper.clearSsrc, represents.ridPayloadCache]
        exact update_map asciiBytes _ _ none
      · rw [RtpHeaderStamper.step, RtpHeaderStamper.clearSsrc, represents.repairedRidPayloadCache]
        exact update_map asciiBytes _ _ none
  | setRtxRids rtxSsrc rid repairedRid =>
      refine { represents with
        ridPayloadCache := ?_
        repairedRidPayloadCache := ?_ }
      · rw [RtpHeaderStamper.step, RtpHeaderStamper.setRtxRids, represents.ridPayloadCache]
        simp only [← Option.map_or]
        exact update_map asciiBytes _ _ _
      · rw [RtpHeaderStamper.step, RtpHeaderStamper.setRtxRids, represents.repairedRidPayloadCache]
        simp only [← Option.map_or]
        exact update_map asciiBytes _ _ _
  | setExtMap extMap =>
      refine { represents with extMap := rfl, midPayload := ?_ }
      rw [RtpHeaderStamper.step, RtpHeaderStamper.setExtMap, represents.mid]
      rfl

/-- What is set on a packet: the value of each name that is mapped and has one. -/
theorem mem_batch (represents : Represents registry stamper)
    (apart : ∀ name other id, registry.extMap name = some id → registry.extMap other = some id →
      name = other)
    (rtpPacket : Bytes) (hints : Option Hints) (now : Nat) (entry : Int × Bytes) :
    entry ∈ stamper.batch rtpPacket hints now ↔
      ∃ name, registry.extMap name = some entry.1 ∧
        registry.value (readBE 4 rtpPacket 8) hints now name = some entry.2 := by
  let values (name : ExtensionName) : Option Bytes :=
    match name with
    | .mid => (stamper.midBySsrc (readBE 4 rtpPacket 8)).or stamper.midPayload
    | other => registry.value (readBE 4 rtpPacket 8) hints now other
  have same (name : ExtensionName) (mapped : (registry.extMap name).isSome = true) :
      values name = registry.value (readBE 4 rtpPacket 8) hints now name := by
    cases name with
    | mid =>
        simp only [values, represents.midBySsrc, represents.midPayload, mapped, if_true]
        rfl
    | audioLevel => rfl
    | transportCc => rfl
    | absSendTime => rfl
    | rtpStreamId => rfl
    | repairedRtpStreamId => rfl
  have batch : stamper.batch rtpPacket hints now =
      [.audioLevel, .transportCc, .absSendTime, .mid, .rtpStreamId, .repairedRtpStreamId].foldl
        (fun batch name => addMapped batch (registry.extMap name) (values name)) [] := by
    rw [RtpHeaderStamper.batch, represents.extMap, represents.twccSeq,
      represents.ridPayloadCache, represents.repairedRidPayloadCache]
    rfl
  rw [batch, mem_add_names apart (by decide)]
  constructor
  · rintro (⟨name, -, mapped, value⟩ | ⟨nothing, -⟩)
    · exact ⟨name, mapped, (same name (by rw [mapped]; rfl)) ▸ value⟩
    · cases nothing
  · rintro ⟨name, mapped, value⟩
    refine .inl ⟨name, ?_, mapped, (same name (by rw [mapped]; rfl)).trans value⟩
    cases name <;> decide

end Represents

/-- Names have identifiers of their own, all of the one-byte form. -/
def MapsApart (extMap : ExtMap) : Prop :=
  (∀ name id, extMap name = some id → 1 ≤ id ∧ id ≤ 14) ∧
    ∀ name other id, extMap name = some id → extMap other = some id → name = other

structure Due where
  registry : Registry
  packet : Bytes
  hints : Option Hints
  now : Nat

/-- What a reader finds on a stamped packet: under each name its value, if it has one of one to
sixteen bytes, and elsewhere what was there. -/
structure Says (due : Due) (before after : ParsedPacket) : Prop where
  values : ∀ name id data, due.registry.extMap name = some id →
    due.registry.value before.ssrc due.hints due.now name = some data →
    1 ≤ data.length → data.length ≤ 16 → extensionValue after.extensions id.toNat = some data
  others : ∀ id : Int, 1 ≤ id → (∀ name data, due.registry.extMap name = some id →
      due.registry.value before.ssrc due.hints due.now name = some data →
        data.length < 1 ∨ 16 < data.length) →
    extensionValue after.extensions id.toNat = extensionValue before.extensions id.toNat
  level : ∀ id level voice, due.registry.extMap .audioLevel = some id →
    due.hints = some ⟨some level, voice⟩ →
    readAudioLevel (extensionValue after.extensions id.toNat) =
      some ⟨wrapUnsigned 7 level, voice⟩
  number : ∀ id, due.registry.extMap .transportCc = some id →
    (extensionValue after.extensions id.toNat).map (readBE 2 · 0) = some due.registry.number
  time : ∀ id, due.registry.extMap .absSendTime = some id → due.now < 2 ^ 41 → ∃ units : Nat,
    readAbsSendTime (extensionValue after.extensions id.toNat) = (units % 2 ^ 24 : Nat) / 2 ^ 18 ∧
      ((due.now : ℚ) / 1000 + 2208988800) * 2 ^ 18 - 3 / 2 < units ∧
      units < ((due.now : ℚ) / 1000 + 2208988800) * 2 ^ 18 + 1 / 2
  header : SameHeader before after
  payload : after.payload = before.payload

theorem says_of_values {due : Due} {before after : ParsedPacket}
    (maps : MapsApart due.registry.extMap)
    (small : (due.registry.extMap .transportCc).isSome = true → due.registry.number < 65536)
    (batch : List (Int × Bytes))
    (members : ∀ entry, entry ∈ batch ↔ ∃ name, due.registry.extMap name = some entry.1 ∧
      due.registry.value before.ssrc due.hints due.now name = some entry.2)
    (carried : Carried batch before after) : Says due before after := by
  have values (name : ExtensionName) (id : Int) (data : Bytes)
      (mapped : due.registry.extMap name = some id)
      (value : due.registry.value before.ssrc due.hints due.now name = some data)
      (filled : 1 ≤ data.length) (short : data.length ≤ 16) :
      extensionValue after.extensions id.toNat = some data := by
    obtain ⟨low, high⟩ := maps.1 name id mapped
    exact carried.values (id, data) ((members (id, data)).mpr ⟨name, mapped, value⟩)
      ⟨low, high, filled, short⟩
  refine ⟨values, ?_, ?_, ?_, ?_, carried.header, carried.payload⟩
  · intro id positive invalid
    apply carried.others id positive
    rintro ⟨own, data⟩ member ⟨-, -, filled, short⟩ rfl
    obtain ⟨name, mapped, value⟩ := (members _).mp member
    have bad := invalid name data mapped value
    dsimp only at filled short
    omega
  · intro id level voice mapped hinted
    have value : due.registry.value before.ssrc due.hints due.now .audioLevel =
        some (audioLevel (wrapUnsigned 7 level) voice) := by
      rw [Registry.value, hinted]
      rfl
    rw [values _ id _ mapped value (Nat.le_of_ble_eq_true rfl)
      (Nat.le_of_ble_eq_true rfl), read_audio_level,
      Nat.mod_eq_of_lt (show _ < 128 from wrap_unsigned_lt 7 level)]
  · intro id mapped
    have value : due.registry.value before.ssrc due.hints due.now .transportCc =
        some (transportCC due.registry.number) := rfl
    have back := read_be_encode 2 due.registry.number []
    rw [List.append_nil, ← transportCC] at back
    rw [values _ id _ mapped value (Nat.le_of_ble_eq_true rfl)
      (Nat.le_of_ble_eq_true rfl), Option.map_some, back,
      Nat.mod_eq_of_lt (show _ < 256 ^ 2 from small (by rw [mapped]; rfl))]
  · intro id mapped small
    have value : due.registry.value before.ssrc due.hints due.now .absSendTime =
        some (absSendTime due.now) := rfl
    refine ⟨fixedSendTime due.now, ?_, fixed_send_time_near small⟩
    rw [values _ id _ mapped value (Nat.le_of_ble_eq_true rfl)
      (Nat.le_of_ble_eq_true rfl), read_abs_send_time]

theorem advance_ext_map (registry : Registry) : registry.advance.extMap = registry.extMap := by
  rw [Registry.advance]
  split_ifs <;> rfl

theorem stamp_says {registry : Registry} {stamper : RtpHeaderStamper}
    (represents : Represents registry stamper) (maps : MapsApart registry.extMap)
    {rtpPacket : Bytes} {before : ParsedPacket} (parses : parse rtpPacket = some before)
    (stampable : Stampable rtpPacket) (hints : Option Hints) (now : Nat) (memory : Nat → Byte) :
    ∃ out after, (stamper.stamp rtpPacket hints now memory).2 = .ok out ∧ parse out = some after ∧
      Says ⟨registry.advance, rtpPacket, hints, now⟩ before after := by
  obtain ⟨parseable, rfl⟩ := parse_eq_some_iff.mp parses
  have mapped := maps
  rw [← advance_ext_map registry] at mapped
  have small : (registry.advance.extMap .transportCc).isSome = true →
      registry.advance.number < 65536 := by
    intro numbered
    rw [advance_ext_map] at numbered
    rw [Registry.advance, if_pos numbered]
    exact Nat.mod_lt _ (by decide)
  have members := represents.advance.mem_batch mapped.2 rtpPacket hints now
  rw [RtpHeaderStamper.stamp]
  dsimp only
  split_ifs with empty
  · refine ⟨rtpPacket, _, rfl, parses, says_of_values mapped small _ members ?_⟩
    rw [List.isEmpty_iff.mp empty]
    exact ⟨fun _ member => absurd member List.not_mem_nil, fun _ _ _ => rfl,
      ⟨rfl, rfl, rfl, rfl, rfl, rfl, rfl, rfl, rfl⟩, rfl⟩
  · obtain ⟨out, after, set, read, carried⟩ := set_header_extensions_carried memory parseable
      stampable (stamper.advance.batch_distinct rtpPacket hints now)
    exact ⟨out, after, set, read, says_of_values mapped small _ members carried⟩

/-- The session on its own, answered by what is due on each packet. -/
def Registry.step (registry : Registry) : StamperCall → Registry × List Due
  | .stamp rtpPacket hints now _ =>
      (registry.advance, [⟨registry.advance, rtpPacket, hints, now⟩])
  | call => (registry.call call, [])

def StamperCall.MapsApart : StamperCall → Prop
  | .setExtMap extMap => Rtp.MapsApart extMap
  | _ => True

/-- The returned packet says what is due, if the packet can be stamped. -/
def Answers (stamped : Stamped) (due : Due) : Prop :=
  ∀ before, parse due.packet = some before → Stampable due.packet →
    ∃ out after, stamped.returned = .ok out ∧ parse out = some after ∧ Says due before after

/-- In every run of calls each stamped packet carries what the session knows at that time. -/
theorem stamped_values_follow {extMap : ExtMap} (maps : MapsApart extMap) (mid : Option String)
    (initialTransportCcSeq : Int) {calls : List StamperCall}
    (apart : ∀ call ∈ calls, call.MapsApart) :
    List.Forall₂ Answers
      (run RtpHeaderStamper.step (.new extMap mid initialTransportCcSeq) calls).2
      (run Registry.step
        (.new extMap mid (wrapUnsigned 16 (toInt32 initialTransportCcSeq))) calls).2 := by
  have simulates (stamper : RtpHeaderStamper) (registry : Registry) (call other : StamperCall)
      (related : Represents registry stamper ∧ MapsApart registry.extMap)
      (same : call = other ∧ call.MapsApart) :
      (Represents (registry.step other).1 (stamper.step call).1 ∧
        MapsApart (registry.step other).1.extMap) ∧
      List.Forall₂ Answers (stamper.step call).2 (registry.step other).2 := by
    obtain ⟨represents, maps⟩ := related
    obtain ⟨rfl, own⟩ := same
    have stepped := represents.step call
    cases call with
    | stamp rtpPacket hints now memory =>
        refine ⟨⟨stepped, (advance_ext_map registry).symm ▸ maps⟩, .cons ?_ .nil⟩
        intro before parses stampable
        exact stamp_says represents maps parses stampable hints now memory
    | setExtMap extMap => exact ⟨⟨stepped, own⟩, .nil⟩
    | setMid mid => exact ⟨⟨stepped, maps⟩, .nil⟩
    | setMidForSsrc ssrc mid => exact ⟨⟨stepped, maps⟩, .nil⟩
    | setRidForSsrc ssrc rid => exact ⟨⟨stepped, maps⟩, .nil⟩
    | clearSsrc ssrc => exact ⟨⟨stepped, maps⟩, .nil⟩
    | setRtxRids rtxSsrc rid repairedRid => exact ⟨⟨stepped, maps⟩, .nil⟩
  exact run_simulates _ simulates
    (List.forall₂_same.mpr fun call member => ⟨rfl, apart call member⟩)
    ⟨.new extMap mid initialTransportCcSeq, maps⟩

def layeredCalls : List StamperCall :=
  [.stamp twoExtensions (some ⟨some 200, true⟩) 1500 fun _ => 0, .setRidForSsrc 7 (some "hi"),
    .setMid (some "1"), .stamp twoExtensions none 1600 fun _ => 0]

def allNames : ExtMap
  | .audioLevel => some 1
  | .transportCc => some 3
  | .absSendTime => some 4
  | .mid => some 5
  | .rtpStreamId => some 6
  | .repairedRtpStreamId => some 7

theorem stamped_values_follow_layered :
    List.Forall₂ Answers
      (run RtpHeaderStamper.step (.new allNames (some "0") 65535) layeredCalls).2
      [⟨⟨allNames, some "0", fun _ => none, fun _ => none, fun _ => none, 0⟩, twoExtensions,
          some ⟨some 200, true⟩, 1500⟩,
        ⟨⟨allNames, some "1", fun _ => none, Function.update (fun _ => none) 7 (some "hi"),
          fun _ => none, 1⟩, twoExtensions, none, 1600⟩] := by
  have maps : MapsApart allNames := by
    constructor
    · intro name id same
      cases name <;> cases same <;> decide
    · intro name other id same also
      cases name <;> cases same <;> cases other <;> first | rfl | cases also
  have apart : ∀ call ∈ layeredCalls, call.MapsApart := by
    simp [layeredCalls, StamperCall.MapsApart]
  exact stamped_values_follow maps (some "0") 65535 apart

end RtpPacket.Rtp
