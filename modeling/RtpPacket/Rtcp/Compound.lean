import RtpPacket.Lib.Checked
import RtpPacket.Rtcp.Packet

/-!
# Compound packets

`parseRTCPCompound` trusts each packet's length field to find the next one. Every
builder but one writes the field as the size of what it wrote; `buildREMB` counts
one word too few, which cuts its own packet short and starts the next one inside it.
-/

namespace RtpPacket.Rtcp

open ByteCodec Utf8 Checked

set_option autoImplicit false

inductive BuilderCall where
  | sr (now : Nat) (opts : SenderReport)
  | rr (ssrc : Nat) (block : ReportBlock)
  | pli (senderSsrc mediaSsrc : Nat)
  | nack (senderSsrc mediaSsrc : Nat) (seqNums : List Nat)
  | fir (senderSsrc mediaSsrc seqNr : Nat)
  | remb (senderSsrc : Nat) (mediaSsrcs : List Nat) (bitrate : Rat)
  | transportCC (opts : TransportCCOptions)
  | sdes (ssrc : Nat) (cname : String)
  | bye (ssrcs : List Nat) (reason : Option String)

namespace BuilderCall

def build : BuilderCall → Except RangeError (Option Bytes)
  | sr now opts => .ok (some (buildSR now opts))
  | rr ssrc block => .ok (some (buildRR ssrc block))
  | pli senderSsrc mediaSsrc => .ok (some (buildPLI senderSsrc mediaSsrc))
  | nack senderSsrc mediaSsrc seqNums => buildNACK senderSsrc mediaSsrc seqNums
  | fir senderSsrc mediaSsrc seqNr => .ok (some (buildFIR senderSsrc mediaSsrc seqNr))
  | remb senderSsrc mediaSsrcs bitrate =>
      (buildREMB senderSsrc mediaSsrcs bitrate).map some
  | transportCC opts => .ok (some (buildTransportCC opts))
  | sdes ssrc cname => (buildSDES ssrc cname).map some
  | bye ssrcs reason => (buildBYE ssrcs reason).map some

/-- Bounds on the arguments that come as lists or text; the fixed-width ones are
masked by the builders and may be anything. -/
def InRange : BuilderCall → Prop
  | nack _ _ seqNums => seqNums ≠ [] ∧ ∀ seq ∈ seqNums, seq < 0x10000
  | remb _ mediaSsrcs _ => mediaSsrcs.length ≤ 255
  | sdes _ cname => (utf8Bytes cname).length ≤ 255
  | bye ssrcs reason => ssrcs.length ≤ 31 ∧ ∀ text ∈ reason, (utf8Bytes text).length ≤ 255
  | _ => True

def isRemb : BuilderCall → Bool
  | remb .. => true
  | _ => false

end BuilderCall

/-- The length field is the size in words, less one. -/
def Framed (packet : Bytes) : Prop := (readBE 2 packet 2 + 1) * 4 = packet.length

instance (packet : Bytes) : Decidable (Framed packet) := inferInstanceAs (Decidable (_ = _))

/-- A version-2 header with a given length field before a body. -/
def HasHeader (packet : Bytes) (words : Nat) (body : Bytes) : Prop :=
  ∃ first type : Byte, packet = [first, type] ++ encodeBE 2 words ++ body ∧
    words < 0x10000 ∧ first.toNat / 0x40 = 2

theorem header_length {packet : Bytes} {words : Nat} {body : Bytes}
    (header : HasHeader packet words body) : packet.length = 4 + body.length := by
  obtain ⟨first, type, rfl, _, _⟩ := header
  simp only [List.length_append, List.length_cons, List.length_nil, encode_be_length]

theorem header_words {packet : Bytes} {words : Nat} {body : Bytes}
    (header : HasHeader packet words body) : readBE 2 packet 2 = words := by
  obtain ⟨first, type, rfl, bounded, _⟩ := header
  have field := read_be_append_right 2 [first, type] (encodeBE 2 words ++ body) 0
  rw [read_be_encode, Nat.mod_eq_of_lt (by omega)] at field
  rw [List.append_assoc]
  exact field

theorem parse_rtcp_is_some_iff {buf : Bytes} :
    (∃ parsed, parseRTCP buf = some parsed) ↔ 4 ≤ buf.length ∧ readBE 1 buf 0 / 0x40 = 2 := by
  rw [parseRTCP]
  dsimp only
  split_ifs with short version
  · simp only [exists_false, false_iff]
    omega
  · simp [version]
  · have two : readBE 1 buf 0 / 0x40 = 2 := by simpa using version
    exact ⟨fun _ => ⟨by omega, two⟩, fun _ => ⟨_, rfl⟩⟩

theorem header_parses {packet : Bytes} {words : Nat} {body : Bytes}
    (header : HasHeader packet words body) : ∃ parsed, parseRTCP packet = some parsed := by
  have long := header_length header
  obtain ⟨first, type, rfl, _, version⟩ := header
  have b0 : readBE 1 ([first, type] ++ encodeBE 2 words ++ body) 0 = first.toNat := by
    simp [readBE, decodeBE]
  rw [parse_rtcp_is_some_iff, b0]
  exact ⟨by omega, version⟩

theorem write_uint16_ok {value : Nat} {bytes : Bytes} (written : writeUInt16BE value = .ok bytes) :
    value < 0x10000 ∧ bytes = encodeBE 2 value := by
  unfold writeUInt16BE at written
  split_ifs at written with fits
  exact ⟨fits, (Except.ok.inj written).symm⟩

theorem write_nack_entries_length {entries : List NackEntry} {fci : Bytes}
    (written : writeNackEntries entries = .ok fci) : fci.length = 4 * entries.length := by
  induction entries generalizing fci with
  | nil =>
      cases written
      rfl
  | cons entry rest ih =>
      obtain ⟨pid, pidWritten, written⟩ := of_bind_ok written
      obtain ⟨blp, blpWritten, written⟩ := of_bind_ok written
      obtain ⟨later, laterWritten, written⟩ := of_bind_ok written
      cases written
      rw [(write_uint16_ok pidWritten).2, (write_uint16_ok blpWritten).2]
      simp only [List.length_append, encode_be_length, ih laterWritten, List.length_cons]
      omega

theorem write_uint16_of_lt {value : Nat} (fits : value < 0x10000) :
    writeUInt16BE value = .ok (encodeBE 2 value) := if_pos fits

theorem nack_entries_loop_bounds (entry : NackEntry) {rest : List Nat}
    (ascending : (entry.pid :: rest).Pairwise (· ≤ ·))
    (bounded : ∀ seq ∈ entry.pid :: rest, seq < 0x10000) (mask : entry.blp < 0x10000) :
    (∀ made ∈ nackEntriesLoop entry rest, made.pid < 0x10000 ∧ made.blp < 0x10000) ∧
      17 * (nackEntriesLoop entry rest).length ≤ 65535 - entry.pid + 17 := by
  induction rest generalizing entry with
  | nil =>
      have pid := bounded entry.pid List.mem_cons_self
      simp [nackEntriesLoop, pid, mask]
  | cons seq rest ih =>
      obtain ⟨above, restAscending⟩ := List.pairwise_cons.mp ascending
      have pid := bounded entry.pid List.mem_cons_self
      have seqBound := bounded seq (by simp)
      rw [nackEntriesLoop]
      split_ifs with reach
      · have kept : (entry.pid :: rest).Pairwise (· ≤ ·) :=
          ascending.sublist ((List.sublist_cons_self seq rest).cons_cons entry.pid)
        have inside : ∀ other ∈ entry.pid :: rest, other < 0x10000 := by
          intro other member
          apply bounded
          rcases List.mem_cons.mp member with rfl | later
          · exact List.mem_cons_self
          · exact List.mem_cons_of_mem _ (List.mem_cons_of_mem _ later)
        have newMask : (if seq - entry.pid > 0 then entry.blp ||| 1 <<< (seq - entry.pid - 1)
            else entry.blp) < 0x10000 := by
          split_ifs
          · apply Nat.or_lt_two_pow (n := 16) mask
            rw [Nat.shiftLeft_eq, Nat.one_mul]
            exact Nat.pow_lt_pow_right (by decide) (by omega)
          · exact mask
        exact ih { entry with blp := _ } kept inside newMask
      · obtain ⟨fields, count⟩ := ih { pid := seq, blp := 0 } restAscending
          (fun other member => bounded other (List.mem_cons_of_mem _ member)) (Nat.zero_lt_succ _)
        have beyond := above seq List.mem_cons_self
        refine ⟨?_, ?_⟩
        · intro made member
          rcases List.mem_cons.mp member with rfl | later
          · exact ⟨pid, mask⟩
          · exact fields made later
        · rw [List.length_cons]
          simp only at count
          omega

theorem write_nack_entries_total {entries : List NackEntry}
    (fields : ∀ entry ∈ entries, entry.pid < 0x10000 ∧ entry.blp < 0x10000) :
    ∃ fci, writeNackEntries entries = .ok fci := by
  induction entries with
  | nil => exact ⟨[], rfl⟩
  | cons entry rest ih =>
      obtain ⟨pid, blp⟩ := fields entry List.mem_cons_self
      obtain ⟨later, written⟩ := ih fun other member => fields other (List.mem_cons_of_mem _ member)
      rw [writeNackEntries, write_uint16_of_lt pid, write_uint16_of_lt blp, written]
      exact ⟨_, rfl⟩

theorem build_nack_entries_bounds {seqNums : List Nat} (bounded : ∀ seq ∈ seqNums, seq < 0x10000) :
    (∀ entry ∈ buildNackEntries seqNums, entry.pid < 0x10000 ∧ entry.blp < 0x10000) ∧
      17 * (buildNackEntries seqNums).length ≤ 65552 := by
  have ascending := List.pairwise_insertionSort (· ≤ ·) seqNums
  have members : ∀ seq ∈ seqNums.insertionSort (· ≤ ·), seq < 0x10000 :=
    fun seq member => bounded seq ((List.mem_insertionSort _).mp member)
  unfold buildNackEntries
  cases sorted : seqNums.insertionSort (· ≤ ·) with
  | nil => simp
  | cons pid rest =>
      rw [sorted] at ascending members
      obtain ⟨fields, count⟩ := nack_entries_loop_bounds { pid := pid, blp := 0 }
        ascending members (Nat.zero_lt_succ _)
      exact ⟨fields, by simp only at count ⊢; omega⟩

theorem transport_cc_header (opts : TransportCCOptions) :
    ∃ words body, HasHeader (buildTransportCC opts) words body ∧
      (words + 1) * 4 = 4 + body.length := by
  have small := fci_length opts
  have bound : (12 + opts.fci.length + 3) / 4 * 4 / 4 - 1 < 0x10000 := by omega
  refine ⟨_, encodeBE 4 opts.senderSsrc ++ (encodeBE 4 opts.mediaSsrc ++ (opts.fci ++
    List.replicate ((12 + opts.fci.length + 3) / 4 * 4 - (12 + opts.fci.length)) 0)),
    ⟨0x8F, 205, ?_, bound, rfl⟩, ?_⟩
  · simp only [buildTransportCC, List.append_assoc]
  · simp only [List.length_append, encode_be_length, List.length_replicate]
    omega

theorem bye_reason_length (reason : Option String) : (byeReason reason).length % 4 = 0 := by
  unfold byeReason
  split
  · rfl
  · split_ifs
    · rfl
    · simp only [List.length_append, encode_be_length, List.length_replicate]
      omega

theorem bye_reason_short {reason : Option String}
    (short : ∀ text ∈ reason, (utf8Bytes text).length ≤ 255) :
    (byeReason reason).length ≤ 259 := by
  unfold byeReason
  split
  · simp
  · rename_i text
    have size := short text rfl
    split_ifs
    · simp
    · simp only [List.length_append, encode_be_length, List.length_replicate]
      omega

/-- Every builder's length field, in one equation: right for all, four bytes short
for the bitrate estimate. -/
theorem built_header {call : BuilderCall} {packet : Bytes} (inRange : call.InRange)
    (built : call.build = .ok (some packet)) :
    ∃ words body, HasHeader packet words body ∧
      (words + 1) * 4 + (if call.isRemb then 4 else 0) = 4 + body.length := by
  cases call with
  | sr now opts =>
      cases built
      exact ⟨6, _, ⟨0x80, 200, rfl, by decide, rfl⟩, by simp [BuilderCall.isRemb]⟩
  | rr ssrc block =>
      cases built
      exact ⟨7, _, ⟨0x81, 201, rfl, by decide, rfl⟩, by simp [BuilderCall.isRemb]⟩
  | pli senderSsrc mediaSsrc =>
      cases built
      exact ⟨2, _, ⟨0x81, 206, rfl, by decide, rfl⟩, by simp [BuilderCall.isRemb]⟩
  | nack senderSsrc mediaSsrc seqNums =>
      simp only [BuilderCall.build, buildNACK, if_neg inRange.1] at built
      obtain ⟨length, lengthWritten, built⟩ := of_bind_ok built
      obtain ⟨fci, fciWritten, built⟩ := of_bind_ok built
      cases built
      obtain ⟨bound, rfl⟩ := write_uint16_ok lengthWritten
      refine ⟨_, _, ⟨0x81, 205, rfl, bound, rfl⟩, ?_⟩
      simp only [BuilderCall.isRemb, Bool.false_eq_true, if_false, List.length_append,
        encode_be_length, write_nack_entries_length fciWritten]
      omega
  | fir senderSsrc mediaSsrc seqNr =>
      cases built
      exact ⟨4, _, ⟨0x84, 206, rfl, by decide, rfl⟩, by simp [BuilderCall.isRemb]⟩
  | remb senderSsrc mediaSsrcs bitrate =>
      obtain ⟨bytes, built, same⟩ := of_map_ok built
      cases same
      obtain ⟨length, lengthWritten, built⟩ := of_bind_ok built
      cases built
      obtain ⟨bound, rfl⟩ := write_uint16_ok lengthWritten
      refine ⟨_, _, ⟨0x8F, 206, rfl, bound, rfl⟩, ?_⟩
      simp only [BuilderCall.isRemb, if_true, List.length_append, encode_be_length,
        encode_many_length, rembIdentifier, List.length_cons, List.length_nil]
      omega
  | transportCC opts =>
      cases built
      obtain ⟨words, body, header, size⟩ := transport_cc_header opts
      exact ⟨words, body, header, by simpa [BuilderCall.isRemb] using size⟩
  | sdes ssrc cname =>
      obtain ⟨bytes, built, same⟩ := of_map_ok built
      cases same
      obtain ⟨length, lengthWritten, built⟩ := of_bind_ok built
      cases built
      obtain ⟨bound, rfl⟩ := write_uint16_ok lengthWritten
      refine ⟨_, _, ⟨0x81, 202, rfl, bound, rfl⟩, ?_⟩
      simp only [BuilderCall.isRemb, Bool.false_eq_true, if_false, List.length_append,
        encode_be_length, List.length_cons, List.length_nil, List.length_replicate]
      omega
  | bye ssrcs reason =>
      obtain ⟨bytes, built, same⟩ := of_map_ok built
      cases same
      obtain ⟨length, lengthWritten, built⟩ := of_bind_ok built
      cases built
      obtain ⟨bound, rfl⟩ := write_uint16_ok lengthWritten
      have aligned := bye_reason_length reason
      have version : (UInt8.ofNat (0x80 + ssrcs.length % 0x20)).toNat / 0x40 = 2 := by
        rw [UInt8.toNat_ofNat']
        omega
      refine ⟨_, _, ⟨_, 203, rfl, bound, version⟩, ?_⟩
      simp only [BuilderCall.isRemb, Bool.false_eq_true, if_false, List.length_append,
        encode_many_length]
      omega

/-- In range, no builder throws and none returns null. -/
theorem in_range_builds {call : BuilderCall} (inRange : call.InRange) :
    ∃ packet, call.build = .ok (some packet) := by
  cases call with
  | nack senderSsrc mediaSsrc seqNums =>
      obtain ⟨fields, count⟩ := build_nack_entries_bounds inRange.2
      obtain ⟨fci, written⟩ := write_nack_entries_total fields
      rw [BuilderCall.build, buildNACK, if_neg inRange.1]
      simp only [write_uint16_of_lt (show 2 + (buildNackEntries seqNums).length < 0x10000 by omega),
        written]
      exact ⟨_, rfl⟩
  | remb senderSsrc mediaSsrcs bitrate =>
      have count : mediaSsrcs.length ≤ 255 := inRange
      rw [BuilderCall.build, buildREMB]
      simp only [write_uint16_of_lt (show 2 + 1 + mediaSsrcs.length < 0x10000 by omega)]
      exact ⟨_, rfl⟩
  | sdes ssrc cname =>
      have size : (utf8Bytes cname).length ≤ 255 := inRange
      rw [BuilderCall.build, buildSDES]
      simp only [write_uint16_of_lt
        (show (4 + (2 + (utf8Bytes cname).length) + 1 + 3) / 4 * 4 / 4 < 0x10000 by omega)]
      exact ⟨_, rfl⟩
  | bye ssrcs reason =>
      obtain ⟨count, text⟩ := inRange
      have reasonLength := bye_reason_short text
      rw [BuilderCall.build, buildBYE]
      simp only [write_uint16_of_lt (show
        (4 + ssrcs.length * 4 + (byeReason reason).length) / 4 - 1 < 0x10000 by omega)]
      exact ⟨_, rfl⟩
  | _ => exact ⟨_, rfl⟩

theorem built_framed_iff {call : BuilderCall} {packet : Bytes} (inRange : call.InRange)
    (built : call.build = .ok (some packet)) : Framed packet ↔ call.isRemb = false := by
  obtain ⟨words, body, header, size⟩ := built_header inRange built
  rw [Framed, header_words header, header_length header, ← size]
  cases call.isRemb <;> simp

theorem parse_compound_loop_congr {fuel other : Nat} (buf : Bytes) (enough : buf.length ≤ fuel)
    (otherEnough : buf.length ≤ other) :
    parseCompoundLoop fuel buf = parseCompoundLoop other buf := by
  have nothing (count : Nat) : parseCompoundLoop count [] = [] := by
    cases count <;> simp [parseCompoundLoop]
  induction fuel generalizing other buf with
  | zero =>
      rw [List.length_eq_zero_iff.mp (Nat.le_zero.mp enough), nothing, nothing]
  | succ fuel ih =>
      cases other with
      | zero => rw [List.length_eq_zero_iff.mp (Nat.le_zero.mp otherEnough), nothing, nothing]
      | succ other =>
          have shorter (count : Nat) (enough : buf.length ≤ count + 1) :
              (buf.drop ((readBE 2 buf 2 + 1) * 4)).length ≤ count := by
            rw [List.length_drop]
            omega
          have later := ih _ (shorter fuel enough) (shorter other otherEnough)
          simp only [parseCompoundLoop, later]

theorem compound_step {buf : Bytes} (long : 4 ≤ buf.length)
    (inside : (readBE 2 buf 2 + 1) * 4 ≤ buf.length) :
    parseRTCPCompound buf =
      (parseRTCP (buf.take ((readBE 2 buf 2 + 1) * 4))).toList ++
        parseRTCPCompound (buf.drop ((readBE 2 buf 2 + 1) * 4)) := by
  obtain ⟨fuel, size⟩ : ∃ fuel, buf.length = fuel + 1 := ⟨buf.length - 1, by omega⟩
  conv_lhs => rw [parseRTCPCompound, size, parseCompoundLoop]
  rw [if_neg (by omega)]
  simp only [gt_iff_lt, Nat.not_lt.mpr inside, if_false]
  rw [parse_compound_loop_congr _ (by rw [List.length_drop]; omega) (Nat.le_refl _)]
  rfl

theorem read_words_append {packet : Bytes} (rest : Bytes) {words : Nat} {body : Bytes}
    (header : HasHeader packet words body) : readBE 2 (packet ++ rest) 2 = words := by
  have long := header_length header
  rw [read_be_append_left rest (by omega), header_words header]

theorem compound_append {packet : Bytes} {words : Nat} {body : Bytes}
    (header : HasHeader packet words body) (framed : Framed packet) (rest : Bytes) :
    parseRTCPCompound (packet ++ rest) =
      (parseRTCP packet).toList ++ parseRTCPCompound rest := by
  have field := read_words_append rest header
  have long := header_length header
  have size : (words + 1) * 4 = packet.length := by
    rw [← header_words header]
    exact framed
  rw [compound_step (by rw [List.length_append]; omega)
    (by rw [field, size, List.length_append]; omega), field, size, List.take_left, List.drop_left]

def Built : List BuilderCall → List Bytes → Prop :=
  List.Forall₂ fun call packet => call.InRange ∧ call.build = .ok (some packet)

theorem compound_of_framed {calls : List BuilderCall} {packets : List Bytes}
    (built : Built calls packets) (noRemb : ∀ call ∈ calls, call.isRemb = false) :
    (parseRTCPCompound (buildCompound packets)).map some = packets.map parseRTCP := by
  induction built with
  | nil => rfl
  | cons made _ ih =>
      obtain ⟨inRange, built⟩ := made
      obtain ⟨words, body, header, _⟩ := built_header inRange built
      have framed := (built_framed_iff inRange built).mpr (noRemb _ List.mem_cons_self)
      obtain ⟨parsed, parses⟩ := header_parses header
      have later := ih fun call member => noRemb call (List.mem_cons_of_mem _ member)
      rw [buildCompound, List.flatten_cons, compound_append header framed, List.map_append, parses,
        List.map_cons, parses]
      rw [buildCompound] at later
      rw [later]
      rfl

/-- The feedback part of a parsed estimate runs to the end of the buffer. -/
theorem parse_body_remb_fci {buf : Bytes} {type count senderSsrc mediaSsrc : Nat} {fci : Bytes}
    (parsed : parseBody buf type count = .remb senderSsrc mediaSsrc fci) : fci = buf.drop 12 := by
  unfold parseBody at parsed
  repeat' split at parsed
  all_goals cases parsed
  rfl

theorem parse_rtcp_body {buf : Bytes} {parsed : RtcpPacket} (parses : parseRTCP buf = some parsed) :
    ∃ type count, parsed.body = parseBody buf type count := by
  unfold parseRTCP at parses
  dsimp only at parses
  split_ifs at parses
  rw [← Option.some.inj parses]
  exact ⟨_, _, rfl⟩

theorem build_remb_shape {senderSsrc : Nat} {mediaSsrcs : List Nat} {bitrate : Rat}
    {packet : Bytes} (built : buildREMB senderSsrc mediaSsrcs bitrate = .ok packet) :
    ∃ tail, packet = [0x8F, 206] ++ encodeBE 2 (2 + 1 + mediaSsrcs.length) ++
        (encodeBE 4 senderSsrc ++ encodeBE 4 0 ++ rembIdentifier ++ tail) ∧
      tail.length = 4 + 4 * mediaSsrcs.length := by
  obtain ⟨length, lengthWritten, built⟩ := of_bind_ok built
  obtain ⟨_, rfl⟩ := write_uint16_ok lengthWritten
  rw [← Except.ok.inj built]
  refine ⟨encodeBE 1 mediaSsrcs.length ++ encodeBE 1
      ((rembExponent bitrate).1 % 0x40 * 4 + ((rembExponent bitrate).2 / 0x10000 % 4).toNat) ++
    encodeBE 2 ((rembExponent bitrate).2 % 0x10000).toNat ++ mediaSsrcs.flatMap (encodeBE 4),
    by simp only [List.append_assoc], ?_⟩
  simp only [List.length_append, encode_be_length, encode_many_length]

/-- On its own an estimate parses to its whole feedback part, length field or not. -/
theorem parse_remb {senderSsrc : Nat} {mediaSsrcs : List Nat} {bitrate : Rat} {packet : Bytes}
    (built : buildREMB senderSsrc mediaSsrcs bitrate = .ok packet) :
    20 ≤ packet.length ∧ ∃ parsed sender media, parseRTCP packet = some parsed ∧
      parsed.body = .remb sender media (packet.drop 12) := by
  obtain ⟨tail, shape, tailLength⟩ := build_remb_shape built
  have long : 20 ≤ packet.length := by
    rw [shape]
    simp only [List.length_append, encode_be_length, rembIdentifier, List.length_cons,
      List.length_nil, tailLength]
    omega
  have b0 : readBE 1 packet 0 = 0x8F := by
    rw [shape, List.append_assoc]
    exact read_be_append_left _ (by decide)
  have type : readBE 1 packet 1 = 206 := by
    rw [shape, List.append_assoc]
    exact read_be_append_left _ (by decide)
  have tag : (packet.drop 12).take 4 = rembIdentifier := by
    have fixedPart : packet = ([0x8F, 206] ++ encodeBE 2 (2 + 1 + mediaSsrcs.length) ++
        encodeBE 4 senderSsrc ++ encodeBE 4 0) ++ (rembIdentifier ++ tail) := by
      rw [shape]
      simp only [List.append_assoc]
    rw [fixedPart, List.drop_left' (by simp)]
    rfl
  have enough : ¬ packet.length < 4 := by omega
  have body : parseBody packet 206 15 =
      .remb (readBE 4 packet 4) (readBE 4 packet 8) (packet.drop 12) := by
    simp [parseBody, long, tag]
  refine ⟨long, ⟨2, false, 206, readBE 2 packet 2, parseBody packet 206 15⟩, _, _, ?_, body⟩
  rw [parseRTCP, if_neg enough]
  simp [b0, type]

theorem parse_built_remb {call : BuilderCall} {packet : Bytes} (remb : call.isRemb = true)
    (built : call.build = .ok (some packet)) :
    20 ≤ packet.length ∧ ∃ parsed sender media, parseRTCP packet = some parsed ∧
      parsed.body = .remb sender media (packet.drop 12) := by
  cases call with
  | remb senderSsrc mediaSsrcs bitrate =>
      obtain ⟨bytes, built, same⟩ := of_map_ok built
      cases same
      exact parse_remb built
  | _ => cases remb

theorem compound_of_remb {calls : List BuilderCall} {packets : List Bytes}
    (built : Built calls packets) (someRemb : ∃ call ∈ calls, call.isRemb = true) :
    (parseRTCPCompound (buildCompound packets)).map some ≠ packets.map parseRTCP := by
  induction built with
  | nil =>
      obtain ⟨call, member, _⟩ := someRemb
      simp at member
  | @cons call packet calls packets made _ ih =>
      obtain ⟨inRange, built⟩ := made
      obtain ⟨words, body, header, size⟩ := built_header inRange built
      rw [buildCompound, List.flatten_cons, List.map_cons]
      by_cases remb : call.isRemb = true
      · -- The walk cuts the last four bytes off, so the two feedback parts differ in length.
        intro same
        rw [remb, if_pos rfl] at size
        have field := read_words_append packets.flatten header
        have long := header_length header
        obtain ⟨atLeast, parsed, sender, media, parses, body⟩ := parse_built_remb remb built
        rw [compound_step (by rw [List.length_append]; omega)
          (by rw [field, List.length_append]; omega), field,
          List.take_append_of_le_length (by omega), parses] at same
        have wholeVersion := (parse_rtcp_is_some_iff.mp ⟨parsed, parses⟩).2
        have cutFirst : readBE 1 (packet.take ((words + 1) * 4)) 0 = readBE 1 packet 0 := by
          have inside : 0 + 1 ≤ (words + 1) * 4 := by omega
          have bounded : (words + 1) * 4 ≤ packet.length := by omega
          simpa using read_be_take_append [] inside bounded
        obtain ⟨cut, cutParses⟩ := parse_rtcp_is_some_iff.mpr
          (show 4 ≤ (packet.take ((words + 1) * 4)).length ∧ _ from
            ⟨by rw [List.length_take]; omega, by rw [cutFirst]; exact wholeVersion⟩)
        rw [cutParses] at same
        have cutWhole : cut = parsed := Option.some.inj (List.cons.inj same).1
        obtain ⟨type, count, cutBody⟩ := parse_rtcp_body cutParses
        have fci := parse_body_remb_fci (cutBody.symm.trans (cutWhole ▸ body))
        have lengths := congrArg List.length fci
        simp only [List.length_drop, List.length_take] at lengths
        omega
      · have plain : call.isRemb = false := by simpa using remb
        have framed := (built_framed_iff inRange built).mpr plain
        obtain ⟨parsed, parses⟩ := header_parses header
        have laterRemb : ∃ other ∈ calls, other.isRemb = true := by
          obtain ⟨other, member, isRemb⟩ := someRemb
          rcases List.mem_cons.mp member with rfl | later
          · exact absurd isRemb remb
          · exact ⟨other, later, isRemb⟩
        intro same
        rw [compound_append header framed, List.map_append, parses] at same
        exact ih laterRemb (List.cons.inj same).2

/-- Both halves of the property, the length fields and the walk, hold exactly when
no bitrate estimate is among the packets. -/
theorem compound_agrees_iff_no_remb {calls : List BuilderCall} {packets : List Bytes}
    (built : Built calls packets) :
    ((∀ packet ∈ packets, Framed packet) ↔ ∀ call ∈ calls, call.isRemb = false) ∧
      ((parseRTCPCompound (buildCompound packets)).map some = packets.map parseRTCP ↔
        ∀ call ∈ calls, call.isRemb = false) := by
  constructor
  · induction built with
    | nil => simp
    | cons made _ ih =>
        rw [List.forall_mem_cons, List.forall_mem_cons, built_framed_iff made.1 made.2, ih]
  · constructor
    · intro agrees call member
      by_contra remb
      exact compound_of_remb built ⟨call, member, by simpa using remb⟩ agrees
    · exact compound_of_framed built

theorem compound_agrees_on_keyframe_requests :
    (∀ packet ∈ [buildPLI 1 2, buildFIR 1 2 3], Framed packet) ∧
      (parseRTCPCompound (buildCompound [buildPLI 1 2, buildFIR 1 2 3])).map some =
        [buildPLI 1 2, buildFIR 1 2 3].map parseRTCP := by
  obtain ⟨framed, agrees⟩ := @compound_agrees_iff_no_remb [.pli 1 2, .fir 1 2 3] _
    (.cons ⟨trivial, rfl⟩ (.cons ⟨trivial, rfl⟩ .nil))
  exact ⟨framed.mpr (by decide), agrees.mpr (by decide)⟩

/-- The empty estimate, 20 bytes long, says it has 16. -/
def emptyRemb : Bytes :=
  [0x8F, 206, 0, 3, 0, 0, 0, 1, 0, 0, 0, 0, 0x52, 0x45, 0x4D, 0x42, 0, 0, 3, 232]

theorem compound_cut_by_empty_remb :
    Built [.remb 1 [] 1000, .pli 1 2] [emptyRemb, buildPLI 1 2] ∧
      ¬ Framed emptyRemb ∧
      (parseRTCPCompound (buildCompound [emptyRemb, buildPLI 1 2])).map some ≠
        [emptyRemb, buildPLI 1 2].map parseRTCP := by
  refine ⟨.cons ⟨?_, ?_⟩ (.cons ⟨trivial, rfl⟩ .nil), by decide, by decide⟩
  · simp [BuilderCall.InRange]
  · rfl

end RtpPacket.Rtcp
