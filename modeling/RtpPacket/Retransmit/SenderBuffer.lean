import RtpPacket.Lib.DirectMapped
import RtpPacket.Srtp.Rtp

/-!
# The ring of sent packets

`SenderBuffer` keeps the packets of each source in a ring and takes the slot of a
packet from its sequence number modulo the ring size. The sequence number wraps
at `2^16`, so a ring whose size does not divide that has packets of both sides of
the wrap in the same slots.
-/

namespace RtpPacket.Retransmit

open ByteCodec Srtp DirectMapped

set_option autoImplicit false

def defaultBufferSize : Nat := 512

structure Slot where
  seq : Nat
  packet : Bytes
  deriving DecidableEq, Repr

structure SenderBuffer where
  size : Nat
  rings : Nat → Option (Nat → Option Slot)

namespace SenderBuffer

/-- A size that is left out, or zero, is the default. -/
def new (size : Option Nat) : SenderBuffer where
  size := (size.filter (· ≠ 0)).getD defaultBufferSize
  rings := fun _ => none

def store (self : SenderBuffer) (rtpPacket : Bytes) : SenderBuffer :=
  if rtpPacket.length < 12 then self
  else
    let ssrc := ssrcOf rtpPacket
    let seq := seqOf rtpPacket
    let ring := (self.rings ssrc).getD fun _ => none
    { self with
      rings := Function.update self.rings ssrc
        (some (Function.update ring (seq % self.size) (some { seq := seq, packet := rtpPacket }))) }

/-- The packet itself is kept, not a copy: the caller does not touch it any more. -/
def storeOwned (self : SenderBuffer) (rtpPacket : Bytes) : SenderBuffer :=
  if rtpPacket.length < 12 then self
  else
    let ssrc := ssrcOf rtpPacket
    let seq := seqOf rtpPacket
    let ring := (self.rings ssrc).getD fun _ => none
    { self with
      rings := Function.update self.rings ssrc
        (some (Function.update ring (seq % self.size) (some { seq := seq, packet := rtpPacket }))) }

def get (self : SenderBuffer) (ssrc seq : Nat) : Option Bytes :=
  match self.rings ssrc with
  | none => none
  | some ring =>
      match ring (seq % self.size) with
      | none => none
      | some slot => if slot.seq ≠ seq then none else some slot.packet

def clear (self : SenderBuffer) : Option Nat → SenderBuffer
  | none => { self with rings := fun _ => none }
  | some ssrc => { self with rings := Function.update self.rings ssrc none }

def storeAll (self : SenderBuffer) (packets : List Bytes) : SenderBuffer := packets.foldl store self

/-- What a call of `store` puts in: nothing when the packet has no fixed header. -/
def entryOf (rtpPacket : Bytes) : Option ((Nat × Nat) × Bytes) :=
  if rtpPacket.length < 12 then none
  else some ((ssrcOf rtpPacket, seqOf rtpPacket), rtpPacket)

def place (size : Nat) (key : Nat × Nat) : Nat × Nat := (key.1, key.2 % size)

/-- The rings hold the sequence number and the packet of each entry of the table. -/
structure Holds (buffer : SenderBuffer) (table : Table (Nat × Nat) (Nat × Nat) Bytes) : Prop where
  placed : Placed (place buffer.size) table
  slots : ∀ ssrc slot, ((buffer.rings ssrc).bind fun ring => ring slot) =
    (table (ssrc, slot)).map fun entry => { seq := entry.1.2, packet := entry.2 }

theorem holds_new (size : Option Nat) : (new size).Holds empty where
  placed := by
    intro slot entry member
    cases member
  slots := by
    intro ssrc slot
    rfl

theorem holds_store {self : SenderBuffer} {table : Table (Nat × Nat) (Nat × Nat) Bytes}
    (holds : self.Holds table) (rtpPacket : Bytes) :
    (self.store rtpPacket).Holds
      (putAll (place self.size) table (entryOf rtpPacket).toList) := by
  by_cases short : rtpPacket.length < 12
  · simpa [store, entryOf, short, putAll] using holds
  · simp only [store, entryOf, short, if_false, Option.toList_some, putAll, List.foldl_cons,
      List.foldl_nil]
    constructor
    · exact placed_put holds.placed _
    · intro ssrc slot
      simp only [put, place]
      by_cases source : ssrc = ssrcOf rtpPacket
      · subst source
        by_cases same : slot = seqOf rtpPacket % self.size
        · subst same
          simp
        · have apart : ((ssrcOf rtpPacket, slot) : Nat × Nat) ≠
              (ssrcOf rtpPacket, seqOf rtpPacket % self.size) := by
            intro equal
            exact same (congrArg Prod.snd equal)
          rw [Function.update_self, Function.update_of_ne apart, ← holds.slots, Option.bind_some,
            Function.update_of_ne same]
          cases self.rings (ssrcOf rtpPacket) <;> rfl
      · have apart : ((ssrc, slot) : Nat × Nat) ≠
            (ssrcOf rtpPacket, seqOf rtpPacket % self.size) := by
          intro equal
          exact source (congrArg Prod.fst equal)
        rw [Function.update_of_ne source, Function.update_of_ne apart, holds.slots]

theorem get_eq_find {self : SenderBuffer} {table : Table (Nat × Nat) (Nat × Nat) Bytes}
    (holds : self.Holds table) (ssrc seq : Nat) :
    self.get ssrc seq = find (place self.size) table (ssrc, seq) := by
  have slots := holds.slots ssrc (seq % self.size)
  rw [get, find, place]
  cases kept : table (ssrc, seq % self.size) with
  | none =>
      rw [kept, Option.map_none] at slots
      cases ring : self.rings ssrc with
      | none => rfl
      | some ring' =>
          rw [ring, Option.bind_some] at slots
          simp only [slots]
  | some entry =>
      have here := holds.placed _ entry kept
      have source : entry.1.1 = ssrc := congrArg Prod.fst here
      rw [kept, Option.map_some] at slots
      cases ring : self.rings ssrc with
      | none =>
          rw [ring] at slots
          cases slots
      | some ring' =>
          rw [ring, Option.bind_some] at slots
          simp only [slots]
          by_cases same : entry.1.2 = seq
          · have named : entry.1 = (ssrc, seq) := Prod.ext source same
            simp [named]
          · have named : entry.1 ≠ (ssrc, seq) := fun equal => same (congrArg Prod.snd equal)
            simp [same, named]

def ownPackets (ssrc : Nat) (stores : List Bytes) : List Bytes :=
  stores.filter fun packet => decide (12 ≤ packet.length ∧ ssrcOf packet = ssrc)

/-- The packet stored last under exactly this source and number. -/
def latest (ssrc seq : Nat) (stores : List Bytes) : Option Bytes :=
  stores.reverse.find? fun packet =>
    decide (12 ≤ packet.length ∧ ssrcOf packet = ssrc ∧ seqOf packet = seq)

/-- The source's packets have consecutive sequence numbers modulo `2^16`. -/
def InTurn (ssrc start : Nat) (stores : List Bytes) : Prop :=
  (ownPackets ssrc stores).map seqOf =
    (List.range (ownPackets ssrc stores).length).map fun index => (start + index) % 65536

instance (ssrc start : Nat) (stores : List Bytes) : Decidable (InTurn ssrc start stores) :=
  inferInstanceAs (Decidable (_ = _))

/-- Each of the last packets of the source, as many as the ring has slots, is found. -/
def KeepsLast (size ssrc : Nat) (stores : List Bytes) : Prop :=
  ∀ packet ∈ (ownPackets ssrc stores).drop ((ownPackets ssrc stores).length - size),
    ((new (some size)).storeAll stores).get ssrc (seqOf packet) = some packet

instance (size ssrc : Nat) (stores : List Bytes) : Decidable (KeepsLast size ssrc stores) :=
  inferInstanceAs (Decidable (∀ packet ∈ _, _))

theorem store_all_append (self : SenderBuffer) (packets : List Bytes) (packet : Bytes) :
    self.storeAll (packets ++ [packet]) = (self.storeAll packets).store packet := by
  rw [storeAll, List.foldl_append]
  rfl

theorem store_all_size (self : SenderBuffer) (packets : List Bytes) :
    (self.storeAll packets).size = self.size := by
  induction packets using List.reverseRecOn with
  | nil => rfl
  | append_singleton packets packet ih =>
      rw [store_all_append, ← ih, store]
      split_ifs <;> rfl

theorem holds_store_all (size : Option Nat) (stores : List Bytes) :
    ((new size).storeAll stores).Holds
      (putAll (place (new size).size) empty (stores.filterMap entryOf)) := by
  induction stores using List.reverseRecOn with
  | nil => exact holds_new size
  | append_singleton stores packet ih =>
      have stored := holds_store ih packet
      have entries : (stores ++ [packet]).filterMap entryOf =
          stores.filterMap entryOf ++ (entryOf packet).toList := by
        rw [List.filterMap_append]
        cases kept : entryOf packet <;> simp [kept]
      rw [store_all_append, entries, put_all_append]
      rwa [store_all_size] at stored

theorem entry_of_eq {packet : Bytes} (long : 12 ≤ packet.length) :
    entryOf packet = some ((ssrcOf packet, seqOf packet), packet) :=
  if_neg (by omega)

theorem latest_entry (ssrc seq : Nat) (stores : List Bytes) :
    (((stores.filterMap entryOf).reverse.find? fun entry =>
      decide (entry.1 = (ssrc, seq))).map Prod.snd) = latest ssrc seq stores := by
  induction stores using List.reverseRecOn with
  | nil => rfl
  | append_singleton stores packet ih =>
      rw [latest, List.reverse_append, List.reverse_singleton, List.singleton_append]
      by_cases long : 12 ≤ packet.length
      · have entries : (stores ++ [packet]).filterMap entryOf =
            stores.filterMap entryOf ++ [((ssrcOf packet, seqOf packet), packet)] := by
          simp [List.filterMap_append, entry_of_eq long]
        rw [entries, List.reverse_append, List.reverse_singleton, List.singleton_append]
        by_cases named : ssrcOf packet = ssrc ∧ seqOf packet = seq
        · rw [List.find?_cons_of_pos (by simpa using named),
            List.find?_cons_of_pos (by simpa [long] using named), Option.map_some]
        · rw [List.find?_cons_of_neg (by simpa using named),
            List.find?_cons_of_neg (by simpa [long] using named)]
          exact ih
      · have entries : (stores ++ [packet]).filterMap entryOf = stores.filterMap entryOf := by
          have dropped : entryOf packet = none := if_pos (by omega)
          simp [List.filterMap_append, dropped]
        rw [entries, List.find?_cons_of_neg (by simp [long])]
        exact ih

theorem get_latest (size : Option Nat) (stores : List Bytes) (ssrc seq : Nat) :
    ((new size).storeAll stores).get ssrc seq = none ∨
      ((new size).storeAll stores).get ssrc seq = latest ssrc seq stores := by
  rw [get_eq_find (holds_store_all size stores), store_all_size, ← latest_entry]
  exact find_put_all _ _

theorem own_entries (ssrc : Nat) (stores : List Bytes) :
    (stores.filterMap entryOf).filter (fun entry => decide (entry.1.1 = ssrc)) =
      (ownPackets ssrc stores).map fun packet => ((ssrc, seqOf packet), packet) := by
  induction stores with
  | nil => rfl
  | cons packet stores ih =>
      by_cases long : 12 ≤ packet.length
      · rw [List.filterMap_cons_some (entry_of_eq long), List.filter_cons, ih, ownPackets,
          ownPackets, List.filter_cons]
        by_cases own : ssrcOf packet = ssrc
        · simp [own, long]
        · simp [own]
      · have dropped : entryOf packet = none := if_pos (by omega)
        rw [List.filterMap_cons_none dropped, ih, ownPackets, ownPackets, List.filter_cons]
        simp [long]

theorem get_own {size : Nat} (positive : 1 ≤ size) (ssrc seq : Nat) (stores : List Bytes) :
    ((new (some size)).storeAll stores).get ssrc seq =
      find (place size) (putAll (place size) empty
        ((ownPackets ssrc stores).map fun packet => ((ssrc, seqOf packet), packet)))
        (ssrc, seq) := by
  have sized : (new (some size)).size = size := by
    have nonzero : size ≠ 0 := by omega
    simp [new, Option.filter, nonzero]
  rw [get_eq_find (holds_store_all (some size) stores), store_all_size, sized, ← own_entries]
  apply Eq.symm
  apply find_put_all_filter
  intro entry _ shared
  exact decide_eq_true (congrArg Prod.fst shared)

theorem own_window_seqs {ssrc start : Nat} {stores : List Bytes} (inTurn : InTurn ssrc start stores)
    (skipped : Nat) :
    ((ownPackets ssrc stores).drop skipped).map seqOf =
      (List.range ((ownPackets ssrc stores).length - skipped)).map fun index =>
        (start + skipped + index) % 65536 := by
  rw [List.map_drop, inTurn]
  apply List.ext_getElem
  · simp
  · intro index left right
    simp [Nat.add_assoc]

theorem window_nodup_iff {ssrc start : Nat} {stores : List Bytes}
    (inTurn : InTurn ssrc start stores) (skipped size : Nat) :
    (((ownPackets ssrc stores).drop skipped).map
        fun packet => (ssrc, seqOf packet % size)).Nodup ↔
      ∀ left < (ownPackets ssrc stores).length - skipped,
        ∀ right < (ownPackets ssrc stores).length - skipped,
          ringSlot 65536 size (start + skipped + left) =
              ringSlot 65536 size (start + skipped + right) → left = right := by
  have slots : ((ownPackets ssrc stores).drop skipped).map
        (fun packet => (ssrc, seqOf packet % size)) =
      (List.range ((ownPackets ssrc stores).length - skipped)).map fun index =>
        (ssrc, ringSlot 65536 size (start + skipped + index)) := by
    have seqs := congrArg (List.map fun seq => (ssrc, seq % size)) (own_window_seqs inTurn skipped)
    rwa [List.map_map, List.map_map] at seqs
  rw [slots, List.nodup_map_iff_inj_on List.nodup_range]
  simp only [List.mem_range, Prod.mk.injEq, true_and]

theorem keeps_last_iff {size : Nat} (range : 1 ≤ size ∧ size ≤ 65536) {ssrc start : Nat}
    {stores : List Bytes} (inTurn : InTurn ssrc start stores) :
    KeepsLast size ssrc stores ↔
      65536 % size = 0 ∨ min size (ownPackets ssrc stores).length ≤ 65536 % size ∨
        min size (ownPackets ssrc stores).length ≤
          (start + (ownPackets ssrc stores).length - 1) % 65536 + 1 := by
  obtain ⟨positive, fits⟩ := range
  obtain ⟨skipped, skipping⟩ : ∃ skipped, skipped = (ownPackets ssrc stores).length - size :=
    ⟨_, rfl⟩
  have count : (ownPackets ssrc stores).length - skipped =
      min size (ownPackets ssrc stores).length := by omega
  have last : start + skipped + min size (ownPackets ssrc stores).length - 1 =
      start + (ownPackets ssrc stores).length - 1 := by omega
  have cut : (ownPackets ssrc stores).map (fun packet => ((ssrc, seqOf packet), packet)) =
      ((ownPackets ssrc stores).take skipped).map
          (fun packet => ((ssrc, seqOf packet), packet)) ++
        ((ownPackets ssrc stores).drop skipped).map
          fun packet => ((ssrc, seqOf packet), packet) := by
    rw [← List.map_append, List.take_append_drop]
  have distinct : ((((ownPackets ssrc stores).drop skipped).map
      fun packet => ((ssrc, seqOf packet), packet)).map Prod.fst).Nodup := by
    have keys : (((ownPackets ssrc stores).drop skipped).map
        fun packet => ((ssrc, seqOf packet), packet)).map Prod.fst =
        ((ownPackets ssrc stores).drop skipped).map
          fun packet => (ssrc, seqOf packet % 65536) := by
      rw [List.map_map]
      apply List.map_congr_left
      intro packet _
      have small : seqOf packet < 65536 := read_be_lt 2 packet 2
      exact congrArg (Prod.mk ssrc) (Nat.mod_eq_of_lt small).symm
    rw [keys, window_nodup_iff inTurn skipped 65536]
    exact no_collision_iff (Nat.le_refl 65536) (by omega) |>.mpr (Or.inl rfl)
  have found := @find_latest_iff _ _ _ (place size) _ _
    (((ownPackets ssrc stores).take skipped).map fun packet => ((ssrc, seqOf packet), packet))
    (((ownPackets ssrc stores).drop skipped).map fun packet => ((ssrc, seqOf packet), packet))
    distinct
  rw [← cut, List.forall_mem_map, List.map_map] at found
  have kept : KeepsLast size ssrc stores ↔
      (((ownPackets ssrc stores).drop skipped).map
        fun packet => (ssrc, seqOf packet % size)).Nodup := by
    rw [KeepsLast, ← skipping]
    simp only [get_own positive]
    exact found
  rw [kept, window_nodup_iff inTurn skipped size, count, no_collision_iff fits (by omega), last]

theorem sender_buffer_keeps_last_iff {size : Nat} (range : 1 ≤ size ∧ size ≤ 65536)
    (stores : List Bytes) :
    (∀ ssrc seq, ((new (some size)).storeAll stores).get ssrc seq = none ∨
      ((new (some size)).storeAll stores).get ssrc seq = latest ssrc seq stores) ∧
    ∀ ssrc start, InTurn ssrc start stores →
      (KeepsLast size ssrc stores ↔
        65536 % size = 0 ∨ min size (ownPackets ssrc stores).length ≤ 65536 % size ∨
          min size (ownPackets ssrc stores).length ≤
            (start + (ownPackets ssrc stores).length - 1) % 65536 + 1) := by
  constructor
  · exact get_latest (some size) stores
  · intro ssrc start inTurn
    exact keeps_last_iff range inTurn

def emptyPacket (ssrc seq : Nat) : Bytes :=
  [0x80, 96] ++ encodeBE 2 seq ++ encodeBE 4 0 ++ encodeBE 4 ssrc

/-- In a ring of three the last number of a cycle and the first of the next share
slot zero, so of two packets stored in turn the first is gone. -/
theorem sender_buffer_drops_at_wrap :
    InTurn 7 65535 [emptyPacket 7 65535, emptyPacket 7 0] ∧
      ¬ KeepsLast 3 7 [emptyPacket 7 65535, emptyPacket 7 0] := by
  decide +kernel

theorem sender_buffer_keeps_last_of_four :
    (∀ ssrc seq, ((new (some 4)).storeAll [emptyPacket 7 65535, emptyPacket 7 0]).get ssrc seq =
        none ∨
      ((new (some 4)).storeAll [emptyPacket 7 65535, emptyPacket 7 0]).get ssrc seq =
        latest ssrc seq [emptyPacket 7 65535, emptyPacket 7 0]) ∧
    KeepsLast 4 7 [emptyPacket 7 65535, emptyPacket 7 0] := by
  obtain ⟨named, kept⟩ := @sender_buffer_keeps_last_iff 4 (by decide)
    [emptyPacket 7 65535, emptyPacket 7 0]
  exact ⟨named, (kept 7 65535 (by decide +kernel)).mpr (.inl rfl)⟩

end SenderBuffer

end RtpPacket.Retransmit
