import RtpPacket.Codec.Vp9

/-!
# The VP9 payload descriptor

`WireDescriptor` is the descriptor that the payload format defines, with its
optional parts where the flags announce them. The reader walks the picture
identifier, the layer indices and the reference indices only, and it takes the bit
that announces a further reference index for the one that ends the list.
-/

namespace RtpPacket.Codec.Vp9

open ByteCodec Rtp

set_option autoImplicit false

structure LayerIndices where
  tid : Fin 8
  switchingUp : Bool
  sid : Fin 8
  interLayer : Bool
  deriving DecidableEq, Repr

def LayerIndices.byte (layers : LayerIndices) : Byte :=
  byteAt (layers.tid * 32 + bit 16 layers.switchingUp + layers.sid * 2 +
    bit 1 layers.interLayer) 0

structure References where
  diffs : List (Fin 0x80)
  count : 1 ≤ diffs.length ∧ diffs.length ≤ 3
  deriving DecidableEq, Repr

/-- The N bit of a difference says that another one follows. -/
def diffBytes : List (Fin 0x80) → Bytes
  | [] => []
  | diff :: rest => byteAt (diff * 2 + bit 1 (!rest.isEmpty)) 0 :: diffBytes rest

/-- The F bit and what depends on it: `TL0PICIDX` stands behind the layer indices in
one mode, the differences of an inter-picture predicted frame in the other. -/
inductive Mode where
  | nonFlexible (inter : Bool) (layers : Option (LayerIndices × Byte))
  | flexible (layers : Option LayerIndices) (references : Option References)
  deriving DecidableEq, Repr

namespace Mode

def isFlexible : Mode → Bool
  | nonFlexible _ _ => false
  | flexible _ _ => true

def inter : Mode → Bool
  | nonFlexible inter _ => inter
  | flexible _ references => references.isSome

def layers : Mode → Option LayerIndices
  | nonFlexible _ layers => layers.map Prod.fst
  | flexible layers _ => layers

def tl0PicIdx : Mode → Bytes
  | nonFlexible _ layers => (layers.map Prod.snd).toList
  | flexible _ _ => []

def diffs : Mode → Bytes
  | nonFlexible _ _ => []
  | flexible _ references => (references.map fun references => diffBytes references.diffs).getD []

end Mode

structure GroupPicture where
  tid : Fin 8
  switchingUp : Bool
  diffs : List Byte
  reserved : Fin 4
  few : diffs.length ≤ 3
  deriving DecidableEq, Repr

def GroupPicture.bytes (picture : GroupPicture) : Bytes :=
  byteAt (picture.tid * 32 + bit 16 picture.switchingUp + picture.diffs.length * 4 +
    picture.reserved) 0 :: picture.diffs

/-- The scalability structure: `N_S`, a width and a height for each of the `N_S + 1`
layers under the Y bit, a picture group under the G bit. -/
structure Scalability where
  spatialLayers : Fin 8
  resolutions : Option (Vector (Fin 0x10000 × Fin 0x10000) (spatialLayers + 1))
  pictures : Option { pictures : List GroupPicture // pictures.length < 0x100 }
  reserved : Fin 8

def Scalability.bytes (scalability : Scalability) : Bytes :=
  byteAt (scalability.spatialLayers * 32 + bit 16 scalability.resolutions.isSome +
      bit 8 scalability.pictures.isSome + scalability.reserved) 0 ::
    ((scalability.resolutions.map fun resolutions =>
        resolutions.toList.flatMap fun resolution =>
          encodeBE 2 resolution.1 ++ encodeBE 2 resolution.2).getD [] ++
      (scalability.pictures.map fun pictures =>
        byteAt pictures.1.length 0 :: pictures.1.flatMap GroupPicture.bytes).getD [])

structure WireDescriptor where
  pictureId : Option PictureIdField
  mode : Mode
  start : Bool
  ending : Bool
  scalability : Option Scalability
  notReference : Bool

namespace WireDescriptor

def flags (desc : WireDescriptor) : Nat :=
  bit 0x80 desc.pictureId.isSome + bit 0x40 desc.mode.inter + bit 0x20 desc.mode.layers.isSome +
    bit 0x10 desc.mode.isFlexible + bit 0x08 desc.start + bit 0x04 desc.ending +
    bit 0x02 desc.scalability.isSome + bit 0x01 desc.notReference

def pictureIdBytes (desc : WireDescriptor) : Bytes :=
  (desc.pictureId.map PictureIdField.bytes).getD []

def layerByte (desc : WireDescriptor) : Bytes := (desc.mode.layers.map LayerIndices.byte).toList

def scalabilityBytes (desc : WireDescriptor) : Bytes :=
  (desc.scalability.map Scalability.bytes).getD []

def bytes (desc : WireDescriptor) : Bytes :=
  byteAt desc.flags 0 :: (desc.pictureIdBytes ++ (desc.layerByte ++ (desc.mode.tl0PicIdx ++
    (desc.mode.diffs ++ desc.scalabilityBytes))))

theorem flag_bits (desc : WireDescriptor) :
    let flags := desc.flags % 256
    (flags &&& 0x80 ≠ 0 ↔ desc.pictureId.isSome = true) ∧
      (flags &&& 0x20 ≠ 0 ↔ desc.mode.layers.isSome = true) ∧
      (flags &&& 0x10 ≠ 0 ↔ desc.mode.isFlexible = true) ∧
      (flags &&& 0x40 != 0) = desc.mode.inter ∧ (flags &&& 0x08 != 0) = desc.start ∧
      (flags &&& 0x04 != 0) = desc.ending := by
  simp only [flags]
  generalize desc.pictureId.isSome = pictureId
  generalize desc.mode.layers.isSome = layers
  generalize desc.mode.isFlexible = isFlexible
  generalize desc.mode.inter = inter
  generalize desc.start = start
  generalize desc.ending = ending
  generalize desc.scalability.isSome = scalability
  generalize desc.notReference = notReference
  revert pictureId layers isFlexible inter start ending scalability notReference
  decide +kernel

theorem layer_fields (layers : LayerIndices) :
    layers.byte.toNat >>> 5 &&& 0x07 = layers.tid ∧
      layers.byte.toNat >>> 1 &&& 0x07 = layers.sid := by
  obtain ⟨tid, switchingUp, sid, interLayer⟩ := layers
  rw [LayerIndices.byte, byte_at_low]
  revert tid switchingUp sid interLayer
  decide +kernel

section Reading

variable (desc : WireDescriptor) (frame : Bytes)

def behindLayers : Bytes := desc.mode.tl0PicIdx ++ (desc.mode.diffs ++ desc.scalabilityBytes)

theorem bytes_shape : desc.bytes ++ frame =
    byteAt desc.flags 0 ::
      (desc.pictureIdBytes ++ (desc.layerByte ++ (desc.behindLayers ++ frame))) := by
  simp only [bytes, behindLayers, List.cons_append, List.append_assoc]

theorem read_picture_id :
    (if desc.flags % 256 &&& 0x80 ≠ 0 then
        if 1 < (desc.bytes ++ frame).length ∧
          ((desc.bytes ++ frame).getD 1 0).toNat &&& 0x80 ≠ 0 then 3 else 2
      else 1) = 1 + desc.pictureIdBytes.length := by
  have read := PictureIdField.read_length desc.pictureId [byteAt desc.flags 0]
    (desc.layerByte ++ (desc.behindLayers ++ frame))
  rw [bytes_shape, ← List.singleton_append, pictureIdBytes, ← read]
  simp only [desc.flag_bits.1, List.length_singleton]
  split_ifs <;> rfl

theorem drop_picture_id :
    (desc.bytes ++ frame).drop (1 + desc.pictureIdBytes.length) =
      desc.layerByte ++ (desc.behindLayers ++ frame) := by
  rw [bytes_shape, Nat.add_comm, List.drop_succ_cons, List.drop_left]

theorem read_layers (some : frame ≠ []) :
    1 + desc.pictureIdBytes.length < (desc.bytes ++ frame).length ∧
      ∀ layers ∈ desc.mode.layers,
        (desc.bytes ++ frame).getD (1 + desc.pictureIdBytes.length) 0 = layers.byte := by
  have rest := desc.drop_picture_id frame
  constructor
  · have positive := List.length_pos_iff.mpr some
    rw [bytes_shape]
    simp only [List.length_cons, List.length_append]
    omega
  · intro layers present
    have here : desc.layerByte = [layers.byte] := by
      rw [layerByte, present]
      rfl
    rw [here] at rest
    have head := congrArg (fun bytes : Bytes => bytes.getD 0 0) rest
    simpa [List.getD_eq_getElem?_getD, List.getElem?_drop] using head

theorem drop_layers :
    (desc.bytes ++ frame).drop (1 + desc.pictureIdBytes.length + desc.layerByte.length) =
      desc.behindLayers ++ frame := by
  rw [← List.drop_drop, drop_picture_id, List.drop_left]

/-- The whole of the reader's walk: it stops behind the layer indices, or behind the
first byte from there on whose lowest bit is set. -/
theorem read_wire (some : frame ≠ []) :
    readDescriptor (desc.bytes ++ frame) =
      let walked := 1 + desc.pictureIdBytes.length + desc.layerByte.length
      let hdrLen :=
        if desc.mode.isFlexible = true ∧ desc.mode.inter = true then
          walked + ((desc.behindLayers ++ frame).takeWhile fun byte =>
            byte.toNat &&& 0x01 == 0).length + 1
        else walked
      { ok := hdrLen < (desc.bytes ++ frame).length
        hdrLen := hdrLen
        start := desc.start
        ending := desc.ending
        inter := desc.mode.inter
        tid := desc.mode.layers.map fun layers => layers.tid
        sid := desc.mode.layers.map fun layers => layers.sid } := by
  obtain ⟨_, layered, flexible, inter, start, ending⟩ := desc.flag_bits
  obtain ⟨inside, layerByte'⟩ := desc.read_layers frame some
  have pictureId := desc.read_picture_id frame
  have behind := desc.drop_layers frame
  have nonempty : ¬ (desc.bytes ++ frame).length < 1 := by omega
  have first : ((desc.bytes ++ frame).getD 0 0).toNat = desc.flags % 256 := by
    rw [bytes_shape, List.getD_cons_zero, byte_at_low]
  rw [readDescriptor, if_neg nonempty]
  simp only [first, pictureId, layered, flexible, inter, start, ending, inside, and_true]
  cases present : desc.mode.layers with
  | none =>
      have none : desc.layerByte = [] := by
        rw [layerByte, present]
        rfl
      rw [none, List.length_nil, Nat.add_zero] at behind ⊢
      simp [behind]
  | some layers =>
      have one : desc.layerByte = [layers.byte] := by
        rw [layerByte, present]
        rfl
      obtain ⟨tid, sid⟩ := layer_fields layers
      have byte := layerByte' layers present
      rw [one, List.length_singleton] at behind ⊢
      simp only [byte, tid, sid]
      simp [behind]

theorem bytes_length : desc.bytes.length =
    1 + desc.pictureIdBytes.length + desc.layerByte.length + desc.behindLayers.length := by
  simp only [bytes, behindLayers, List.length_cons, List.length_append]
  omega

end Reading

def oddOnlyLast (bytes : Bytes) : Bool :=
  bytes.dropLast.all (fun byte => byte.toNat &&& 0x01 == 0) &&
    bytes.getLast?.any fun byte => byte.toNat &&& 0x01 != 0

/-- Nothing stands behind the layer indices; or the differences are read, and the last
byte of the descriptor is the first one behind the layer indices with its lowest bit
set. -/
def endsWhereRead (desc : WireDescriptor) : Bool :=
  if desc.mode.isFlexible && desc.mode.inter then
    oddOnlyLast (desc.mode.diffs ++ desc.scalabilityBytes)
  else desc.mode.tl0PicIdx.isEmpty && desc.scalability.isNone

/-- A walk past what meets `test`, and one further, ends behind `front` exactly when
the last item of it, and no other, fails the test. -/
theorem take_while_ends_iff {Item : Type} (test : Item → Bool) {front : List Item}
    (some : front ≠ []) (rest : List Item) :
    ((front ++ rest).takeWhile test).length + 1 = front.length ↔
      (front.dropLast.all test && front.getLast?.any fun item => !test item) = true := by
  induction front with
  | nil => exact absurd rfl some
  | cons item front ih =>
      rw [List.cons_append, List.takeWhile_cons]
      cases front with
      | nil => cases meets : test item <;> simp [meets]
      | cons next front =>
          cases meets : test item with
          | true =>
              have later := ih (List.cons_ne_nil _ _)
              simp only [if_true, List.length_cons] at later ⊢
              rw [Nat.add_right_cancel_iff, later]
              simp [meets]
          | false => simp [meets]

theorem diff_bytes_ne_nil (references : References) : diffBytes references.diffs ≠ [] := by
  have count := references.count.1
  cases diffs : references.diffs with
  | nil =>
      rw [diffs] at count
      cases count
  | cons diff rest => exact List.cons_ne_nil _ _

theorem hdr_len_iff (desc : WireDescriptor) {frame : Bytes} (some : frame ≠ []) :
    (readDescriptor (desc.bytes ++ frame)).hdrLen = desc.bytes.length ↔
      desc.endsWhereRead = true := by
  rw [desc.read_wire frame some, bytes_length]
  dsimp only
  by_cases walks : desc.mode.isFlexible = true ∧ desc.mode.inter = true
  · obtain ⟨flexible, inter⟩ := walks
    have shape : desc.behindLayers = desc.mode.diffs ++ desc.scalabilityBytes ∧
        desc.mode.diffs ++ desc.scalabilityBytes ≠ [] := by
      cases mode : desc.mode with
      | nonFlexible inter layers =>
          rw [mode] at flexible
          cases flexible
      | flexible layers references =>
          cases references with
          | none =>
              rw [mode] at inter
              cases inter
          | some references =>
              refine ⟨by simp [behindLayers, mode, Mode.tl0PicIdx], ?_⟩
              simp [Mode.diffs, diff_bytes_ne_nil references]
    have walked : _ ↔ oddOnlyLast (desc.mode.diffs ++ desc.scalabilityBytes) = true :=
      take_while_ends_iff (fun byte : Byte => byte.toNat &&& 0x01 == 0) shape.2 frame
    rw [if_pos ⟨flexible, inter⟩, endsWhereRead, if_pos (by simp [flexible, inter]), ← walked,
      shape.1]
    omega
  · have unread : (desc.mode.isFlexible && desc.mode.inter) = false := by
      simpa using walks
    have nothing : desc.mode.diffs = [] := by
      cases mode : desc.mode with
      | nonFlexible inter layers => rfl
      | flexible layers references =>
          cases references with
          | none => rfl
          | some references => simp [mode, Mode.isFlexible, Mode.inter] at walks
    have structured : desc.scalabilityBytes = [] ↔ desc.scalability.isNone = true := by
      cases present : desc.scalability with
      | none => simp [scalabilityBytes, present]
      | some scalability => simp [scalabilityBytes, present, Scalability.bytes]
    rw [if_neg walks, endsWhereRead, if_neg (by simp [unread]), Bool.and_eq_true,
      List.isEmpty_iff, ← structured, behindLayers, nothing, List.nil_append]
    constructor
    · intro same
      apply List.append_eq_nil_iff.mp
      apply List.length_eq_zero_iff.mp
      omega
    · rintro ⟨left, right⟩
      rw [left, right]
      rfl

/-- The reader reports the descriptor as it is, and the depacketizer takes the frame
bytes behind it. -/
def ReadCorrectly (desc : WireDescriptor) (frame : Bytes) : Prop :=
  let read := readDescriptor (desc.bytes ++ frame)
  read.hdrLen = desc.bytes.length ∧
    read.tid = desc.mode.layers.map (fun layers => layers.tid.val) ∧
    read.sid = desc.mode.layers.map (fun layers => layers.sid.val) ∧
    ∀ (self : FrameDepacketizer) (packet : ParsedPacket),
      self.callbacks.output = true → packet.payload = desc.bytes ++ frame →
      depacketize self packet =
        let taken := self.take desc.start frame
        if desc.ending || packet.marker then taken.handOut frameType packet.timestamp
        else (taken, [])

theorem descriptor_read_iff (desc : WireDescriptor) {frame : Bytes} (some : frame ≠ []) :
    desc.ReadCorrectly frame ↔ desc.endsWhereRead = true := by
  rw [← desc.hdr_len_iff some]
  constructor
  · intro correct
    exact correct.1
  · intro length
    have read := desc.read_wire frame some
    have tid := congrArg Descriptor.tid read
    have sid := congrArg Descriptor.sid read
    refine ⟨length, tid, sid, ?_⟩
    intro self packet listening payload
    have start : (readDescriptor (desc.bytes ++ frame)).start = desc.start :=
      congrArg Descriptor.start read
    have ending : (readDescriptor (desc.bytes ++ frame)).ending = desc.ending :=
      congrArg Descriptor.ending read
    have ok : (readDescriptor (desc.bytes ++ frame)).ok = true := by
      have within : (readDescriptor (desc.bytes ++ frame)).ok =
          decide ((readDescriptor (desc.bytes ++ frame)).hdrLen <
            (desc.bytes ++ frame).length) := by
        rw [read]
      have positive := List.length_pos_iff.mpr some
      rw [within, length, List.length_append, decide_eq_true_iff]
      omega
    have long : 1 ≤ (desc.bytes ++ frame).length := by
      rw [List.length_append, bytes_length]
      omega
    have kept : 0 < (self.take desc.start frame).fragments.length := by
      rw [FrameDepacketizer.take]
      split_ifs <;> simp
    simp only [depacketize, Callbacks.checkDepacketizePayload, listening, payload, long, ok, start,
      ending, length, List.drop_left, kept, decide_true, Bool.and_self, Bool.and_true,
      Bool.not_true, Bool.false_eq_true, if_false]

def wholeFrame (mode : Mode) (scalability : Option Scalability) : WireDescriptor where
  pictureId := some (.long 300)
  mode := mode
  start := true
  ending := true
  scalability := scalability
  notReference := false

theorem descriptor_read_flexible_layers :
    (wholeFrame (.flexible (some ⟨1, false, 2, false⟩) none) none).ReadCorrectly [0x82] :=
  (descriptor_read_iff _ (List.cons_ne_nil _ _)).mpr rfl

/-- `TL0PICIDX` goes into the frame, one reference index takes a byte of the frame
with it, and a scalability structure goes into the frame. -/
theorem descriptor_misread :
    ¬ (wholeFrame (.nonFlexible true (some (⟨1, false, 2, false⟩, 7))) none).ReadCorrectly
        [0x82] ∧
      ¬ (wholeFrame (.flexible none (some ⟨[3], by decide⟩)) none).ReadCorrectly [0x83, 0x49] ∧
      ¬ (wholeFrame (.nonFlexible false none) (some ⟨0, none, none, 0⟩)).ReadCorrectly
        [0x82] := by
  refine ⟨?_, ?_, ?_⟩
  · intro correct
    exact absurd correct.1 (by decide +kernel)
  · intro correct
    exact absurd correct.1 (by decide +kernel)
  · intro correct
    exact absurd correct.1 (by decide +kernel)

end WireDescriptor

end RtpPacket.Codec.Vp9
