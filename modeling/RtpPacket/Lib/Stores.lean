import RtpPacket.Lib.ByteCodec

/-!
# Fields stored in place

A store overwrites a field of a buffer and leaves the rest where it is.
-/

namespace Stores

open ByteCodec

set_option autoImplicit false

section Lists

variable {α : Type} {offset count index : Nat} {field buffer : List α}

def store (offset : Nat) (field buffer : List α) : List α :=
  buffer.take offset ++ field ++ buffer.drop (offset + field.length)

theorem store_length (inside : offset + field.length ≤ buffer.length) :
    (store offset field buffer).length = buffer.length := by
  simp only [store, List.length_append, List.length_take, List.length_drop]
  omega

theorem get_store (inside : offset + field.length ≤ buffer.length) (index : Nat) :
    (store offset field buffer)[index]? =
      if offset ≤ index ∧ index < offset + field.length then field[index - offset]?
      else buffer[index]? := by
  have taken : (buffer.take offset).length = offset := by
    rw [List.length_take]
    omega
  rw [store, List.append_assoc, List.getElem?_append, List.getElem?_append, taken]
  by_cases before : index < offset
  · rw [if_pos before, if_neg (by omega), List.getElem?_take_of_lt before]
  · rw [if_neg before]
    by_cases within : index < offset + field.length
    · rw [if_pos (by omega), if_pos (by omega)]
    · rw [if_neg (by omega), if_neg (by omega), List.getElem?_drop]
      congr 1
      omega

theorem get_store_outside (inside : offset + field.length ≤ buffer.length)
    (outside : index < offset ∨ offset + field.length ≤ index) :
    (store offset field buffer)[index]? = buffer[index]? := by
  rw [get_store inside, if_neg (by omega)]

theorem store_self (inside : offset + count ≤ buffer.length) :
    store offset ((buffer.drop offset).take count) buffer = buffer := by
  have length : ((buffer.drop offset).take count).length = count := by
    rw [List.length_take, List.length_drop]
    omega
  rw [store, length, List.append_assoc, ← List.drop_drop, List.take_append_drop,
    List.take_append_drop]

theorem store_append (inside : offset + field.length ≤ buffer.length) (rest : List α) :
    store offset field (buffer ++ rest) = store offset field buffer ++ rest := by
  rw [store, store, List.take_append_of_le_length (by omega),
    List.drop_append_of_le_length inside, List.append_assoc, List.append_assoc, List.append_assoc]

theorem drop_store (inside : offset + field.length ≤ count) (short : count ≤ buffer.length) :
    (store offset field buffer).drop count = buffer.drop count := by
  have split := List.take_append_drop count buffer
  have length : (buffer.take count).length = count := by
    rw [List.length_take]
    omega
  conv_lhs => rw [← split, store_append (by omega)]
  apply List.drop_left'
  rw [store_length (by omega), length]

theorem stored_field (inside : offset + field.length ≤ buffer.length) :
    ((store offset field buffer).drop offset).take field.length = field := by
  have taken : (buffer.take offset).length = offset := by
    rw [List.length_take]
    omega
  rw [store, List.append_assoc, List.drop_left' taken, List.take_left]

end Lists

section Reads

variable {offset width : Nat} {buffer : Bytes}

theorem stored_length (inside : offset + width ≤ buffer.length) (value : Nat) :
    (store offset (encodeBE width value) buffer).length = buffer.length :=
  store_length (by rwa [encode_be_length])

theorem read_stored (inside : offset + width ≤ buffer.length) (value : Nat) :
    readBE width (store offset (encodeBE width value) buffer) offset = value % 256 ^ width := by
  have back := stored_field (show offset + (encodeBE width value).length ≤ buffer.length by
    rwa [encode_be_length])
  rw [encode_be_length] at back
  rw [readBE, back, decode_be_encode]

theorem store_read (inside : offset + width ≤ buffer.length) :
    store offset (encodeBE width (readBE width buffer offset)) buffer = buffer := by
  rw [encode_be_read_be inside]
  exact store_self inside

theorem read_be_congr {left right : Bytes}
    (same : ∀ index, offset ≤ index → index < offset + width → left[index]? = right[index]?) :
    readBE width left offset = readBE width right offset := by
  rw [readBE, readBE]
  apply congrArg decodeBE
  apply List.ext_getElem?
  intro index
  by_cases inside : index < width
  · rw [List.getElem?_take_of_lt inside, List.getElem?_take_of_lt inside, List.getElem?_drop,
      List.getElem?_drop]
    exact same _ (by omega) (by omega)
  · rw [List.getElem?_eq_none (by rw [List.length_take]; omega),
      List.getElem?_eq_none (by rw [List.length_take]; omega)]

theorem read_stored_elsewhere (inside : offset + width ≤ buffer.length) (value : Nat)
    {count place : Nat} (disjoint : place + count ≤ offset ∨ offset + width ≤ place) :
    readBE count (store offset (encodeBE width value) buffer) place =
      readBE count buffer place := by
  have length := encode_be_length width value
  apply read_be_congr
  intro index low high
  exact get_store_outside (by omega) (by omega)

end Reads

end Stores
