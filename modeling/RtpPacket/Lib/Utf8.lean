import RtpPacket.Lib.ByteCodec

/-!
# UTF-8 text in buffers

Writing is the standard encoding. Reading never fails: a byte that cannot start
or continue a character yields a replacement character and, when it cut a
character short, is looked at once more as a first byte.
-/

namespace Utf8

open ByteCodec

set_option autoImplicit false

def utf8Bytes (text : String) : Bytes := text.toList.flatMap String.utf8EncodeChar

def replacementChar : Char := Char.ofNat 0xFFFD

/-- How many bytes the character at hand still needs, its value so far and the
bounds on the next byte. -/
structure Progress where
  needed : Nat
  codePoint : Nat
  lower : Nat
  upper : Nat

def Progress.none : Progress where
  needed := 0
  codePoint := 0
  lower := 0x80
  upper := 0xBF

def firstByte (byte : Nat) : Progress × List Char :=
  if byte < 0x80 then (.none, [Char.ofNat byte])
  else if 0xC2 ≤ byte ∧ byte ≤ 0xDF then (⟨1, byte % 0x20, 0x80, 0xBF⟩, [])
  else if 0xE0 ≤ byte ∧ byte ≤ 0xEF then
    (⟨2, byte % 0x10, if byte = 0xE0 then 0xA0 else 0x80, if byte = 0xED then 0x9F else 0xBF⟩, [])
  else if 0xF0 ≤ byte ∧ byte ≤ 0xF4 then
    (⟨3, byte % 8, if byte = 0xF0 then 0x90 else 0x80, if byte = 0xF4 then 0x8F else 0xBF⟩, [])
  else (.none, [replacementChar])

def nextByte (progress : Progress) (byte : Nat) : Progress × List Char :=
  if progress.needed = 0 then firstByte byte
  else if byte < progress.lower ∨ progress.upper < byte then
    let restarted := firstByte byte
    (restarted.1, replacementChar :: restarted.2)
  else
    let codePoint := progress.codePoint * 0x40 + byte % 0x40
    if progress.needed = 1 then (.none, [Char.ofNat codePoint])
    else (⟨progress.needed - 1, codePoint, 0x80, 0xBF⟩, [])

def decodeLoop : Progress → Bytes → List Char
  | progress, [] => if progress.needed = 0 then [] else [replacementChar]
  | progress, byte :: rest =>
      let next := nextByte progress byte.toNat
      next.2 ++ decodeLoop next.1 rest

def utf8Text (bytes : Bytes) : String := String.ofList (decodeLoop .none bytes)

theorem next_byte_more {needed codePoint lower upper byte : Nat} (more : 1 < needed)
    (low : lower ≤ byte) (high : byte ≤ upper) :
    nextByte ⟨needed, codePoint, lower, upper⟩ byte =
      (⟨needed - 1, codePoint * 0x40 + byte % 0x40, 0x80, 0xBF⟩, []) := by
  simp only [nextByte]
  rw [if_neg (by omega), if_neg (by omega), if_neg (by omega)]

theorem next_byte_last {codePoint lower upper byte : Nat} (low : lower ≤ byte)
    (high : byte ≤ upper) :
    nextByte ⟨1, codePoint, lower, upper⟩ byte =
      (.none, [Char.ofNat (codePoint * 0x40 + byte % 0x40)]) := by
  simp only [nextByte]
  rw [if_neg (by omega), if_neg (by omega), if_true]

theorem first_byte_two {byte : Nat} (low : 0xC2 ≤ byte) (high : byte ≤ 0xDF) :
    nextByte .none byte = (⟨1, byte % 0x20, 0x80, 0xBF⟩, []) := by
  simp only [nextByte, Progress.none, if_pos, firstByte]
  rw [if_neg (by omega), if_pos ⟨low, high⟩]

theorem first_byte_three {byte : Nat} (low : 0xE0 ≤ byte) (high : byte ≤ 0xEF) :
    nextByte .none byte = (⟨2, byte % 0x10, if byte = 0xE0 then 0xA0 else 0x80,
      if byte = 0xED then 0x9F else 0xBF⟩, []) := by
  simp only [nextByte, Progress.none, if_pos, firstByte]
  rw [if_neg (by omega), if_neg (by omega), if_pos ⟨low, high⟩]

theorem first_byte_four {byte : Nat} (low : 0xF0 ≤ byte) (high : byte ≤ 0xF4) :
    nextByte .none byte = (⟨3, byte % 8, if byte = 0xF0 then 0x90 else 0x80,
      if byte = 0xF4 then 0x8F else 0xBF⟩, []) := by
  simp only [nextByte, Progress.none, if_pos, firstByte]
  rw [if_neg (by omega), if_neg (by omega), if_neg (by omega), if_pos ⟨low, high⟩]

/-- The lower bound of a second byte keeps out long forms, the upper bound surrogates and
what is beyond the last character. -/
theorem decode_char (char : Char) (rest : Bytes) :
    decodeLoop .none (String.utf8EncodeChar char ++ rest) = char :: decodeLoop .none rest := by
  have valid : char.val.toNat < 0xD800 ∨ 0xDFFF < char.val.toNat ∧ char.val.toNat < 0x110000 :=
    char.valid
  have whole : Char.ofNat char.val.toNat = char := Char.ofNat_toNat char
  have byte {value : Nat} (small : value < 0x100) : (UInt8.ofNat value).toNat = value := by
    rw [UInt8.toNat_ofNat']
    exact Nat.mod_eq_of_lt small
  rw [String.utf8EncodeChar]
  generalize char.val.toNat = v at valid whole ⊢
  split_ifs with one two three
  · have first : nextByte .none v = (.none, [char]) := by
      simp only [nextByte, Progress.none, if_true, firstByte]
      rw [if_pos (by omega), whole]
    simp only [List.cons_append, List.nil_append, decodeLoop]
    rw [byte (by omega), first]
    rfl
  · have value : (v / 64 % 32 + 0xC0) % 32 * 64 + (v % 64 + 0x80) % 64 = v := by omega
    simp only [List.cons_append, List.nil_append, decodeLoop]
    rw [byte (by omega), byte (by omega), first_byte_two (by omega) (by omega)]
    dsimp only
    rw [next_byte_last (by omega) (by omega), value, whole]
    rfl
  · have value : ((v / 4096 % 16 + 0xE0) % 16 * 64 + (v / 64 % 64 + 0x80) % 64) * 64 +
        (v % 64 + 0x80) % 64 = v := by omega
    simp only [List.cons_append, List.nil_append, decodeLoop]
    rw [byte (by omega), byte (by omega), byte (by omega),
      first_byte_three (by omega) (by omega)]
    dsimp only
    rw [next_byte_more (by omega) (by split_ifs <;> omega) (by split_ifs <;> omega)]
    dsimp only
    rw [next_byte_last (by omega) (by omega), value, whole]
    rfl
  · have value : (((v / 262144 % 8 + 0xF0) % 8 * 64 + (v / 4096 % 64 + 0x80) % 64) * 64 +
        (v / 64 % 64 + 0x80) % 64) * 64 + (v % 64 + 0x80) % 64 = v := by omega
    simp only [List.cons_append, List.nil_append, decodeLoop]
    rw [byte (by omega), byte (by omega), byte (by omega), byte (by omega),
      first_byte_four (by omega) (by omega)]
    dsimp only
    rw [next_byte_more (by omega) (by split_ifs <;> omega) (by split_ifs <;> omega)]
    dsimp only
    rw [next_byte_more (by omega) (by omega) (by omega)]
    dsimp only
    rw [next_byte_last (by omega) (by omega), value, whole]
    rfl

theorem utf8_text_bytes (text : String) : utf8Text (utf8Bytes text) = text := by
  have chars (chars : List Char) :
      decodeLoop .none (chars.flatMap String.utf8EncodeChar) = chars := by
    induction chars with
    | nil => rfl
    | cons char rest ih => rw [List.flatMap_cons, decode_char, ih]
  rw [utf8Text, utf8Bytes, chars, String.ofList_toList]

end Utf8
