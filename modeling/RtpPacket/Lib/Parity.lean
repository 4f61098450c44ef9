import RtpPacket.Lib.ByteCodec

/-!
# Recovery by parity

An accumulator into which items are mixed, where the order does not matter and a second
mixing undoes the first. Mixing all of a group but one into the group's own parity
leaves the one that is missing. Byte strings of different lengths are such items when
they are mixed byte by byte.
-/

namespace Parity

open ByteCodec

set_option autoImplicit false

section Accumulator

variable {State Item : Type*}

structure SelfInverse (mix : State → Item → State) : Prop where
  comm : ∀ state first second, mix (mix state first) second = mix (mix state second) first
  cancel : ∀ state item, mix (mix state item) item = state

variable {mix : State → Item → State}

theorem SelfInverse.foldl_mix (selfInverse : SelfInverse mix) (items : List Item) (item : Item)
    (state : State) : items.foldl mix (mix state item) = mix (items.foldl mix state) item := by
  induction items generalizing state with
  | nil => rfl
  | cons first rest ih => rw [List.foldl_cons, List.foldl_cons, selfInverse.comm, ih]

theorem SelfInverse.foldl_cancel (selfInverse : SelfInverse mix) (items : List Item)
    (state : State) : items.foldl mix (items.foldl mix state) = state := by
  induction items generalizing state with
  | nil => rfl
  | cons first rest ih =>
      rw [List.foldl_cons, List.foldl_cons, selfInverse.foldl_mix, ih, selfInverse.cancel]

/-- The parity of a group with all but one of its items mixed in again. -/
theorem SelfInverse.foldl_missing (selfInverse : SelfInverse mix) {group present : List Item}
    {missing : Item} (whole : group.Perm (missing :: present)) (state : State) :
    present.foldl mix (group.foldl mix state) = mix state missing := by
  have sorted : group.foldl mix state = present.foldl mix (mix state missing) :=
    whole.foldl_eq' (fun first _ second _ current => selfInverse.comm current first second) state
  rw [sorted, selfInverse.foldl_cancel]

end Accumulator

def xorInto : Bytes → Bytes → Bytes
  | target :: targets, byte :: bytes => (target ^^^ byte) :: xorInto targets bytes
  | targets, _ => targets

theorem xor_into_nil (target : Bytes) : xorInto target [] = target := by
  cases target <;> rfl

theorem xor_into_comm (target first second : Bytes) :
    xorInto (xorInto target first) second = xorInto (xorInto target second) first := by
  induction target generalizing first second with
  | nil => rfl
  | cons byte targets ih =>
      cases first with
      | nil => rw [xor_into_nil, xor_into_nil]
      | cons left lefts =>
          cases second with
          | nil => rw [xor_into_nil, xor_into_nil]
          | cons right rights =>
              simp only [xorInto]
              rw [ih, UInt8.xor_assoc, UInt8.xor_comm left right, ← UInt8.xor_assoc]

theorem xor_into_cancel (target bytes : Bytes) :
    xorInto (xorInto target bytes) bytes = target := by
  induction target generalizing bytes with
  | nil => rfl
  | cons byte targets ih =>
      cases bytes with
      | nil => rw [xor_into_nil, xor_into_nil]
      | cons other others =>
          simp only [xorInto]
          rw [ih, UInt8.xor_assoc, UInt8.xor_self, UInt8.xor_zero]

theorem xor_into_zeros {bytes : Bytes} {count : Nat} (room : bytes.length ≤ count) :
    xorInto (List.replicate count 0) bytes =
      bytes ++ List.replicate (count - bytes.length) 0 := by
  induction bytes generalizing count with
  | nil => rw [xor_into_nil]; rfl
  | cons byte bytes ih =>
      obtain ⟨count, rfl⟩ : ∃ less, count = less + 1 :=
        ⟨count - 1, by rw [List.length_cons] at room; omega⟩
      have less : bytes.length ≤ count := Nat.le_of_succ_le_succ room
      rw [List.replicate_succ, xorInto, ih less, UInt8.zero_xor, List.length_cons,
        Nat.add_sub_add_right]
      rfl

end Parity
