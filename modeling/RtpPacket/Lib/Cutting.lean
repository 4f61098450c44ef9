import Mathlib.Tactic

/-!
# Cutting a list into pieces

`cut size count` takes `count` pieces of at most `size` elements off the front.
With as many pieces as the length needs, none of them is empty and together they
are the list.
-/

namespace Cutting

set_option autoImplicit false

variable {α : Type}

def cut (size : Nat) : Nat → List α → List (List α)
  | 0, _ => []
  | count + 1, items => items.take size :: cut size count (items.drop size)

/-- The number of pieces a list of this length needs, its length over the size rounded up. -/
def needed (size length : Nat) : Nat := (length + size - 1) / size

theorem needed_covers {size : Nat} (positive : 0 < size) (length : Nat) :
    length ≤ needed size length * size := by
  have rest := Nat.mod_lt (length + size - 1) positive
  have split := Nat.div_add_mod' (length + size - 1) size
  rw [needed]
  omega

theorem needed_tight {size length : Nat} (positive : 0 < size) :
    needed size length * size < length + size := by
  have split := Nat.div_mul_le_self (length + size - 1) size
  rw [needed]
  omega

theorem needed_eq_zero_iff {size length : Nat} (positive : 0 < size) :
    needed size length = 0 ↔ length = 0 := by
  rw [needed, Nat.div_eq_zero_iff]
  omega

theorem needed_step {size length : Nat} (positive : 0 < size) (some : 0 < length) :
    needed size length = needed size (length - size) + 1 := by
  rw [needed, needed]
  by_cases long : size ≤ length
  · have whole : length + size - 1 = length - size + size - 1 + size := by omega
    rw [whole, Nat.add_div_right _ positive]
  · have short : length - size + size - 1 < size := by omega
    have one : length + size - 1 = length - 1 + size := by omega
    rw [Nat.div_eq_of_lt short, one, Nat.add_div_right _ positive, Nat.div_eq_of_lt (by omega)]

theorem one_lt_needed {size length : Nat} (positive : 0 < size) (long : size < length) :
    1 < needed size length := by
  have rest : needed size (length - size) ≠ 0 := by
    rw [ne_eq, needed_eq_zero_iff positive]
    omega
  rw [needed_step positive (by omega)]
  omega

/-- Bounding a piece by what is left changes nothing. -/
theorem take_bounded (size : Nat) (items : List α) :
    items.take (min size items.length) = items.take size := by
  rw [List.take_eq_take_iff]
  omega

theorem drop_bounded (offset size : Nat) (items : List α) :
    items.drop (offset + min size (items.drop offset).length) =
      (items.drop offset).drop size := by
  rw [List.drop_drop, List.length_drop]
  by_cases full : size ≤ items.length - offset
  · rw [Nat.min_eq_left full]
  · rw [List.drop_of_length_le (by omega), List.drop_of_length_le (by omega)]

@[simp] theorem cut_length (size count : Nat) (items : List α) :
    (cut size count items).length = count := by
  induction count generalizing items with
  | zero => rfl
  | succ count ih => rw [cut, List.length_cons, ih]

theorem cut_flatten {size count : Nat} {items : List α} (covers : items.length ≤ count * size) :
    (cut size count items).flatten = items := by
  induction count generalizing items with
  | zero =>
      rw [Nat.zero_mul, Nat.le_zero, List.length_eq_zero_iff] at covers
      rw [covers]
      rfl
  | succ count ih =>
      have rest : (items.drop size).length ≤ count * size := by
        rw [List.length_drop]
        rw [Nat.succ_mul] at covers
        omega
      rw [cut, List.flatten_cons, ih rest, List.take_append_drop]

theorem cut_piece_length {size count : Nat} {items : List α} :
    ∀ piece ∈ cut size count items, piece.length ≤ size := by
  induction count generalizing items with
  | zero => simp [cut]
  | succ count ih =>
      intro piece member
      cases List.mem_cons.mp member with
      | inl first =>
          rw [first]
          exact List.length_take_le size items
      | inr later => exact ih piece later

theorem cut_piece_nonempty {size count : Nat} (positive : 0 < size) {items : List α}
    (tight : count * size < items.length + size) :
    ∀ piece ∈ cut size count items, piece ≠ [] := by
  induction count generalizing items with
  | zero => simp [cut]
  | succ count ih =>
      rw [Nat.succ_mul] at tight
      intro piece member
      cases List.mem_cons.mp member with
      | inl first =>
          have long : items.length ≠ 0 := by omega
          rw [first, ← List.length_pos_iff, List.length_take]
          omega
      | inr later =>
          apply ih _ piece later
          rw [List.length_drop]
          omega

end Cutting
