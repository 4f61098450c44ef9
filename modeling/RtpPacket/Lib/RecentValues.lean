import Mathlib.Data.List.DropRight
import Mathlib.Data.List.Rotate
import Mathlib.Tactic

/-!
# Rings of recent values

A list that grows up to a capacity and is then overwritten from its start on. One index
says where the next value goes in both phases. Read from that index on, and around, the
list holds the last values of the history, the oldest one first.
-/

namespace RecentValues

set_option autoImplicit false

variable {Value : Type*}

def write (values : List Value) (index : Nat) (value : Value) : List Value :=
  if index < values.length then values.set index value else values ++ [value]

structure Ring (capacity : Nat) (history values : List Value) (index : Nat) : Prop where
  place : index = history.length % capacity
  from_oldest : values.rotate index = history.rtake capacity

theorem ring_nil (capacity : Nat) : Ring capacity ([] : List Value) [] 0 where
  place := (Nat.zero_mod capacity).symm
  from_oldest := (List.rtake_nil capacity).symm

theorem length_rtake (history : List Value) (count : Nat) :
    (history.rtake count).length = min history.length count := by
  rw [List.rtake, List.length_drop]
  omega

theorem rtake_of_length_le {history : List Value} {count : Nat} (short : history.length ≤ count) :
    history.rtake count = history := by
  rw [List.rtake, Nat.sub_eq_zero_of_le short, List.drop_zero]

theorem rtake_eq_tail {history : List Value} {count : Nat} (long : count < history.length) :
    history.rtake count = (history.rtake (count + 1)).tail := by
  rw [List.rtake, List.rtake, List.tail_drop]
  congr 1
  omega

/-- While a ring is filling, it starts with its oldest value. -/
theorem rotate_length_mod {values : List Value} {capacity : Nat}
    (room : values.length ≤ capacity) : values.rotate (values.length % capacity) = values := by
  cases Nat.lt_or_eq_of_le room with
  | inl filling => rw [Nat.mod_eq_of_lt filling, List.rotate_length]
  | inr full => rw [full, Nat.mod_self, List.rotate_zero]

theorem rotate_set {values : List Value} {index : Nat} (inside : index < values.length)
    (value : Value) :
    (values.set index value).rotate (index + 1) = (values.rotate index).tail ++ [value] := by
  have kept : index < (values.set index value).length := by rwa [List.length_set]
  rw [List.rotate_eq_drop_append_take inside.le, List.rotate_eq_drop_append_take kept,
    List.drop_set_of_lt (Nat.lt_succ_self index), List.take_succ_eq_append_getElem kept,
    List.take_set_of_le le_rfl, List.getElem_set_self, List.drop_eq_getElem_cons inside,
    List.cons_append, List.tail_cons, List.append_assoc]

namespace Ring

variable {capacity index : Nat} {history values : List Value}

theorem perm (ring : Ring capacity history values index) :
    values.Perm (history.rtake capacity) :=
  ring.from_oldest ▸ (List.rotate_perm values index).symm

theorem length (ring : Ring capacity history values index) :
    values.length = min history.length capacity := by
  rw [ring.perm.length_eq, length_rtake]

theorem filling_eq (ring : Ring capacity history values index)
    (filling : history.length ≤ capacity) : values = history := by
  have same : values.length = history.length := ring.length.trans (min_eq_left filling)
  have oldest := ring.from_oldest
  rwa [ring.place, ← same, rotate_length_mod (same.trans_le filling),
    rtake_of_length_le filling] at oldest

/-- The next slot is free exactly while the ring is filling. -/
theorem lt_length_iff (ring : Ring capacity history values index) (some : 0 < capacity) :
    index < values.length ↔ capacity ≤ history.length := by
  rw [ring.length, ring.place]
  constructor
  · intro inside
    by_contra filling
    rw [Nat.mod_eq_of_lt (not_le.mp filling)] at inside
    exact absurd (inside.trans_le (min_le_left _ _)) (lt_irrefl _)
  · intro full
    rw [min_eq_right full]
    exact Nat.mod_lt _ some

/-- One more value takes the place of the oldest one, once the ring is full. -/
theorem write_next (ring : Ring capacity history values index) (some : 0 < capacity)
    (value : Value) :
    Ring capacity (history ++ [value]) (write values index value) ((index + 1) % capacity) := by
  have place : (index + 1) % capacity = (history ++ [value]).length % capacity := by
    rw [ring.place, Nat.mod_add_mod, List.length_append, List.length_singleton]
  apply Ring.mk place
  by_cases full : capacity ≤ history.length
  · have inside := (ring.lt_length_iff some).mpr full
    have whole : (values.set index value).length = capacity := by
      rw [List.length_set, ring.length, min_eq_right full]
    obtain ⟨count, rfl⟩ := Nat.exists_eq_add_one.mpr some
    calc (write values index value).rotate ((index + 1) % (count + 1))
        = (values.set index value).rotate (index + 1) := by
          rw [write, if_pos inside, ← whole, List.rotate_mod]
      _ = (history.rtake (count + 1)).tail ++ [value] := by
          rw [rotate_set inside, ring.from_oldest]
      _ = (history ++ [value]).rtake (count + 1) := by
          rw [List.rtake_concat_succ, rtake_eq_tail full]
  · have outside := (ring.lt_length_iff some).not.mpr full
    have room : (history ++ [value]).length ≤ capacity := by
      rw [List.length_append]
      exact not_le.mp full
    rw [write, if_neg outside, ring.filling_eq (not_le.mp full).le, place,
      rotate_length_mod room, rtake_of_length_le room]

end Ring

end RecentValues
