import Mathlib.Tactic

/-!
# Writes into a buffer of fixed size

A write replaces what the buffer holds from an offset on; what would lie behind its end is
cut off. Writes that follow one another from the start of the buffer to its end leave
nothing of what it held before.
-/

namespace Writes

set_option autoImplicit false

variable {Item : Type*}

structure Write (Item : Type*) where
  offset : Nat
  content : List Item

def write (buffer : List Item) (entry : Write Item) : List Item :=
  buffer.take entry.offset ++ entry.content.take (buffer.length - entry.offset) ++
    buffer.drop (entry.offset + entry.content.length)

def writeAll (buffer : List Item) (entries : List (Write Item)) : List Item :=
  entries.foldl write buffer

def contents (entries : List (Write Item)) : List Item := entries.flatMap Write.content

/-- Every write starts where the one before it ended. -/
def Adjacent : Nat → List (Write Item) → Prop
  | _, [] => True
  | start, entry :: rest => entry.offset = start ∧ Adjacent (start + entry.content.length) rest

theorem adjacent_append {first second : List (Write Item)} {start : Nat} :
    Adjacent start (first ++ second) ↔
      Adjacent start first ∧ Adjacent (start + (contents first).length) second := by
  induction first generalizing start with
  | nil => exact (and_iff_right trivial).symm
  | cons entry rest ih =>
      rw [List.cons_append, Adjacent, Adjacent, ih, and_assoc, contents, contents,
        List.flatMap_cons, List.length_append, Nat.add_assoc]

theorem contents_append (first second : List (Write Item)) :
    contents (first ++ second) = contents first ++ contents second := List.flatMap_append

section Conditional

variable {condition : Prop} [Decidable condition] {offset : Nat} {content : List Item}

theorem adjacent_ite : Adjacent offset (if condition then [⟨offset, content⟩] else []) := by
  split_ifs
  · exact ⟨rfl, trivial⟩
  · trivial

theorem contents_ite (empty : ¬condition → content = []) :
    contents (if condition then [⟨offset, content⟩] else []) = content := by
  split_ifs with given
  · exact List.append_nil content
  · exact (empty given).symm

end Conditional

theorem adjacent_map_idx {Value : Type*} {encode : Value → List Item} {width : Nat}
    (size : ∀ value, (encode value).length = width) (values : List Value) (start : Nat) :
    Adjacent start
      (values.mapIdx fun index value => ⟨start + index * width, encode value⟩) := by
  induction values generalizing start with
  | nil => trivial
  | cons value rest ih =>
      rw [List.mapIdx_cons]
      constructor
      · rw [Nat.zero_mul, Nat.add_zero]
      · have next := ih (start + width)
        rw [size]
        simpa only [Nat.succ_mul, Nat.add_comm width, Nat.add_assoc] using next

theorem contents_map_idx {Value : Type*} (encode : Value → List Item) (place : Nat → Nat)
    (values : List Value) :
    contents (values.mapIdx fun index value => ⟨place index, encode value⟩) =
      values.flatMap encode := by
  induction values generalizing place with
  | nil => rfl
  | cons value rest ih =>
      rw [List.mapIdx_cons, contents, List.flatMap_cons, List.flatMap_cons]
      exact congrArg (encode value ++ ·) (ih fun index => place (index + 1))

theorem write_next {before left : List Item} {entry : Write Item}
    (place : entry.offset = before.length) (room : entry.content.length ≤ left.length) :
    write (before ++ left) entry =
      before ++ entry.content ++ left.drop entry.content.length := by
  have size : (before ++ left).length - before.length = left.length := by
    rw [List.length_append, Nat.add_sub_cancel_left]
  rw [write, place, size, List.take_left, List.take_of_length_le room, List.drop_length_add_append]

theorem write_all_adjacent {entries : List (Write Item)} {before left : List Item}
    (adjacent : Adjacent before.length entries) (room : (contents entries).length ≤ left.length) :
    writeAll (before ++ left) entries =
      before ++ contents entries ++ left.drop (contents entries).length := by
  induction entries generalizing before left with
  | nil => simp [writeAll, contents]
  | cons entry rest ih =>
      obtain ⟨place, later⟩ := adjacent
      have split : contents (entry :: rest) = entry.content ++ contents rest := rfl
      rw [split, List.length_append] at room
      rw [← List.length_append] at later
      have next := @ih _ (left.drop entry.content.length) later (by
        rw [List.length_drop]
        omega)
      rw [writeAll, List.foldl_cons, write_next place (by omega)]
      rw [writeAll] at next
      rw [next, split, List.length_append, List.drop_drop]
      simp only [List.append_assoc]

/-- What is written in full does not depend on what was there. -/
theorem write_all_covers {entries : List (Write Item)} {buffer : List Item}
    (adjacent : Adjacent 0 entries) (size : buffer.length = (contents entries).length) :
    writeAll buffer entries = contents entries := by
  have whole := @write_all_adjacent _ entries [] buffer adjacent size.ge
  rwa [List.nil_append, List.nil_append, List.drop_of_length_le size.le, List.append_nil] at whole

end Writes
