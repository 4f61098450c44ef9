import Mathlib.Data.List.MinMax
import Mathlib.Tactic

/-!
# The furthest entry of a numbered stream

Entries carry a number; the furthest one of a list is the first with the greatest
number. As long as every number is less than half the cycle from the furthest one
before it, the numbers can be told from their residues.
-/

namespace Furthest

set_option autoImplicit false

variable {Entry : Type*}

/-- Every number is less than half of `modulus` from the furthest one before it. -/
def Near (modulus : Nat) (number : Entry → Int) (entries : List Entry) : Prop :=
  ∀ index, ∀ inside : index < entries.length,
    ∀ furthest ∈ (entries.take index).argmax number,
      2 * (number entries[index] - number furthest).natAbs < modulus

variable {modulus : Nat} {number : Entry → Int}

theorem near_of_append {entries more : List Entry} (near : Near modulus number (entries ++ more)) :
    Near modulus number entries := by
  intro index inside furthest found
  have within := near index (by simp; omega) furthest
    (by rwa [List.take_append_of_le_length (Nat.le_of_lt inside)])
  rwa [List.getElem_append_left inside] at within

theorem near_last {entries : List Entry} {last furthest : Entry}
    (near : Near modulus number (entries ++ [last]))
    (found : furthest ∈ entries.argmax number) :
    2 * (number last - number furthest).natAbs < modulus := by
  have within := near entries.length (by simp) furthest (by rwa [List.take_left])
  rwa [List.getElem_concat_length rfl] at within

end Furthest
