import Mathlib.Tactic

/-!
# Sliding windows over accepted indices

An index is admitted when it was not accepted before and lies less than `width`
below the highest accepted one. `Tracks` relates the set of accepted indices to
what an implementation keeps of it: the highest index and one bit for each
distance below it. The three update rules are the three accepting branches of a
window check.
-/

namespace SlidingWindow

set_option autoImplicit false

/-- The rule itself, over the set of indices accepted so far. -/
def Admits (width : Nat) (accepted : Set Nat) (index : Nat) : Prop :=
  index ∉ accepted ∧ ∀ earlier ∈ accepted, earlier < index + width

structure Tracks (width : Nat) (accepted : Set Nat) (highest : Nat) (bit : Nat → Bool) :
    Prop where
  highest_mem : highest ∈ accepted
  le_highest : ∀ index ∈ accepted, index ≤ highest
  bit_iff : ∀ distance < width,
    (bit distance = true ↔ distance ≤ highest ∧ highest - distance ∈ accepted)

namespace Tracks

variable {width : Nat} {accepted : Set Nat} {highest : Nat} {bit : Nat → Bool}

theorem first {index : Nat} {fresh : Nat → Bool}
    (only : ∀ distance < width, fresh distance = decide (distance = 0)) :
    Tracks width {index} index fresh where
  highest_mem := rfl
  le_highest := by
    intro other member
    exact Nat.le_of_eq member
  bit_iff := by
    intro distance inside
    rw [only distance inside, decide_eq_true_iff, Set.mem_singleton_iff]
    omega

/-- A new highest index moves every bit up by the jump and sets bit zero. -/
theorem advance (tracks : Tracks width accepted highest bit) {index : Nat}
    (ahead : highest < index) {moved : Nat → Bool}
    (shifted : ∀ distance < width, moved distance =
      (decide (distance = 0) ||
        decide (index - highest ≤ distance) && bit (distance - (index - highest)))) :
    Tracks width (insert index accepted) index moved where
  highest_mem := Set.mem_insert _ _
  le_highest := by
    intro other member
    rcases member with rfl | earlier
    · exact Nat.le_refl _
    · exact Nat.le_of_lt (Nat.lt_of_le_of_lt (tracks.le_highest other earlier) ahead)
  bit_iff := by
    intro distance inside
    rw [shifted distance inside, Bool.or_eq_true, Bool.and_eq_true, decide_eq_true_iff,
      decide_eq_true_iff, Set.mem_insert_iff]
    constructor
    · rintro (rfl | ⟨beyond, seen⟩)
      · exact ⟨Nat.zero_le _, Or.inl rfl⟩
      · obtain ⟨below, member⟩ := (tracks.bit_iff _ (by omega)).mp seen
        have place : highest - (distance - (index - highest)) = index - distance := by omega
        exact ⟨by omega, Or.inr (place ▸ member)⟩
    · rintro ⟨below, same | member⟩
      · exact Or.inl (by omega)
      · have bounded := tracks.le_highest _ member
        have place : highest - (distance - (index - highest)) = index - distance := by omega
        refine Or.inr ⟨by omega, (tracks.bit_iff _ (by omega)).mpr ⟨by omega, ?_⟩⟩
        exact place ▸ member

/-- A late index inside the window sets its own bit. -/
theorem fill (tracks : Tracks width accepted highest bit) {index : Nat}
    (late : index ≤ highest) {filled : Nat → Bool}
    (set : ∀ distance < width, filled distance =
      (decide (distance = highest - index) || bit distance)) :
    Tracks width (insert index accepted) highest filled where
  highest_mem := Set.mem_insert_of_mem _ tracks.highest_mem
  le_highest := by
    intro other member
    rcases member with rfl | earlier
    · exact late
    · exact tracks.le_highest other earlier
  bit_iff := by
    intro distance inside
    rw [set distance inside, Bool.or_eq_true, decide_eq_true_iff, tracks.bit_iff distance inside,
      Set.mem_insert_iff]
    constructor
    · rintro (rfl | ⟨below, member⟩)
      · exact ⟨by omega, Or.inl (by omega)⟩
      · exact ⟨below, Or.inr member⟩
    · rintro ⟨below, same | member⟩
      · exact Or.inl (by omega)
      · exact Or.inr ⟨below, member⟩

theorem admits_ahead (tracks : Tracks width accepted highest bit) {index : Nat}
    (ahead : highest < index) : Admits width accepted index := by
  constructor
  · intro member
    exact absurd (tracks.le_highest index member) (by omega)
  · intro earlier member
    have bounded := tracks.le_highest earlier member
    omega

theorem not_admits_old (tracks : Tracks width accepted highest bit) {index : Nat}
    (old : index + width ≤ highest) : ¬ Admits width accepted index := by
  rintro ⟨_, inside⟩
  exact absurd (inside highest tracks.highest_mem) (by omega)

theorem admits_late_iff (tracks : Tracks width accepted highest bit) {index : Nat}
    (late : index ≤ highest) (inside : highest < index + width) :
    Admits width accepted index ↔ bit (highest - index) = false := by
  have place : highest - (highest - index) = index := by omega
  rw [← Bool.not_eq_true, tracks.bit_iff _ (by omega), place]
  constructor
  · rintro ⟨absent, _⟩ ⟨_, member⟩
    exact absent member
  · intro clear
    refine ⟨fun member => clear ⟨by omega, member⟩, ?_⟩
    intro earlier member
    have bounded := tracks.le_highest earlier member
    omega

end Tracks

end SlidingWindow
