import Mathlib.Tactic

/-!
# Results that can throw

What a successful result says about the steps that led to it.
-/

namespace Checked

set_option autoImplicit false

variable {ε α β : Type}

theorem of_bind_ok {first : Except ε α} {later : α → Except ε β} {value : β}
    (passed : first >>= later = .ok value) :
    ∃ middle, first = .ok middle ∧ later middle = .ok value := by
  cases first with
  | error message => cases passed
  | ok middle => exact ⟨middle, rfl, passed⟩

/-- A check that throws lets a result through only when it does not fire. -/
theorem of_check_ok {failed : Prop} [Decidable failed] {message : ε}
    {later : Unit → Except ε α} {value : α}
    (passed : (if failed then throw message >>= later else later ()) = .ok value) :
    later () = .ok value := by
  by_cases fires : failed
  · rw [if_pos fires] at passed
    cases passed
  · rw [if_neg fires] at passed
    exact passed

theorem of_map_ok {convert : α → β} {first : Except ε α} {value : β}
    (passed : first.map convert = .ok value) :
    ∃ source, first = .ok source ∧ convert source = value := by
  cases first with
  | error message => cases passed
  | ok source => exact ⟨source, rfl, Except.ok.inj passed⟩

end Checked
