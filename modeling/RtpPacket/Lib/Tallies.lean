import Mathlib.Tactic

/-!
# Tallies

How often each of the numbers below a width occurs in a list of integers. A value that
comes or goes changes one count, and the counts below a bound add up to the number of
values below it.
-/

namespace Tallies

set_option autoImplicit false

variable {width : Nat} {values others rest : List Int} {value : Int}

def tally (width : Nat) (values : List Int) : List Int :=
  (List.range width).map fun (bucket : Nat) => (values.count (bucket : Int) : Int)

@[simp] theorem length_tally : (tally width values).length = width := by
  rw [tally, List.length_map, List.length_range]

@[simp] theorem getElem_tally {bucket : Nat} (inside : bucket < (tally width values).length) :
    (tally width values)[bucket] = values.count (bucket : Int) := by
  simp only [tally, List.getElem_map, List.getElem_range]

theorem tally_nil : tally width [] = List.replicate width 0 := by
  apply List.ext_getElem
  · rw [length_tally, List.length_replicate]
  · intro bucket inside _
    rw [getElem_tally, List.getElem_replicate, List.count_nil, Nat.cast_zero]

theorem tally_perm (same : values.Perm others) : tally width values = tally width others := by
  simp only [tally, same.count_eq]

theorem tally_cons (nonneg : 0 ≤ value) :
    tally width (value :: rest) = (tally width rest).modify value.toNat (· + 1) := by
  apply List.ext_getElem
  · rw [List.length_modify, length_tally, length_tally]
  · intro bucket inside _
    have here : (value == (bucket : Int)) = true ↔ value.toNat = bucket := by
      rw [beq_iff_eq]
      omega
    rw [getElem_tally, List.getElem_modify, getElem_tally, List.count_cons]
    simp only [here]
    split_ifs
    · rw [Nat.cast_add, Nat.cast_one]
    · rw [Nat.add_zero]

theorem tally_leave (nonneg : 0 ≤ value) :
    (tally width (value :: rest)).modify value.toNat (· - 1) = tally width rest := by
  rw [tally_cons nonneg, List.modify_modify_eq]
  have back : (fun count : Int => count - 1) ∘ (fun count => count + 1) = id := by
    funext count
    exact add_sub_cancel_right count 1
  rw [back, List.modify_id]

theorem tally_append (nonneg : 0 ≤ value) :
    tally width (values ++ [value]) = (tally width values).modify value.toNat (· + 1) := by
  rw [tally_perm (List.perm_append_singleton value values), tally_cons nonneg]

theorem tally_set {index : Nat} {overwritten : Int} (known : values[index]? = some overwritten)
    (old : 0 ≤ overwritten) (nonneg : 0 ≤ value) :
    tally width (values.set index value) =
      ((tally width values).modify overwritten.toNat (· - 1)).modify value.toNat (· + 1) := by
  obtain ⟨inside, rfl⟩ := List.getElem?_eq_some_iff.mp known
  rw [tally_perm (List.set_perm_cons_eraseIdx inside value), tally_cons nonneg,
    ← tally_perm (List.getElem_cons_eraseIdx_perm inside), tally_leave old]

def below (bound : Nat) (values : List Int) : Nat := values.countP (· < (bound : Int))

theorem below_succ (bound : Nat) :
    below (bound + 1) values = below bound values + values.count (bound : Int) := by
  induction values with
  | nil => rfl
  | cons value rest ih =>
      simp only [below] at ih ⊢
      rw [List.countP_cons, List.countP_cons, List.count_cons, ih]
      simp only [decide_eq_true_eq, beq_iff_eq]
      split_ifs <;> omega

theorem below_zero (nonneg : ∀ value ∈ values, 0 ≤ value) : below 0 values = 0 := by
  apply List.countP_eq_zero.mpr
  intro value member
  rw [decide_eq_true_eq]
  exact not_lt.mpr (nonneg value member)

theorem below_of_forall_lt {bound : Nat} (all : ∀ value ∈ values, value < (bound : Int)) :
    below bound values = values.length := by
  apply List.countP_eq_length.mpr
  intro value member
  exact decide_eq_true (all value member)

theorem sum_tally (nonneg : ∀ value ∈ values, 0 ≤ value) :
    (tally width values).sum = below width values := by
  induction width with
  | zero => rw [below_zero nonneg]; rfl
  | succ width ih =>
      rw [tally] at ih ⊢
      rw [List.range_succ, List.map_append, List.sum_append, ih, below_succ]
      simp

end Tallies
