import Mathlib.Tactic

/-!
# Lists of keyed values

A key may occur more than once, so a reader that stops at the first value and a reader
that overwrites see different ones.
-/

namespace Associations

set_option autoImplicit false

variable {α : Type}

def valuesOf (key : Nat) (entries : List (Nat × α)) : List α :=
  (entries.filter (·.1 = key)).map Prod.snd

theorem values_nil (key : Nat) : valuesOf key ([] : List (Nat × α)) = [] := rfl

theorem values_cons_self (key : Nat) (value : α) (rest : List (Nat × α)) :
    valuesOf key ((key, value) :: rest) = value :: valuesOf key rest := by
  simp [valuesOf]

theorem values_cons_of_ne {key : Nat} {entry : Nat × α} (other : entry.1 ≠ key)
    (rest : List (Nat × α)) : valuesOf key (entry :: rest) = valuesOf key rest := by
  simp [valuesOf, other]

theorem values_append (key : Nat) (left right : List (Nat × α)) :
    valuesOf key (left ++ right) = valuesOf key left ++ valuesOf key right := by
  simp only [valuesOf, List.filter_append, List.map_append]

theorem values_filter (key : Nat) (keep : Nat → Bool) (entries : List (Nat × α)) :
    valuesOf key (entries.filter fun entry => keep entry.1) =
      if keep key then valuesOf key entries else [] := by
  rw [valuesOf, List.filter_filter]
  split_ifs with kept
  · apply congrArg (List.map Prod.snd)
    apply List.filter_congr
    intro entry _
    by_cases here : entry.1 = key
    · simp [here, kept]
    · simp [here]
  · rw [List.map_eq_nil_iff, List.filter_eq_nil_iff]
    intro entry _ both
    rw [Bool.and_eq_true, decide_eq_true_eq] at both
    exact kept (both.1 ▸ both.2)

theorem mem_values {key : Nat} {value : α} {entries : List (Nat × α)} :
    value ∈ valuesOf key entries ↔ (key, value) ∈ entries := by
  simp only [valuesOf, List.mem_map, List.mem_filter, decide_eq_true_eq, Prod.exists]
  constructor
  · intro found
    obtain ⟨_, _, ⟨member, rfl⟩, rfl⟩ := found
    exact member
  · intro member
    exact ⟨key, value, ⟨member, rfl⟩, rfl⟩

/-- Entries under new keys; those without one are left out. -/
def renamed (target : Nat → Option Nat) (entries : List (Nat × α)) : List (Nat × α) :=
  entries.filterMap fun entry => (target entry.1).map (·, entry.2)

theorem renamed_cons_of_some {target : Nat → Option Nat} {key newKey : Nat}
    (mapped : target key = some newKey) (value : α) (rest : List (Nat × α)) :
    renamed target ((key, value) :: rest) = (newKey, value) :: renamed target rest := by
  rw [renamed, List.filterMap_cons_some (b := (newKey, value)), renamed]
  simp [mapped]

theorem renamed_cons_of_none {target : Nat → Option Nat} {key : Nat}
    (unmapped : target key = none) (value : α) (rest : List (Nat × α)) :
    renamed target ((key, value) :: rest) = renamed target rest := by
  rw [renamed, List.filterMap_cons_none, renamed]
  simp [unmapped]

theorem values_renamed {target : Nat → Option Nat}
    (injective : ∀ left right key, target left = some key → target right = some key → left = right)
    {key newKey : Nat} (mapped : target key = some newKey) (entries : List (Nat × α)) :
    valuesOf newKey (renamed target entries) = valuesOf key entries := by
  induction entries with
  | nil => rfl
  | cons entry rest ih =>
      obtain ⟨own, value⟩ := entry
      by_cases here : own = key
      · rw [here, renamed_cons_of_some mapped, values_cons_self, values_cons_self, ih]
      · rw [values_cons_of_ne (show (own, value).1 ≠ key from here)]
        cases other : target own with
        | none => rw [renamed_cons_of_none other, ih]
        | some otherKey =>
            have apart : otherKey ≠ newKey := by
              intro same
              exact here (injective own key newKey (same ▸ other) mapped)
            rw [renamed_cons_of_some other, values_cons_of_ne apart, ih]

theorem values_renamed_of_unmapped {target : Nat → Option Nat} {newKey : Nat}
    (unmapped : ∀ key, target key ≠ some newKey) (entries : List (Nat × α)) :
    valuesOf newKey (renamed target entries) = [] := by
  apply List.eq_nil_iff_forall_not_mem.mpr
  intro value member
  obtain ⟨entry, _, found⟩ := List.mem_filterMap.mp (mem_values.mp member)
  obtain ⟨_, mapped, pair⟩ := Option.map_eq_some_iff.mp found
  cases pair
  exact unmapped _ mapped

end Associations
