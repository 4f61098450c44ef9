import Mathlib.Tactic

/-!
# Direct-mapped tables

Every key has one slot, and a slot keeps the last entry put into it. An entry is
found again as long as no later one went into its slot; what is found under a key
is always the last entry put under that key. For keys numbered in turn, slots
taken modulo a ring size of a number that itself wraps, `no_collision_iff` says
when neighbouring keys have different slots.
-/

namespace DirectMapped

set_option autoImplicit false

section Table

variable {Key Slot Value : Type*} (place : Key → Slot)

abbrev Table (Key Slot Value : Type*) := Slot → Option (Key × Value)

def empty : Table Key Slot Value := fun _ => none

def Placed (table : Table Key Slot Value) : Prop :=
  ∀ slot, ∀ entry ∈ table slot, place entry.1 = slot

variable [DecidableEq Slot]

def put (table : Table Key Slot Value) (entry : Key × Value) : Table Key Slot Value :=
  Function.update table (place entry.1) (some entry)

def putAll (table : Table Key Slot Value) (entries : List (Key × Value)) : Table Key Slot Value :=
  entries.foldl (put place) table

variable {place}

theorem placed_put {table : Table Key Slot Value} (placed : Placed place table)
    (entry : Key × Value) : Placed place (put place table entry) := by
  intro slot other member
  by_cases same : slot = place entry.1
  · subst same
    rw [put, Function.update_self] at member
    rw [← Option.some.inj member]
  · rw [put, Function.update_of_ne same] at member
    exact placed slot other member

theorem put_all_append (table : Table Key Slot Value) (first second : List (Key × Value)) :
    putAll place table (first ++ second) = putAll place (putAll place table first) second :=
  List.foldl_append

theorem put_all_singleton (table : Table Key Slot Value) (entry : Key × Value) :
    putAll place table [entry] = put place table entry := rfl

/-- A slot holds the last entry that belongs into it. -/
theorem put_all_slot (entries : List (Key × Value)) (slot : Slot) :
    putAll place empty entries slot =
      entries.reverse.find? fun entry => decide (place entry.1 = slot) := by
  induction entries using List.reverseRecOn with
  | nil => rfl
  | append_singleton entries entry ih =>
      rw [put_all_append, put_all_singleton, List.reverse_append, List.reverse_singleton,
        List.singleton_append, put]
      by_cases same : place entry.1 = slot
      · subst same
        rw [Function.update_self, List.find?_cons_of_pos (by simp)]
      · rw [Function.update_of_ne (Ne.symm same), List.find?_cons_of_neg (by simpa using same), ih]

variable [DecidableEq Key]

variable (place) in
def find (table : Table Key Slot Value) (key : Key) : Option Value :=
  match table (place key) with
  | none => none
  | some entry => if entry.1 = key then some entry.2 else none

theorem find_put_all (entries : List (Key × Value)) (key : Key) :
    find place (putAll place empty entries) key = none ∨
      find place (putAll place empty entries) key =
        (entries.reverse.find? fun entry => decide (entry.1 = key)).map Prod.snd := by
  rw [find, put_all_slot]
  induction entries using List.reverseRecOn with
  | nil => exact Or.inl rfl
  | append_singleton entries entry ih =>
      rw [List.reverse_append, List.reverse_singleton, List.singleton_append]
      by_cases named : entry.1 = key
      · subst named
        rw [List.find?_cons_of_pos (by simp), List.find?_cons_of_pos (by simp)]
        exact Or.inr (if_pos rfl)
      · by_cases same : place entry.1 = place key
        · rw [List.find?_cons_of_pos (by simpa using same)]
          exact Or.inl (if_neg named)
        · rw [List.find?_cons_of_neg (by simpa using same),
            List.find?_cons_of_neg (by simpa using named)]
          exact ih

/-- Entries that can share no slot with a key have no part in what is found under it. -/
theorem find_put_all_filter (entries : List (Key × Value)) {relevant : Key × Value → Bool}
    {key : Key} (kept : ∀ entry ∈ entries, place entry.1 = place key → relevant entry = true) :
    find place (putAll place empty (entries.filter relevant)) key =
      find place (putAll place empty entries) key := by
  have same : putAll place empty (entries.filter relevant) (place key) =
      putAll place empty entries (place key) := by
    rw [put_all_slot, put_all_slot, ← List.filter_reverse, List.find?_filter]
    apply List.find?_congr
    intro entry member
    have relevance := kept entry (List.mem_reverse.mp member)
    by_cases shared : place entry.1 = place key
    · simp [shared, relevance shared]
    · simp [shared]
  rw [find, find, same]

/-- The latest entries, under different keys, are all found exactly when no two of
them share a slot. -/
theorem find_latest_iff (front window : List (Key × Value))
    (distinct : (window.map Prod.fst).Nodup) :
    (∀ entry ∈ window, find place (putAll place empty (front ++ window)) entry.1 =
        some entry.2) ↔
      (window.map fun entry => place entry.1).Nodup := by
  induction window generalizing front with
  | nil => simp
  | cons entry rest ih =>
      have moved : front ++ entry :: rest = (front ++ [entry]) ++ rest := by simp
      obtain ⟨fresh, later⟩ := List.nodup_cons.mp distinct
      rw [moved, List.forall_mem_cons, ih (front ++ [entry]) later, List.map_cons,
        List.nodup_cons]
      apply and_congr_left
      intro _
      have split : putAll place empty ((front ++ [entry]) ++ rest) (place entry.1) =
          match rest.reverse.find? fun other => decide (place other.1 = place entry.1) with
          | none => some entry
          | some other => some other := by
        rw [put_all_slot, List.reverse_append, List.find?_append, List.reverse_append,
          List.reverse_singleton, List.singleton_append, List.find?_cons_of_pos (by simp)]
        cases rest.reverse.find? fun other => decide (place other.1 = place entry.1) <;> rfl
      rw [find, split]
      cases found : rest.reverse.find? fun other => decide (place other.1 = place entry.1) with
      | none =>
          have apart := List.find?_eq_none.mp found
          simp only [if_true, true_iff]
          intro member
          obtain ⟨other, inside, same⟩ := List.mem_map.mp member
          exact apart other (List.mem_reverse.mpr inside) (by simpa using same)
      | some other =>
          have inside : other ∈ rest := List.mem_reverse.mp (List.mem_of_find?_eq_some found)
          have same : place other.1 = place entry.1 := by
            simpa using List.find?_some found
          have named : other.1 ≠ entry.1 := by
            intro equal
            exact fresh (equal ▸ List.mem_map_of_mem inside)
          simp only [if_neg named, reduceCtorEq, false_iff, not_not]
          exact List.mem_map.mpr ⟨other, inside, same⟩

end Table

section Numbers

/-- The slot of a number that wraps at `modulus`, in a ring of `size` slots. -/
def ringSlot (modulus size number : Nat) : Nat := number % modulus % size

variable {modulus size : Nat}

theorem mod_size_injective {left right : Nat} (ordered : left ≤ right)
    (near : right - left < size) (same : left % size = right % size) : left = right := by
  have divides : size ∣ right - left := (Nat.modEq_iff_dvd' ordered).mp same
  have zero := Nat.eq_zero_of_dvd_of_lt divides near
  omega

/-- Numbers less than a cycle behind the first either stay in its cycle or are in the
next one. -/
theorem ring_slot_add (positive : 0 < modulus) (first : Nat) {offset : Nat}
    (near : offset < modulus) :
    ringSlot modulus size (first + offset) =
      if first % modulus + offset < modulus then (first % modulus + offset) % size
      else (first % modulus + offset - modulus) % size := by
  have start := Nat.mod_lt first positive
  rw [ringSlot, ← Nat.mod_add_mod]
  split_ifs with same
  · rw [Nat.mod_eq_of_lt same]
  · rw [Nat.mod_eq_sub_mod (Nat.le_of_not_lt same),
      Nat.mod_eq_of_lt (show first % modulus + offset - modulus < modulus by omega)]

theorem slot_before_end {back : Nat} (inside : back ≤ modulus % size) (positive : 0 < size) :
    (modulus - back) % size = modulus % size - back := by
  have rest := Nat.mod_lt modulus positive
  have cycles := Nat.div_add_mod modulus size
  have place : modulus - back = size * (modulus / size) + (modulus % size - back) := by omega
  rw [place, Nat.mul_add_mod, Nat.mod_eq_of_lt (by omega)]

theorem slot_before_whole {back : Nat} (whole : modulus % size = 0) (fits : size ≤ modulus)
    (some : 0 < back) (inside : back < size) : (modulus - back) % size = size - back := by
  obtain ⟨rings, rfl⟩ := Nat.dvd_of_mod_eq_zero whole
  have one : 0 < rings := by
    rcases Nat.eq_zero_or_pos rings with none | one
    · subst none
      omega
    · exact one
  have place : size * rings - back = size * (rings - 1) + (size - back) := by
    rw [Nat.mul_sub_one]
    have enough : size ≤ size * rings := fits
    omega
  rw [place, Nat.mul_add_mod, Nat.mod_eq_of_lt (by omega)]

variable {first count : Nat}

/-- Across the wrap the two sides keep apart in a ring that divides the cycle, and in
one that leaves a remainder no smaller than the window. -/
theorem sides_apart (fits : size ≤ modulus) (short : count ≤ size)
    (room : modulus % size = 0 ∨ count ≤ modulus % size) {back ahead : Nat} (some : 0 < back)
    (near : back + ahead < count) : (modulus - back) % size ≠ ahead % size := by
  rw [Nat.mod_eq_of_lt (show ahead < size by omega)]
  rcases room with whole | remainder
  · rw [slot_before_whole whole fits some (by omega)]
    omega
  · rw [slot_before_end (by omega) (by omega)]
    omega

theorem no_collision_of_room (fits : size ≤ modulus) (short : count ≤ size)
    (room : modulus % size = 0 ∨ count ≤ modulus % size ∨
      count ≤ (first + count - 1) % modulus + 1)
    {left right : Nat} (ordered : left ≤ right) (inside : right < count)
    (same : ringSlot modulus size (first + left) = ringSlot modulus size (first + right)) :
    left = right := by
  have positive : 0 < modulus := by omega
  rw [ring_slot_add positive first (by omega), ring_slot_add positive first (by omega)] at same
  split_ifs at same with leftSame rightSame rightSame
  · have equal := mod_size_injective (by omega) (by omega) same
    omega
  · have ends : (first + count - 1) % modulus + 1 < count := by
      have start := Nat.mod_lt first positive
      have last : first + count - 1 = first + (count - 1) := by omega
      rw [last, ← Nat.mod_add_mod, Nat.mod_eq_sub_mod (by omega), Nat.mod_eq_of_lt (by omega)]
      omega
    have back : first % modulus + left = modulus - (modulus - (first % modulus + left)) := by
      omega
    rw [back] at same
    have apart := @sides_apart modulus size count fits short (by omega)
      (modulus - (first % modulus + left)) (first % modulus + right - modulus) (by omega)
      (by omega)
    exact absurd same apart
  · omega
  · have equal := mod_size_injective (by omega) (by omega) same
    omega

theorem collision_of_no_room (fits : size ≤ modulus) (short : count ≤ size)
    (ragged : modulus % size ≠ 0) (wide : modulus % size < count)
    (wraps : (first + count - 1) % modulus + 1 < count) :
    ∃ left < count, ∃ right < count, left ≠ right ∧
      ringSlot modulus size (first + left) = ringSlot modulus size (first + right) := by
  have positive : 0 < modulus := by omega
  have start := Nat.mod_lt first positive
  have last : first + count - 1 = first + (count - 1) := by omega
  have crossed : modulus ≤ first % modulus + (count - 1) := by
    by_contra stays
    rw [last, ← Nat.mod_add_mod, Nat.mod_eq_of_lt (by omega)] at wraps
    omega
  -- `shared` is the slot; its packet before the wrap is `back` places from the end.
  obtain ⟨shared, sharing⟩ : ∃ shared, shared =
      min (modulus % size - 1) (first % modulus + (count - 1) - modulus) := ⟨_, rfl⟩
  obtain ⟨back, behind⟩ : ∃ back, back = modulus % size - shared := ⟨_, rfl⟩
  refine ⟨modulus - first % modulus - back, by omega, modulus - first % modulus + shared,
    by omega, by omega, ?_⟩
  have before : first % modulus + (modulus - first % modulus - back) = modulus - back := by omega
  have after : first % modulus + (modulus - first % modulus + shared) - modulus = shared := by
    omega
  rw [ring_slot_add positive first (by omega), ring_slot_add positive first (by omega),
    if_pos (by omega), if_neg (by omega), before, after,
    slot_before_end (by omega) (by omega), Nat.mod_eq_of_lt (show shared < size by omega)]
  omega

/-- Up to `size` numbers in turn have different slots exactly when the ring divides
the cycle, the window is no longer than what is left over of the cycle, or the window
does not cross the wrap. -/
theorem no_collision_iff (fits : size ≤ modulus) (short : count ≤ size) :
    (∀ left < count, ∀ right < count,
        ringSlot modulus size (first + left) = ringSlot modulus size (first + right) →
        left = right) ↔
      modulus % size = 0 ∨ count ≤ modulus % size ∨
        count ≤ (first + count - 1) % modulus + 1 := by
  constructor
  · intro apart
    by_contra tight
    simp only [not_or, Nat.not_le] at tight
    obtain ⟨ragged, wide, wraps⟩ := tight
    obtain ⟨left, leftInside, right, rightInside, different, same⟩ :=
      collision_of_no_room fits short ragged wide wraps
    exact different (apart left leftInside right rightInside same)
  · intro room left leftInside right rightInside same
    rcases Nat.le_total left right with ordered | ordered
    · exact no_collision_of_room fits short room ordered rightInside same
    · exact (no_collision_of_room fits short room ordered leftInside same.symm).symm

end Numbers

end DirectMapped
