import RtpPacket.Lib.Word

/-!
# Numbers on a cycle

Sequence numbers wrap around a modulus. The forward distance from one to another
is the number of steps that leads there; runs of successive numbers are measured
by the same steps.
-/

namespace SerialNumber

set_option autoImplicit false

def distance (modulus base value : Nat) : Nat := (value + modulus - base) % modulus

def successive (modulus start count : Nat) : List Nat :=
  (List.range count).map (fun step => (start + step) % modulus)

variable {modulus base value : Nat}

theorem mod_of_lt_double {number : Nat} (small : number < 2 * modulus) :
    number % modulus = if number < modulus then number else number - modulus := by
  split
  · next less => exact Nat.mod_eq_of_lt less
  · next notLess =>
      rw [Nat.mod_eq_sub_mod (by omega), Nat.mod_eq_of_lt (by omega)]

theorem distance_lt (base value : Nat) (positive : 0 < modulus) :
    distance modulus base value < modulus := Nat.mod_lt _ positive

theorem distance_cases (baseBound : base < modulus) (valueBound : value < modulus) :
    distance modulus base value =
      if base ≤ value then value - base else value + modulus - base := by
  rw [distance, mod_of_lt_double (by omega)]
  split_ifs <;> omega

theorem distance_self (bound : base < modulus) : distance modulus base base = 0 := by
  rw [distance_cases bound bound]
  simp

theorem eq_of_distance_zero (baseBound : base < modulus) (valueBound : value < modulus)
    (zero : distance modulus base value = 0) : value = base := by
  rw [distance_cases baseBound valueBound] at zero
  split_ifs at zero <;> omega

theorem eq_of_distance {other : Nat} (baseBound : base < modulus) (valueBound : value < modulus)
    (otherBound : other < modulus)
    (same : distance modulus base value = distance modulus base other) : value = other := by
  rw [distance_cases baseBound valueBound, distance_cases baseBound otherBound] at same
  split_ifs at same <;> omega

theorem add_distance (baseBound : base < modulus) (valueBound : value < modulus) :
    (base + distance modulus base value) % modulus = value := by
  have bounded := distance_lt base value (Nat.zero_lt_of_lt baseBound)
  rw [mod_of_lt_double (by omega), distance_cases baseBound valueBound]
  split_ifs <;> omega

theorem distance_add {steps : Nat} (baseBound : base < modulus) (small : steps < modulus) :
    distance modulus base ((base + steps) % modulus) = steps := by
  have positive := Nat.zero_lt_of_lt baseBound
  rw [distance_cases baseBound (Nat.mod_lt _ positive), mod_of_lt_double (by omega)]
  split_ifs <;> omega

theorem distance_advance {steps : Nat} (baseBound : base < modulus) (valueBound : value < modulus)
    (within : steps ≤ distance modulus base value) :
    distance modulus ((base + steps) % modulus) value = distance modulus base value - steps := by
  have positive := Nat.zero_lt_of_lt baseBound
  have bounded := distance_lt base value positive
  have whole := distance_cases baseBound valueBound
  rw [distance_cases (Nat.mod_lt _ positive) valueBound, mod_of_lt_double (by omega)]
  split_ifs at whole ⊢ <;> omega

theorem distance_retreat {steps : Nat} (baseBound : base < modulus) (valueBound : value < modulus)
    (room : distance modulus ((base + steps) % modulus) value + steps < modulus) :
    distance modulus base value =
      distance modulus ((base + steps) % modulus) value + steps := by
  have positive := Nat.zero_lt_of_lt baseBound
  rw [distance_cases (Nat.mod_lt _ positive) valueBound, mod_of_lt_double (by omega)] at room ⊢
  rw [distance_cases baseBound valueBound]
  split_ifs at room ⊢ <;> omega

theorem distance_trans {middle : Nat} (baseBound : base < modulus) (middleBound : middle < modulus)
    (valueBound : value < modulus)
    (room : distance modulus base middle + distance modulus middle value < modulus) :
    distance modulus base value = distance modulus base middle + distance modulus middle value := by
  rw [distance_cases baseBound middleBound, distance_cases middleBound valueBound] at room ⊢
  rw [distance_cases baseBound valueBound]
  split_ifs at room ⊢ <;> omega

/-- The difference of two words is the distance from one to the other. -/
theorem wrap_sub_eq_distance {width : Nat} (baseBound : base < 2 ^ width)
    (valueBound : value < 2 ^ width) :
    Word.wrapUnsigned width (value - base) = distance (2 ^ width) base value := by
  rw [distance_cases baseBound valueBound]
  split_ifs with le
  · rw [← Nat.cast_sub le, Word.wrap_unsigned_of_lt (by omega)]
  · have same : (value : Int) - base ≡ (value + 2 ^ width - base : Nat) [ZMOD 2 ^ width] := by
      rw [Nat.cast_sub (by omega), Int.modEq_iff_dvd]
      exact ⟨1, by push_cast; ring⟩
    rw [Word.wrap_unsigned_congr same, Word.wrap_unsigned_of_lt (by omega)]

def steps (modulus : Nat) : List Nat → List Nat
  | first :: second :: rest => distance modulus first second :: steps modulus (second :: rest)
  | _ => []

theorem steps_rear (modulus : Nat) (left right : List Nat) :
    steps modulus right <:+ steps modulus (left ++ right) := by
  induction left with
  | nil => exact List.suffix_rfl
  | cons first left ih =>
      cases joined : left ++ right with
      | nil =>
          rw [(List.append_eq_nil_iff.mp joined).2]
          exact List.nil_suffix
      | cons second rest =>
          rw [joined] at ih
          rw [List.cons_append, joined, steps]
          exact ih.trans (List.suffix_cons _ _)

theorem steps_front (modulus : Nat) (left right : List Nat) :
    steps modulus left <+: steps modulus (left ++ right) := by
  induction left with
  | nil => exact List.nil_prefix
  | cons first left ih =>
      cases left with
      | nil => exact List.nil_prefix
      | cons second left => exact List.prefix_cons_inj _ |>.mpr ih

theorem steps_within {modulus : Nat} {window values : List Nat} (inside : window <:+: values) :
    steps modulus window <:+: steps modulus values := by
  obtain ⟨left, right, rfl⟩ := inside
  exact (steps_rear modulus left window).isInfix.trans
    (steps_front modulus (left ++ window) right).isInfix

theorem steps_length (modulus : Nat) (values : List Nat) :
    (steps modulus values).length = values.length - 1 := by
  induction values with
  | nil => rfl
  | cons first values ih =>
      cases values with
      | nil => rfl
      | cons second rest => rw [steps, List.length_cons, ih]; rfl

/-- The steps on the way add up, as long as they do not go around. -/
theorem distance_eq_sum {first last : Nat} {between : List Nat}
    (bounded : ∀ number ∈ first :: (between ++ [last]), number < modulus)
    (room : (steps modulus (first :: (between ++ [last]))).sum < modulus) :
    distance modulus first last = (steps modulus (first :: (between ++ [last]))).sum := by
  induction between generalizing first with
  | nil => simp [steps]
  | cons second between ih =>
      have firstBound := bounded first List.mem_cons_self
      have secondBound := bounded second (by simp)
      have lastBound := bounded last (by simp)
      rw [List.cons_append, steps, List.sum_cons] at room ⊢
      have later := ih (fun number member => bounded number (List.mem_cons_of_mem _ member))
        (by omega)
      rw [← later] at room ⊢
      exact distance_trans firstBound secondBound lastBound room

@[simp] theorem successive_one (start : Nat) :
    successive modulus start 1 = [start % modulus] := rfl

theorem successive_add (start first second : Nat) :
    successive modulus start (first + second) =
      successive modulus start first ++ successive modulus ((start + first) % modulus) second := by
  simp [successive, List.range_add, Nat.add_assoc]

theorem successive_chain (start count : Nat) :
    (successive modulus start count).IsChain (fun left right => right = (left + 1) % modulus) := by
  refine (List.isChain_map _).mpr ((List.isChain_range _ count).mpr fun step _ => ?_)
  rw [Nat.mod_add_mod, Nat.add_assoc]

end SerialNumber
