import Mathlib.Tactic

/-!
# Equal-width fields packed from the top

`orFields` stores fields of one width into a word, first field highest, by
shifting and or-ing; `readFields` reads all slots back. The round trip needs the
slots of the word clear and every field inside its width.
-/

namespace BitFields

set_option autoImplicit false

/-- Or the fields into `slots` slots of the word, the first field uppermost. -/
def orFields (width : Nat) : Nat → List Nat → Nat → Nat
  | slots + 1, field :: rest, word =>
      orFields width slots rest (word ||| field <<< (slots * width))
  | _, _, word => word

def readFields (width : Nat) : Nat → Nat → List Nat
  | 0, _ => []
  | slots + 1, word => (word >>> (slots * width)) % 2 ^ width :: readFields width slots word

variable {width : Nat}

theorem two_pow_succ_slots (width slots : Nat) :
    2 ^ ((slots + 1) * width) = 2 ^ (slots * width) * 2 ^ width := by
  rw [← pow_add]
  ring_nf

theorem or_field_eq_add {slots field word : Nat} (inside : field < 2 ^ width)
    (clear : 2 ^ ((slots + 1) * width) ∣ word) :
    word ||| field <<< (slots * width) = word + field * 2 ^ (slots * width) := by
  obtain ⟨high, rfl⟩ := clear
  have placed : field * 2 ^ (slots * width) < 2 ^ ((slots + 1) * width) := by
    rw [two_pow_succ_slots, Nat.mul_comm]
    exact Nat.mul_lt_mul_of_pos_left inside (by positivity)
  rw [Nat.shiftLeft_eq, Nat.two_pow_add_eq_or_of_lt placed]

theorem clear_after_field {slots word : Nat} (field : Nat)
    (clear : 2 ^ ((slots + 1) * width) ∣ word) :
    2 ^ (slots * width) ∣ word + field * 2 ^ (slots * width) := by
  have wider : 2 ^ (slots * width) ∣ 2 ^ ((slots + 1) * width) := by
    rw [two_pow_succ_slots]
    exact Nat.dvd_mul_right _ _
  exact Nat.dvd_add (wider.trans clear) (Nat.dvd_mul_left _ _)

/-- Nothing above the slots changes. -/
theorem or_fields_eq_add {slots : Nat} {fields : List Nat}
    (inside : ∀ field ∈ fields, field < 2 ^ width) {word : Nat}
    (clear : 2 ^ (slots * width) ∣ word) :
    ∃ packed < 2 ^ (slots * width), orFields width slots fields word = word + packed := by
  induction slots generalizing fields word with
  | zero => exact ⟨0, by positivity, by simp [orFields]⟩
  | succ slots ih =>
      cases fields with
      | nil => exact ⟨0, by positivity, by simp [orFields]⟩
      | cons field rest =>
          have fieldInside : field < 2 ^ width := inside field List.mem_cons_self
          obtain ⟨packed, small, sum⟩ := ih
            (fun other member => inside other (List.mem_cons_of_mem _ member))
            (clear_after_field field clear)
          refine ⟨field * 2 ^ (slots * width) + packed, ?_, ?_⟩
          · have room : (field + 1) * 2 ^ (slots * width) ≤ 2 ^ width * 2 ^ (slots * width) :=
              Nat.mul_le_mul_right _ fieldInside
            rw [two_pow_succ_slots]
            linarith
          · rw [orFields, or_field_eq_add fieldInside clear, sum, Nat.add_assoc]

theorem read_fields_add_high (width slots word high : Nat) :
    readFields width slots (word + 2 ^ (slots * width) * high) = readFields width slots word := by
  induction slots generalizing high with
  | zero => rfl
  | succ slots ih =>
      have digit :
          (word + 2 ^ (slots * width) * (2 ^ width * high)) >>> (slots * width) % 2 ^ width =
          word >>> (slots * width) % 2 ^ width := by
        rw [Nat.shiftRight_eq_div_pow, Nat.add_mul_div_left _ _ (by positivity),
          Nat.add_mul_mod_self_left, Nat.shiftRight_eq_div_pow]
      rw [readFields, two_pow_succ_slots, Nat.mul_assoc, digit, ih, readFields]

theorem read_fields_clear {slots word : Nat} (clear : 2 ^ (slots * width) ∣ word) :
    readFields width slots word = List.replicate slots 0 := by
  obtain ⟨high, rfl⟩ := clear
  have zeros (count : Nat) : readFields width count 0 = List.replicate count 0 := by
    induction count with
    | zero => rfl
    | succ count ih => simp [readFields, ih, List.replicate_succ]
  have dropped := read_fields_add_high width slots 0 high
  rw [Nat.zero_add] at dropped
  rw [dropped, zeros]

theorem read_fields_or_fields {slots : Nat} {fields : List Nat}
    (inside : ∀ field ∈ fields, field < 2 ^ width) (fits : fields.length ≤ slots) {word : Nat}
    (clear : 2 ^ (slots * width) ∣ word) :
    readFields width slots (orFields width slots fields word) =
      fields ++ List.replicate (slots - fields.length) 0 := by
  induction slots generalizing fields word with
  | zero =>
      rw [List.length_eq_zero_iff.mp (Nat.le_zero.mp fits)]
      rfl
  | succ slots ih =>
      cases fields with
      | nil =>
          rw [orFields.eq_2 _ _ _ _ (by simp), read_fields_clear clear]
          rfl
      | cons field rest =>
          have fieldInside : field < 2 ^ width := inside field List.mem_cons_self
          have restInside : ∀ other ∈ rest, other < 2 ^ width :=
            fun other member => inside other (List.mem_cons_of_mem _ member)
          have clearNext := clear_after_field field clear
          obtain ⟨packed, small, sum⟩ := or_fields_eq_add restInside clearNext
          obtain ⟨high, rfl⟩ := clear
          have head : orFields width slots rest
              (2 ^ ((slots + 1) * width) * high + field * 2 ^ (slots * width)) >>>
                (slots * width) % 2 ^ width = field := by
            have place : 2 ^ ((slots + 1) * width) * high + field * 2 ^ (slots * width) + packed =
                packed + 2 ^ (slots * width) * (field + 2 ^ width * high) := by
              rw [two_pow_succ_slots]
              ring
            rw [sum, Nat.shiftRight_eq_div_pow, place, Nat.add_mul_div_left _ _ (by positivity),
              Nat.div_eq_of_lt small, Nat.zero_add, Nat.add_mul_mod_self_left,
              Nat.mod_eq_of_lt fieldInside]
          rw [orFields, or_field_eq_add fieldInside (Nat.dvd_mul_right _ _), readFields, head,
            ih restInside (Nat.le_of_succ_le_succ fits) clearNext]
          simp

end BitFields
