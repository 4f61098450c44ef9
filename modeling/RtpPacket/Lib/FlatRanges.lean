import Mathlib.Tactic

/-!
# Flat lists of ranges

A set of integers as one list of bounds, `[from, to, from, to, …]`. The ranges are
half-open, sorted, disjoint and not adjacent, so the bounds are strictly increasing.
-/

namespace FlatRanges

set_option autoImplicit false

structure Valid (ranges : List Int) : Prop where
  ascending : ranges.Pairwise (· < ·)
  even : Even ranges.length

def Covers : List Int → Int → Prop
  | start :: stop :: rest, x => (start ≤ x ∧ x < stop) ∨ Covers rest x
  | _, _ => False

instance Covers.instDecidable : (ranges : List Int) → (x : Int) → Decidable (Covers ranges x)
  | start :: stop :: rest, x =>
      have := instDecidable rest x
      inferInstanceAs (Decidable ((start ≤ x ∧ x < stop) ∨ Covers rest x))
  | [], _ => inferInstanceAs (Decidable False)
  | [_], _ => inferInstanceAs (Decidable False)

/-- What a library of such lists offers to its callers. -/
structure Library where
  add : List Int → Int → Int → List Int
  contains : List Int → Int → Bool

/-- A library that computes on the sets that its lists stand for. -/
structure Library.Correct (library : Library) : Prop where
  add_valid : ∀ {ranges : List Int} {start stop : Int}, Valid ranges → start < stop →
    Valid (library.add ranges start stop)
  covers_add : ∀ {ranges : List Int} {start stop x : Int}, Valid ranges → start < stop →
    (Covers (library.add ranges start stop) x ↔ Covers ranges x ∨ start ≤ x ∧ x < stop)
  contains_iff : ∀ {ranges : List Int} {x : Int}, Valid ranges →
    (library.contains ranges x = true ↔ Covers ranges x)

variable {ranges rest : List Int} {start stop x bound : Int}

theorem valid_nil : Valid [] := ⟨.nil, ⟨0, rfl⟩⟩

theorem not_valid_singleton : ¬Valid [start] := by
  intro valid
  exact absurd valid.even (by simp)

theorem valid_cons_cons :
    Valid (start :: stop :: rest) ↔ start < stop ∧ (∀ point ∈ rest, stop < point) ∧ Valid rest := by
  constructor
  · intro valid
    obtain ⟨first, later⟩ := List.pairwise_cons.mp valid.ascending
    obtain ⟨second, tail⟩ := List.pairwise_cons.mp later
    apply And.intro (first stop List.mem_cons_self)
    apply And.intro second
    apply Valid.mk tail
    have even := valid.even
    rwa [List.length_cons, List.length_cons, Nat.even_add_one, Nat.even_add_one, not_not] at even
  · intro parts
    apply Valid.mk
    · apply List.pairwise_cons.mpr
      constructor
      · intro point member
        cases List.mem_cons.mp member with
        | inl here => exact here ▸ parts.1
        | inr later => exact parts.1.trans (parts.2.1 point later)
      · exact List.pairwise_cons.mpr ⟨parts.2.1, parts.2.2.ascending⟩
    · rw [List.length_cons, List.length_cons, Nat.even_add_one, Nat.even_add_one, not_not]
      exact parts.2.2.even

theorem le_of_covers (above : ∀ point ∈ ranges, bound ≤ point) (covered : Covers ranges x) :
    bound ≤ x := by
  fun_induction Covers ranges x with
  | case1 start stop rest x ih =>
      cases covered with
      | inl here => exact (above start List.mem_cons_self).trans here.1
      | inr later =>
          apply ih _ later
          intro point member
          exact above point (List.mem_cons_of_mem _ (List.mem_cons_of_mem _ member))
  | case2 => cases covered

theorem not_covers_of_short
    (short : ∀ start stop rest, ranges = start :: stop :: rest → False) : ¬Covers ranges x := by
  cases ranges with
  | nil => exact id
  | cons first tail =>
      cases tail with
      | nil => exact id
      | cons last rest => exact absurd rfl (short first last rest)

def removeBelow (cutoff : Int) : List Int → List Int
  | start :: stop :: rest =>
      if stop ≤ cutoff then removeBelow cutoff rest
      else max start cutoff :: stop :: removeBelow cutoff rest
  | _ => []

theorem lt_of_mem_remove_below {cutoff : Int} (above : ∀ point ∈ ranges, bound < point)
    {point : Int} (member : point ∈ removeBelow cutoff ranges) : bound < point := by
  fun_induction removeBelow cutoff ranges with
  | case1 start stop rest ended ih =>
      apply ih _ member
      intro other later
      exact above other (List.mem_cons_of_mem _ (List.mem_cons_of_mem _ later))
  | case2 start stop rest left ih =>
      rw [List.mem_cons, List.mem_cons] at member
      obtain rfl | rfl | later := member
      · exact (above start List.mem_cons_self).trans_le (le_max_left _ _)
      · exact above _ (List.mem_cons_of_mem _ List.mem_cons_self)
      · apply ih _ later
        intro other later
        exact above other (List.mem_cons_of_mem _ (List.mem_cons_of_mem _ later))
  | case3 => cases member

theorem remove_below_valid (valid : Valid ranges) (cutoff : Int) :
    Valid (removeBelow cutoff ranges) := by
  fun_induction removeBelow cutoff ranges with
  | case1 start stop rest ended ih => exact ih (valid_cons_cons.mp valid).2.2
  | case2 start stop rest left ih =>
      obtain ⟨order, above, tail⟩ := valid_cons_cons.mp valid
      apply valid_cons_cons.mpr
      apply And.intro (max_lt order (Int.lt_of_not_ge left))
      exact ⟨fun point member => lt_of_mem_remove_below above member, ih tail⟩
  | case3 => exact valid_nil

theorem covers_remove_below (cutoff : Int) :
    Covers (removeBelow cutoff ranges) x ↔ Covers ranges x ∧ cutoff ≤ x := by
  fun_induction removeBelow cutoff ranges with
  | case1 start stop rest ended ih =>
      have past : ¬((start ≤ x ∧ x < stop) ∧ cutoff ≤ x) := by omega
      rw [ih, Covers, or_and_right, or_iff_right past]
  | case2 start stop rest left ih =>
      have clipped : max start cutoff ≤ x ∧ x < stop ↔ (start ≤ x ∧ x < stop) ∧ cutoff ≤ x := by
        omega
      rw [Covers, Covers, ih, clipped, or_and_right]
  | case3 ranges short =>
      exact ⟨False.elim, fun covered => absurd covered.1 (not_covers_of_short short)⟩

theorem le_of_covers_cons (valid : Valid (start :: rest)) (covered : Covers (start :: rest) x) :
    start ≤ x := by
  apply le_of_covers _ covered
  intro point member
  cases List.mem_cons.mp member with
  | inl here => exact here.ge
  | inr later => exact ((List.pairwise_cons.mp valid.ascending).1 point later).le

theorem covers_start (valid : Valid (start :: stop :: rest)) :
    Covers (start :: stop :: rest) start :=
  .inl ⟨le_rfl, (valid_cons_cons.mp valid).1⟩

theorem covers_tail_iff (valid : Valid (start :: stop :: rest)) :
    Covers rest x ↔ Covers (start :: stop :: rest) x ∧ stop ≤ x := by
  constructor
  · intro covered
    obtain ⟨_, above, _⟩ := valid_cons_cons.mp valid
    exact ⟨.inr covered, le_of_covers (fun point member => (above point member).le) covered⟩
  · rintro ⟨here | later, beyond⟩
    · exact absurd here.2 (not_lt.mpr beyond)
    · exact later

/-- The first range ends where the next number is not covered. -/
theorem not_covers_stop (valid : Valid (start :: stop :: rest)) :
    ¬Covers (start :: stop :: rest) stop := by
  obtain ⟨_, above, tail⟩ := valid_cons_cons.mp valid
  intro covered
  have later := (covers_tail_iff valid).mpr ⟨covered, le_rfl⟩
  exact absurd (le_of_covers (fun point member => Int.add_one_le_of_lt (above point member)) later)
    (by omega)

theorem stop_le_of_covers_eq {left right : List Int} {other : Int}
    (rightValid : Valid (start :: other :: right))
    (same : ∀ x, Covers (start :: stop :: left) x ↔ Covers (start :: other :: right) x) :
    stop ≤ other := by
  by_contra beyond
  have order := (valid_cons_cons.mp rightValid).1
  have covered : Covers (start :: stop :: left) other := .inl ⟨order.le, not_le.mp beyond⟩
  exact not_covers_stop rightValid ((same other).mp covered)

/-- A set has one list of ranges that are disjoint and not adjacent. -/
theorem Valid.unique {left right : List Int} (leftValid : Valid left) (rightValid : Valid right)
    (same : ∀ x, Covers left x ↔ Covers right x) : left = right := by
  match left, right with
  | [], [] => rfl
  | [_], _ => exact absurd leftValid not_valid_singleton
  | _, [_] => exact absurd rightValid not_valid_singleton
  | [], start :: stop :: rest => exact ((same start).mpr (covers_start rightValid)).elim
  | start :: stop :: rest, [] => exact ((same start).mp (covers_start leftValid)).elim
  | start :: stop :: left, first :: last :: right =>
      have starts : start = first := by
        apply le_antisymm
        · exact le_of_covers_cons leftValid ((same first).mpr (covers_start rightValid))
        · exact le_of_covers_cons rightValid ((same start).mp (covers_start leftValid))
      subst starts
      have stops : stop = last := by
        apply le_antisymm
        · exact stop_le_of_covers_eq rightValid same
        · exact stop_le_of_covers_eq leftValid fun x => (same x).symm
      subst stops
      have tails : left = right := by
        apply Valid.unique (valid_cons_cons.mp leftValid).2.2 (valid_cons_cons.mp rightValid).2.2
        intro x
        rw [covers_tail_iff leftValid, covers_tail_iff rightValid, same x]
      rw [tails]
termination_by left.length
def merge : List Int → Int → Int → List Int
  | first :: last :: rest, start, stop =>
      if stop < first then start :: stop :: first :: last :: rest
      else if last < start then first :: last :: merge rest start stop
      else merge rest (min first start) (max last stop)
  | _, start, stop => [start, stop]

theorem lt_of_mem_merge (above : ∀ point ∈ ranges, bound < point) (first : bound < start)
    (last : bound < stop) : ∀ point ∈ merge ranges start stop, bound < point := by
  fun_induction merge ranges start stop with
  | case1 => simp_all
  | case2 => simp_all
  | case3 => simp_all
  | case4 => simp_all

theorem merge_valid (valid : Valid ranges) (some : start < stop) :
    Valid (merge ranges start stop) := by
  fun_induction merge ranges start stop with
  | case1 first last rest start stop before =>
      apply valid_cons_cons.mpr
      apply And.intro some
      apply And.intro _ valid
      intro point member
      cases List.mem_cons.mp member with
      | inl here => exact here ▸ before
      | inr later => exact before.trans ((List.pairwise_cons.mp valid.ascending).1 point later)
  | case2 first last rest start stop notBefore after ih =>
      obtain ⟨order, above, tail⟩ := valid_cons_cons.mp valid
      apply valid_cons_cons.mpr
      exact ⟨order, lt_of_mem_merge above after (after.trans some), ih tail some⟩
  | case3 first last rest start stop notBefore notAfter ih =>
      obtain ⟨order, above, tail⟩ := valid_cons_cons.mp valid
      exact ih tail (by omega)
  | case4 start stop =>
      exact valid_cons_cons.mpr ⟨some, fun _ none => absurd none List.not_mem_nil, valid_nil⟩

theorem covers_merge (valid : Valid ranges) (some : start < stop) :
    Covers (merge ranges start stop) x ↔ Covers ranges x ∨ start ≤ x ∧ x < stop := by
  fun_induction merge ranges start stop with
  | case1 first last rest start stop before => exact or_comm
  | case2 first last rest start stop notBefore after ih =>
      obtain ⟨_, _, tail⟩ := valid_cons_cons.mp valid
      simp only [Covers, ih tail some, or_assoc]
  | case3 first last rest start stop notBefore notAfter ih =>
      obtain ⟨order, _, tail⟩ := valid_cons_cons.mp valid
      have union : min first start ≤ x ∧ x < max last stop ↔
          (first ≤ x ∧ x < last) ∨ (start ≤ x ∧ x < stop) := by omega
      rw [ih tail (by omega), union, Covers]
      exact or_left_comm.trans or_assoc.symm
  | case4 ranges start stop short =>
      simp only [Covers, not_covers_of_short short, or_false, false_or]

def reference : Library where
  add := merge
  contains := fun ranges x => decide (Covers ranges x)

theorem reference_correct : reference.Correct where
  add_valid := merge_valid
  covers_add := covers_merge
  contains_iff := fun _ => decide_eq_true_iff

end FlatRanges
