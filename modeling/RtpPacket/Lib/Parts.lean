import Mathlib.Tactic

/-!
# Parts of a list

What is left of a list when some of its items are lost, as a sublist: of pieces as many
elements are all of them, and between two items of one group none is of another.
-/

namespace Parts

set_option autoImplicit false

section Pieces

variable {α : Type}

theorem flatten_length_le {part whole : List (List α)} (left : part.Sublist whole) :
    part.flatten.length ≤ whole.flatten.length := by
  induction left with
  | slnil => exact Nat.le_refl _
  | cons piece _ ih =>
      rw [List.flatten_cons, List.length_append]
      omega
  | cons_cons piece _ ih =>
      rw [List.flatten_cons, List.flatten_cons, List.length_append, List.length_append]
      omega

theorem eq_of_flatten_length {part whole : List (List α)} (left : part.Sublist whole)
    (nonempty : ∀ piece ∈ whole, piece ≠ [])
    (length : part.flatten.length = whole.flatten.length) : part = whole := by
  induction left with
  | slnil => rfl
  | cons piece rest ih =>
      have fewer := flatten_length_le rest
      have positive := List.length_pos_iff.mpr (nonempty piece List.mem_cons_self)
      rw [List.flatten_cons, List.length_append] at length
      omega
  | cons_cons piece rest ih =>
      rw [List.flatten_cons, List.flatten_cons, List.length_append, List.length_append] at length
      rw [ih (fun other member => nonempty other (List.mem_cons_of_mem _ member))
        (Nat.add_left_cancel length)]

end Pieces

section Groups

variable {Item Key : Type}

theorem of_one_group (key : Item → Key) {groups : List (Key × List Item)}
    (keyed : ∀ group ∈ groups, ∀ item ∈ group.2, key item = group.1)
    (distinct : (groups.map Prod.fst).Nodup) {first last : Item} {middle : List Item}
    (left : (first :: middle ++ [last]).Sublist (groups.flatMap Prod.snd))
    (same : key first = key last) :
    ∃ group ∈ groups, (first :: middle ++ [last]).Sublist group.2 := by
  induction groups with
  | nil => cases left
  | cons group rest ih =>
      obtain ⟨alone, others⟩ := List.nodup_cons.mp distinct
      obtain ⟨front, back, split, here, there⟩ := List.sublist_append_iff.mp left
      cases front with
      | nil =>
          rw [List.nil_append] at split
          rw [← split] at there
          obtain ⟨other, member, inside⟩ :=
            ih (fun other member => keyed other (List.mem_cons_of_mem _ member)) others there
          exact ⟨other, List.mem_cons_of_mem _ member, inside⟩
      | cons item front =>
          have start : first = item := (List.cons.inj split).1
          cases List.eq_nil_or_concat back with
          | inl none =>
              rw [none, List.append_nil] at split
              rw [split]
              exact ⟨group, List.mem_cons_self, here⟩
          | inr some =>
              -- The last item is of a later group, so that its key cannot be the first one's.
              obtain ⟨before, final, rfl⟩ := some
              rw [List.concat_eq_append] at split there
              rw [← List.append_assoc] at split
              have finish : last = final := List.singleton_inj.mp (List.append_inj' split rfl).2
              obtain ⟨other, member, inside⟩ := List.mem_flatMap.mp
                (there.subset (List.mem_append_right before (List.mem_singleton.mpr rfl)))
              have one := keyed group List.mem_cons_self item (here.subset List.mem_cons_self)
              have two := keyed other (List.mem_cons_of_mem _ member) final inside
              rw [start, finish, one, two] at same
              exact absurd (List.mem_map.mpr ⟨other, member, same.symm⟩) alone

end Groups

theorem zip_idx_increasing {Item : Type} {whole : List Item} {left : List (Item × Nat)}
    (some : left.Sublist whole.zipIdx) :
    left.Pairwise fun earlier later => earlier.2 < later.2 := by
  have places : (whole.zipIdx.map Prod.snd).Pairwise (· < ·) := by
    rw [List.zipIdx_map_snd]
    exact List.pairwise_lt_range'
  exact (List.pairwise_map.mp places).sublist some

section Places

variable {Item : Type} {whole : List Item} {left : List (Item × Nat)}

/-- Items in the order of their places are some of them, each once. -/
theorem sublist_of_places (members : ∀ entry ∈ left, entry ∈ whole.zipIdx)
    (ascending : (left.map Prod.snd).Pairwise (· < ·)) : left.Sublist whole.zipIdx := by
  have ordered := List.pairwise_map.mp ascending
  have strict : Std.Antisymm fun earlier later : Item × Nat => earlier.2 < later.2 :=
    ⟨fun _ _ less more => absurd more (Nat.lt_asymm less)⟩
  have nodup : left.Nodup := .of_map Prod.snd (ascending.imp fun less => Nat.ne_of_lt less)
  exact List.sublist_of_subperm_of_pairwise (nodup.subperm members) ordered
    (zip_idx_increasing (List.Sublist.refl _))

/-- Items at all the places below a bound are the first ones. -/
theorem prefix_of_places (members : ∀ entry ∈ left, entry ∈ whole.zipIdx)
    (places : left.map Prod.snd = List.range left.length) :
    left = whole.zipIdx.take left.length := by
  apply List.ext_getElem?
  intro index
  by_cases inside : index < left.length
  · have there := List.getElem?_eq_getElem inside
    have place := congrArg (fun numbers => numbers[index]?) places
    simp only [List.getElem?_map, there, Option.map_some, List.getElem?_range inside,
      Option.some.injEq] at place
    have member := List.mem_zipIdx_iff_getElem?.mp (members _ (List.getElem_mem inside))
    rw [place] at member
    rw [there, List.getElem?_take_of_lt inside, List.getElem?_zipIdx, member]
    exact congrArg some (Prod.ext rfl (place.trans (Nat.zero_add index).symm))
  · rw [List.getElem?_eq_none (Nat.le_of_not_lt inside),
      List.getElem?_take_eq_none (Nat.le_of_not_lt inside)]

end Places

end Parts
