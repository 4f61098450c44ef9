import RtpPacket.Lib.Associations

/-!
# Finite maps enumerated in ascending key order

A map from numbers is the list of its entries in ascending order of the keys, so
that two maps with the same entries are equal. This is how an object with
integer keys is enumerated.
-/

set_option autoImplicit false

@[ext]
structure AscendingMap (α : Type) where
  entries : List (Nat × α)
  ascending : entries.Pairwise fun left right => left.1 < right.1

namespace AscendingMap

open Associations

variable {α : Type}

def empty : AscendingMap α where
  entries := []
  ascending := List.Pairwise.nil

def insert (target : AscendingMap α) (key : Nat) (value : α) : AscendingMap α where
  entries :=
    target.entries.filter (·.1 < key) ++ (key, value) :: target.entries.filter (key < ·.1)
  ascending := by
    apply List.pairwise_append.mpr
    refine ⟨target.ascending.filter _, ?_, ?_⟩
    · apply List.Pairwise.cons
      · intro entry member
        simpa using (List.mem_filter.mp member).2
      · exact target.ascending.filter _
    · intro left leftMember right rightMember
      have below : left.1 < key := by simpa using (List.mem_filter.mp leftMember).2
      cases List.mem_cons.mp rightMember with
      | inl here => simpa [here] using below
      | inr later =>
          have above : key < right.1 := by simpa using (List.mem_filter.mp later).2
          exact below.trans above

theorem insert_last (target : AscendingMap α) {key : Nat} (value : α)
    (above : ∀ entry ∈ target.entries, entry.1 < key) :
    (target.insert key value).entries = target.entries ++ [(key, value)] := by
  have kept : target.entries.filter (·.1 < key) = target.entries :=
    List.filter_eq_self.mpr (by simpa using above)
  have none : target.entries.filter (key < ·.1) = [] :=
    List.filter_eq_nil_iff.mpr fun entry member => by
      have below := above entry member
      simp only [decide_eq_true_eq]
      omega
  simp only [insert, kept, none]

theorem foldl_insert_ascending (later : List (Nat × α)) (target : AscendingMap α)
    (ascending : (target.entries ++ later).Pairwise fun left right => left.1 < right.1) :
    (later.foldl (fun map entry => map.insert entry.1 entry.2) target).entries =
      target.entries ++ later := by
  induction later generalizing target with
  | nil => simp
  | cons entry rest ih =>
      have above : ∀ old ∈ target.entries, old.1 < entry.1 := fun old member =>
        (List.pairwise_append.mp ascending).2.2 old member entry List.mem_cons_self
      have appended := insert_last target entry.2 above
      rw [List.foldl_cons, ih, appended, List.append_assoc]
      · rfl
      · rw [appended, List.append_assoc]
        exact ascending

/-- Entering a map's entries one by one, in order, builds that map. -/
theorem foldl_insert_entries (target : AscendingMap α) :
    target.entries.foldl (fun map entry => map.insert entry.1 entry.2) empty = target := by
  apply AscendingMap.ext
  exact foldl_insert_ascending target.entries empty target.ascending

theorem mem_insert_iff {target : AscendingMap α} {key : Nat} {value : α} {entry : Nat × α} :
    entry ∈ (target.insert key value).entries ↔
      entry = (key, value) ∨ entry ∈ target.entries ∧ entry.1 ≠ key := by
  simp only [insert, List.mem_append, List.mem_cons, List.mem_filter, decide_eq_true_eq,
    Nat.ne_iff_lt_or_gt]
  tauto

theorem mem_insert {target : AscendingMap α} {key : Nat} {value : α} {entry : Nat × α}
    (member : entry ∈ (target.insert key value).entries) :
    entry = (key, value) ∨ entry ∈ target.entries := by
  cases mem_insert_iff.mp member with
  | inl here => exact Or.inl here
  | inr old => exact Or.inr old.1

theorem eq_of_mem_iff {left right : AscendingMap α}
    (same : ∀ entry, entry ∈ left.entries ↔ entry ∈ right.entries) : left = right := by
  have irreflexive : Std.Irrefl fun first second : Nat × α => first.1 < second.1 :=
    ⟨fun entry => Nat.lt_irrefl entry.1⟩
  have antisymmetric : Std.Antisymm fun first second : Nat × α => first.1 < second.1 :=
    ⟨fun _ _ below above => absurd below (Nat.lt_asymm above)⟩
  exact AscendingMap.ext (left.ascending.eq_of_mem_iff right.ascending same)

theorem insert_comm (target : AscendingMap α) {key other : Nat} (apart : key ≠ other)
    (value added : α) : (target.insert key value).insert other added =
      (target.insert other added).insert key value := by
  apply eq_of_mem_iff
  rintro ⟨own, held⟩
  simp only [mem_insert_iff, Prod.mk.injEq]
  constructor
  · rintro (⟨rfl, rfl⟩ | ⟨⟨rfl, rfl⟩ | ⟨old, unset⟩, kept⟩)
    · exact Or.inr ⟨Or.inl ⟨rfl, rfl⟩, apart.symm⟩
    · exact Or.inl ⟨rfl, rfl⟩
    · exact Or.inr ⟨Or.inr ⟨old, kept⟩, unset⟩
  · rintro (⟨rfl, rfl⟩ | ⟨⟨rfl, rfl⟩ | ⟨old, unset⟩, kept⟩)
    · exact Or.inr ⟨Or.inl ⟨rfl, rfl⟩, apart⟩
    · exact Or.inl ⟨rfl, rfl⟩
    · exact Or.inr ⟨Or.inr ⟨old, kept⟩, unset⟩

theorem mem_foldl_insert {later : List (Nat × α)} {target : AscendingMap α} {entry : Nat × α}
    (member : entry ∈
      (later.foldl (fun map entry => map.insert entry.1 entry.2) target).entries) :
    entry ∈ later ∨ entry ∈ target.entries := by
  induction later generalizing target with
  | nil => exact Or.inr member
  | cons first rest ih =>
      cases ih member with
      | inl inRest => exact Or.inl (List.mem_cons_of_mem _ inRest)
      | inr inserted =>
          cases mem_insert inserted with
          | inl here => exact Or.inl (here ▸ List.mem_cons_self)
          | inr old => exact Or.inr old

def get (target : AscendingMap α) (key : Nat) : Option α := (valuesOf key target.entries).head?

@[simp] theorem get_empty (key : Nat) : (empty : AscendingMap α).get key = none := rfl

@[simp] theorem get_insert_self (target : AscendingMap α) (key : Nat) (value : α) :
    (target.insert key value).get key = some value := by
  rw [get, insert, values_append, values_filter key (· < key),
    if_neg (by simp), values_cons_self]
  rfl

theorem get_insert_of_ne (target : AscendingMap α) {key other : Nat} (value : α)
    (apart : key ≠ other) : (target.insert key value).get other = target.get other := by
  rw [get, insert, values_append, values_filter other (· < key), values_cons_of_ne apart,
    values_filter other (key < ·)]
  by_cases below : other < key
  · rw [if_pos (by simpa using below), if_neg (by simp; omega), List.append_nil, get]
  · rw [if_neg (by simpa using below), if_pos (by simp; omega), List.nil_append, get]

/-- Of several values entered under one key the last one stays. -/
theorem get_foldl_insert (later : List (Nat × α)) (target : AscendingMap α) (key : Nat) :
    (later.foldl (fun map entry => map.insert entry.1 entry.2) target).get key =
      (valuesOf key later).getLast?.or (target.get key) := by
  induction later generalizing target with
  | nil => rfl
  | cons entry rest ih =>
      obtain ⟨own, value⟩ := entry
      rw [List.foldl_cons, ih]
      by_cases here : own = key
      · cases here
        rw [values_cons_self, get_insert_self, List.getLast?_cons]
        cases (valuesOf key rest).getLast? <;> rfl
      · rw [values_cons_of_ne (show (own, value).1 ≠ key from here),
          get_insert_of_ne target value here]

theorem get_foldl_entries (later target : AscendingMap α) (key : Nat) :
    (later.entries.foldl (fun map entry => map.insert entry.1 entry.2) target).get key =
      (later.get key).or (target.get key) := by
  have own := get_foldl_insert later.entries empty key
  rw [foldl_insert_entries, get_empty, Option.or_none] at own
  rw [get_foldl_insert, own]

end AscendingMap
