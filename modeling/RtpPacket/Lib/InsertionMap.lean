import Mathlib.Data.List.TakeWhile
import Mathlib.Tactic

/-!
# Maps that remember the order of insertion

A map is the list of its entries, oldest first. Setting a key that is there keeps its
place, and a bound on the size drops the oldest entries.
-/

set_option autoImplicit false

@[ext]
structure InsertionMap (Key Value : Type*) where
  entries : List (Key × Value)
  nodup : (entries.map Prod.fst).Nodup

namespace InsertionMap

variable {Key Value : Type*}

def empty : InsertionMap Key Value where
  entries := []
  nodup := List.nodup_nil

def size (map : InsertionMap Key Value) : Nat := map.entries.length

def keys (map : InsertionMap Key Value) : List Key := map.entries.map Prod.fst

theorem mem_keys_iff {map : InsertionMap Key Value} {key : Key} :
    key ∈ map.keys ↔ ∃ value, (key, value) ∈ map.entries := by
  rw [keys, List.mem_map]
  constructor
  · rintro ⟨entry, member, rfl⟩
    exact ⟨entry.2, member⟩
  · rintro ⟨value, member⟩
    exact ⟨_, member, rfl⟩

/-- The entries of `map` with the oldest dropped until `limit` of them are left. -/
def evict (map : InsertionMap Key Value) (limit : Nat) : InsertionMap Key Value where
  entries := map.entries.drop (map.entries.length - limit)
  nodup := map.nodup.sublist ((List.drop_sublist _ _).map Prod.fst)

theorem evict_of_le {map : InsertionMap Key Value} {limit : Nat} (room : map.size ≤ limit) :
    map.evict limit = map := by
  have none : map.entries.length - limit = 0 := Nat.sub_eq_zero_of_le room
  rw [evict]
  simp only [none, List.drop_zero]

/-- The entries from the first key on that `passed` does not hold of. -/
def dropWhile (map : InsertionMap Key Value) (passed : Key → Bool) : InsertionMap Key Value where
  entries := map.entries.dropWhile fun entry => passed entry.1
  nodup := map.nodup.sublist ((List.dropWhile_sublist _).map Prod.fst)

def mapValues (map : InsertionMap Key Value) (update : Key → Value → Value) :
    InsertionMap Key Value where
  entries := map.entries.map fun entry => (entry.1, update entry.1 entry.2)
  nodup := by
    have keys : (map.entries.map fun entry => (entry.1, update entry.1 entry.2)).map Prod.fst =
        map.entries.map Prod.fst := by
      rw [List.map_map]
      rfl
    rw [keys]
    exact map.nodup

theorem mem_of_mem_drop_while {map : InsertionMap Key Value} {passed : Key → Bool}
    {entry : Key × Value} (member : entry ∈ (map.dropWhile passed).entries) :
    entry ∈ map.entries :=
  (List.dropWhile_sublist _).subset member

theorem mem_drop_while_or {map : InsertionMap Key Value} {passed : Key → Bool}
    {entry : Key × Value} (member : entry ∈ map.entries) :
    entry ∈ (map.dropWhile passed).entries ∨ passed entry.1 = true := by
  rw [← List.takeWhile_append_dropWhile (p := fun entry => passed entry.1) (l := map.entries)]
    at member
  cases List.mem_append.mp member with
  | inl dropped =>
      have held := @List.mem_takeWhile_imp _ (fun other : Key × Value => passed other.1) _ _ dropped
      exact .inr held
  | inr kept => exact .inl kept

theorem mem_map_values {map : InsertionMap Key Value} {update : Key → Value → Value}
    {entry : Key × Value} :
    entry ∈ (map.mapValues update).entries ↔
      ∃ value, (entry.1, value) ∈ map.entries ∧ entry.2 = update entry.1 value := by
  rw [mapValues, List.mem_map]
  constructor
  · rintro ⟨old, member, rfl⟩
    exact ⟨old.2, member, rfl⟩
  · rintro ⟨value, member, same⟩
    exact ⟨(entry.1, value), member, Prod.ext rfl same.symm⟩

section Keys

variable [DecidableEq Key]

def get (map : InsertionMap Key Value) (key : Key) : Option Value := map.entries.lookup key

def set (map : InsertionMap Key Value) (key : Key) (value : Value) : InsertionMap Key Value where
  entries :=
    if key ∈ map.entries.map Prod.fst then
      map.entries.map fun entry => if entry.1 = key then (key, value) else entry
    else map.entries ++ [(key, value)]
  nodup := by
    split_ifs with known
    · have keys : (map.entries.map fun entry => if entry.1 = key then (key, value) else entry).map
          Prod.fst = map.entries.map Prod.fst := by
        rw [List.map_map]
        apply List.map_congr_left
        intro entry _
        by_cases same : entry.1 = key <;> simp [same]
      rw [keys]
      exact map.nodup
    · rw [List.map_append]
      exact map.nodup.append (List.nodup_singleton _)
        (List.disjoint_singleton.mpr known)

def erase (map : InsertionMap Key Value) (key : Key) : InsertionMap Key Value where
  entries := map.entries.filter (·.1 ≠ key)
  nodup := map.nodup.sublist (List.filter_sublist.map Prod.fst)

variable {map : InsertionMap Key Value} {key : Key} {value : Value}

theorem lookup_eq_some_iff {entries : List (Key × Value)}
    (nodup : (entries.map Prod.fst).Nodup) :
    entries.lookup key = some value ↔ (key, value) ∈ entries := by
  induction entries with
  | nil => simp
  | cons entry rest ih =>
      obtain ⟨fresh, restNodup⟩ := List.nodup_cons.mp nodup
      by_cases same : key = entry.1
      · have absent : (key, value) ∉ rest := by
          intro member
          have inside : key ∈ rest.map Prod.fst := List.mem_map_of_mem (f := Prod.fst) member
          exact fresh (same ▸ inside)
        have found : (key == entry.1) = true := beq_iff_eq.mpr same
        rw [List.lookup_cons, found, List.mem_cons, or_iff_left absent, Option.some.injEq]
        constructor
        · rintro rfl
          exact Prod.ext same rfl
        · exact fun whole => (congrArg Prod.snd whole).symm
      · have passed : (key == entry.1) = false := beq_eq_false_iff_ne.mpr same
        rw [List.lookup_cons, passed, List.mem_cons]
        simp only [ih restNodup, iff_or_self]
        exact fun whole => absurd (congrArg Prod.fst whole) same

theorem get_eq_some_iff : map.get key = some value ↔ (key, value) ∈ map.entries :=
  lookup_eq_some_iff map.nodup

theorem value_unique {first second : Value} (here : (key, first) ∈ map.entries)
    (there : (key, second) ∈ map.entries) : first = second :=
  Option.some.inj ((get_eq_some_iff.mpr here).symm.trans (get_eq_some_iff.mpr there))

theorem mem_set {entry : Key × Value} :
    entry ∈ (map.set key value).entries ↔
      entry = (key, value) ∨ entry.1 ≠ key ∧ entry ∈ map.entries := by
  rw [set]
  split_ifs with known
  · simp only [List.mem_map]
    constructor
    · rintro ⟨old, member, rfl⟩
      by_cases same : old.1 = key
      · exact .inl (if_pos same)
      · rw [if_neg same]
        exact .inr ⟨same, member⟩
    · rintro (rfl | ⟨other, member⟩)
      · obtain ⟨old, member, same⟩ := List.mem_map.mp known
        exact ⟨old, member, if_pos same⟩
      · exact ⟨entry, member, if_neg other⟩
  · rw [List.mem_append, List.mem_singleton, or_comm]
    apply or_congr_right
    constructor
    · intro member
      exact ⟨fun same => known (same ▸ List.mem_map_of_mem member), member⟩
    · exact And.right

theorem get_set_self : (map.set key value).get key = some value :=
  get_eq_some_iff.mpr (mem_set.mpr (.inl rfl))

theorem get_set_of_ne {other : Key} (apart : other ≠ key) :
    (map.set key value).get other = map.get other := by
  apply Option.ext
  intro found
  rw [get_eq_some_iff, get_eq_some_iff, mem_set]
  constructor
  · rintro (same | ⟨_, member⟩)
    · exact absurd (congrArg Prod.fst same) apart
    · exact member
  · exact fun member => .inr ⟨apart, member⟩

theorem mem_erase {entry : Key × Value} :
    entry ∈ (map.erase key).entries ↔ entry ∈ map.entries ∧ entry.1 ≠ key := by
  rw [erase, List.mem_filter, decide_eq_true_iff]

theorem get_erase_self : (map.erase key).get key = none := by
  rw [Option.eq_none_iff_forall_not_mem]
  intro found held
  exact (mem_erase.mp (get_eq_some_iff.mp held)).2 rfl

theorem get_erase_of_ne {other : Key} (apart : other ≠ key) :
    (map.erase key).get other = map.get other := by
  apply Option.ext
  intro found
  rw [get_eq_some_iff, get_eq_some_iff, mem_erase]
  exact and_iff_left apart

theorem mem_erase_all {keys : List Key} {entry : Key × Value} :
    entry ∈ (keys.foldl erase map).entries ↔ entry ∈ map.entries ∧ entry.1 ∉ keys := by
  induction keys generalizing map with
  | nil => simp
  | cons key rest ih =>
      rw [List.foldl_cons, ih, mem_erase, List.mem_cons, not_or, and_assoc]

theorem mem_set_all {keys : List Key} {assign : Key → Value} {entry : Key × Value}
    (member : entry ∈ (keys.foldl (fun map key => map.set key (assign key)) map).entries) :
    (entry.1 ∈ keys ∧ entry.2 = assign entry.1) ∨ entry ∈ map.entries := by
  induction keys generalizing map with
  | nil => exact .inr member
  | cons key rest ih =>
      cases ih member with
      | inl later => exact .inl ⟨List.mem_cons_of_mem _ later.1, later.2⟩
      | inr now =>
          cases mem_set.mp now with
          | inl new =>
              rw [new]
              exact .inl ⟨List.mem_cons_self, rfl⟩
          | inr old => exact .inr old.2

theorem mem_keys_set {other : Key} :
    other ∈ (map.set key value).keys ↔ other = key ∨ other ∈ map.keys := by
  simp only [mem_keys_iff, mem_set, Prod.mk.injEq]
  constructor
  · rintro ⟨found, same | ⟨_, member⟩⟩
    · exact .inl same.1
    · exact .inr ⟨found, member⟩
  · intro either
    by_cases same : other = key
    · exact ⟨value, .inl ⟨same, rfl⟩⟩
    · obtain ⟨found, member⟩ := either.resolve_left same
      exact ⟨found, .inr ⟨same, member⟩⟩

theorem mem_keys_set_all {assigned : List Key} {assign : Key → Value} {other : Key} :
    other ∈ (assigned.foldl (fun map key => map.set key (assign key)) map).keys ↔
      other ∈ assigned ∨ other ∈ map.keys := by
  induction assigned generalizing map with
  | nil => simp
  | cons first rest ih =>
      rw [List.foldl_cons, ih, mem_keys_set, List.mem_cons, or_left_comm, or_assoc]

theorem entries_set_all {assigned : List Key} {assign : Key → Value} (distinct : assigned.Nodup)
    (fresh : ∀ key ∈ assigned, key ∉ map.keys) :
    (assigned.foldl (fun map key => map.set key (assign key)) map).entries =
      map.entries ++ assigned.map fun key => (key, assign key) := by
  induction assigned generalizing map with
  | nil => simp
  | cons first rest ih =>
      obtain ⟨apart, restDistinct⟩ := List.nodup_cons.mp distinct
      have appended : (map.set first (assign first)).entries =
          map.entries ++ [(first, assign first)] := if_neg (fresh first List.mem_cons_self)
      rw [List.foldl_cons, ih restDistinct, appended, List.append_assoc]
      · rfl
      · intro key member known
        cases mem_keys_set.mp known with
        | inl same => exact apart (same ▸ member)
        | inr old => exact fresh key (List.mem_cons_of_mem _ member) old

theorem keys_erase_sublist (map : InsertionMap Key Value) (key : Key) :
    (map.erase key).keys.Sublist map.keys := List.filter_sublist.map Prod.fst

theorem keys_erase_all_sublist (map : InsertionMap Key Value) (erased : List Key) :
    (erased.foldl erase map).keys.Sublist map.keys := by
  induction erased generalizing map with
  | nil => exact List.Sublist.refl _
  | cons key rest ih => exact (ih _).trans (map.keys_erase_sublist key)

end Keys

theorem keys_map_values (map : InsertionMap Key Value) (update : Key → Value → Value) :
    (map.mapValues update).keys = map.keys := by
  rw [keys, mapValues, List.map_map]
  rfl

theorem keys_drop_while_sublist (map : InsertionMap Key Value) (passed : Key → Bool) :
    (map.dropWhile passed).keys.Sublist map.keys :=
  (List.dropWhile_sublist _).map Prod.fst

/-- In a map whose keys ascend, those below a bound are a prefix. -/
theorem drop_while_ascending [LinearOrder Key] {map : InsertionMap Key Value}
    (ascending : map.keys.Pairwise (· < ·)) (bound : Key) :
    (map.dropWhile (· < bound)).entries = map.entries.filter fun entry => bound ≤ entry.1 := by
  have pairs : map.entries.Pairwise fun first second => first.1 < second.1 :=
    List.pairwise_map.mp ascending
  change map.entries.dropWhile (fun entry => decide (entry.1 < bound)) = _
  generalize map.entries = entries at pairs
  induction entries with
  | nil => rfl
  | cons entry rest ih =>
      obtain ⟨above, later⟩ := List.pairwise_cons.mp pairs
      by_cases low : entry.1 < bound
      · rw [List.dropWhile_cons_of_pos (by simpa using low), ih later,
          List.filter_cons_of_neg (by simpa using low)]
      · have high := not_lt.mp low
        rw [List.dropWhile_cons_of_neg (by simpa using low), eq_comm, List.filter_eq_self]
        intro other member
        cases List.mem_cons.mp member with
        | inl here => exact decide_eq_true (here ▸ high)
        | inr after => exact decide_eq_true (high.trans (above other after).le)

end InsertionMap
