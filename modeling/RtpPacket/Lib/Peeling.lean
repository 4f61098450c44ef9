import Mathlib.Tactic

/-!
# Peeling

Some items are held, and of some groups the one missing item can be made from the
others. What can be held in the end is the least set that contains what was given and is
closed under that rule; it does not depend on the order in which groups are used.
-/

namespace Peeling

set_option autoImplicit false

variable {Item : Type*}

inductive Peeled (given : Set Item) (groups : Set (Set Item)) : Item → Prop
  | given {item : Item} (member : item ∈ given) : Peeled given groups item
  | missing {group : Set Item} {item : Item} (known : group ∈ groups) (inside : item ∈ group)
      (others : ∀ other ∈ group, other ≠ item → Peeled given groups other) :
      Peeled given groups item

def Closed (groups : Set (Set Item)) (held : Set Item) : Prop :=
  ∀ group ∈ groups, ∀ item ∈ group, (∀ other ∈ group, other ≠ item → other ∈ held) → item ∈ held

variable {given more held : Set Item} {groups others : Set (Set Item)} {item : Item}

theorem peeled_least (contains : given ⊆ held) (closed : Closed groups held)
    (peeled : Peeled given groups item) : item ∈ held := by
  induction peeled with
  | given member => exact contains member
  | missing known inside _ ih => exact closed _ known _ inside ih

theorem peeled_mono (wider : given ⊆ more) (further : groups ⊆ others)
    (peeled : Peeled given groups item) : Peeled more others item := by
  induction peeled with
  | given member => exact .given (wider member)
  | missing known inside _ ih => exact .missing (further known) inside ih

/-- A set between what was given and what can be peeled is all of it once no group is left
with exactly one item missing. -/
theorem eq_peeled (contains : given ⊆ held) (sound : ∀ item ∈ held, Peeled given groups item)
    (closed : Closed groups held) (item : Item) : item ∈ held ↔ Peeled given groups item :=
  ⟨sound item, peeled_least contains closed⟩

end Peeling
