import RtpPacket.Lib.Furthest
import RtpPacket.Lib.Run

/-!
# Renumbering the items of successive sources

Every source numbers its items on its own. One continuous numbering keeps the
differences within a source; the first item after a switch is placed one past the
furthest position given so far. Positions are unbounded integers here.
-/

namespace Renumbering

open Run Furthest

set_option autoImplicit false

/-- What is passed in: an item under its source's number, or the switch to another source. -/
inductive Passed (Item Switch : Type) where
  | item (number : Int) (content : Item)
  | switch (content : Switch)

variable {Item Switch : Type}

def Passed.IsItem : Passed Item Switch → Prop
  | .item _ _ => True
  | .switch _ => False

structure Line where
  /-- What takes a number of the current source to its position. -/
  shift : Int
  furthest : Option Int
  pending : Bool

def Line.fresh : Line where
  shift := 0
  furthest := none
  pending := false

def Line.position (start : Int) (line : Line) (number : Int) : Int :=
  match line.furthest with
  | none => start
  | some furthest => if line.pending then furthest + 1 else number + line.shift

def Line.place (line : Line) (number position : Int) : Line where
  shift := position - number
  furthest := some (max (line.furthest.getD position) position)
  pending := false

/-- A switch before the first item changes nothing. -/
def step (start : Int) (line : Line) : Passed Item Switch → Line × List Int
  | .item number _ =>
      let position := line.position start number
      (line.place number position, [position])
  | .switch _ => ({ line with pending := line.furthest.isSome }, [])

def lineAfter (start : Int) (history : List (Passed Item Switch)) : Line :=
  (run (step start) .fresh history).1

def positions (start : Int) (history : List (Passed Item Switch)) : List Int :=
  (run (step start) .fresh history).2

/-- The position of an item numbered `number` that follows `history`. -/
def positionAfter (start : Int) (history : List (Passed Item Switch)) (number : Int) : Int :=
  (lineAfter start history).position start number

variable {start : Int}

theorem line_after_append_item (history : List (Passed Item Switch)) (number : Int)
    (content : Item) :
    lineAfter start (history ++ [.item number content]) =
      (lineAfter start history).place number (positionAfter start history number) := by
  rw [lineAfter, run_append]
  rfl

theorem line_after_append_switch (history : List (Passed Item Switch)) (content : Switch) :
    lineAfter start (history ++ [.switch content]) =
      { lineAfter start history with pending := (lineAfter start history).furthest.isSome } := by
  rw [lineAfter, run_append]
  rfl

theorem positions_append_item (history : List (Passed Item Switch)) (number : Int)
    (content : Item) :
    positions start (history ++ [.item number content]) =
      positions start history ++ [positionAfter start history number] := by
  rw [positions, run_append]
  rfl

theorem positions_append_switch (history : List (Passed Item Switch)) (content : Switch) :
    positions start (history ++ [.switch content]) = positions start history := by
  rw [positions, run_append]
  exact List.append_nil _

theorem positions_append_subset (history more : List (Passed Item Switch)) :
    positions start history ⊆ positions start (history ++ more) := by
  rw [positions, positions, run_append]
  exact List.subset_append_left _ _

theorem line_furthest (history : List (Passed Item Switch)) :
    (lineAfter start history).furthest = (positions start history).argmax id := by
  induction history using List.reverseRecOn with
  | nil => rfl
  | append_singleton history last ih =>
      cases last with
      | switch content =>
          rw [line_after_append_switch, positions_append_switch]
          exact ih
      | item number content =>
          rw [line_after_append_item, positions_append_item, List.argmax_concat, ← ih]
          cases found : (lineAfter start history).furthest with
          | none => simp [Line.place, found]
          | some furthest =>
              simp only [Line.place, found, Option.getD_some, id]
              split
              · next further => rw [max_eq_right further.le]
              · next notFurther => rw [max_eq_left (not_lt.mp notFurther)]

theorem position_same_source (before : List (Passed Item Switch)) (first : Int) (content : Item)
    {between : List (Passed Item Switch)} (items : ∀ passed ∈ between, passed.IsItem)
    (number : Int) :
    positionAfter start (before ++ .item first content :: between) number =
      positionAfter start before first + (number - first) := by
  have kept : ∃ furthest, lineAfter start (before ++ .item first content :: between) =
      { shift := positionAfter start before first - first
        furthest := some furthest
        pending := false } := by
    induction between using List.reverseRecOn with
    | nil => exact ⟨_, line_after_append_item before first content⟩
    | append_singleton between last ih =>
        obtain ⟨furthest, reached⟩ :=
          ih fun passed member => items passed (List.mem_append_left _ member)
        cases last with
        | switch content => cases items (.switch content) (by simp)
        | item other content =>
            rw [← List.cons_append, ← List.append_assoc, line_after_append_item, positionAfter,
              reached]
            simp only [Line.position, Line.place, Option.getD_some, if_neg Bool.false_ne_true]
            exact ⟨_, by rw [add_sub_cancel_left]⟩
  obtain ⟨furthest, reached⟩ := kept
  rw [positionAfter, reached]
  simp only [Line.position, if_neg Bool.false_ne_true]
  ring

/-- The first item after a switch is placed one past the furthest position. -/
theorem position_after_switch {before : List (Passed Item Switch)} {furthest : Int}
    (found : furthest ∈ (positions start before).argmax id) (content : Switch) (number : Int) :
    positionAfter start (before ++ [.switch content]) number = furthest + 1 := by
  have state := @line_furthest _ _ start before
  rw [found] at state
  simp [positionAfter, line_after_append_switch, Line.position, state]

theorem mem_positions {history : List (Passed Item Switch)} {position : Int} :
    position ∈ positions start history ↔
      ∃ (before after : List (Passed Item Switch)) (number : Int) (content : Item),
        history = before ++ Passed.item number content :: after ∧
          position = positionAfter start before number := by
  constructor
  · intro member
    induction history using List.reverseRecOn with
    | nil => cases member
    | append_singleton history last ih =>
        have earlier (member : position ∈ positions start history) :
            ∃ (before after : List (Passed Item Switch)) (number : Int) (content : Item),
              history ++ [last] = before ++ Passed.item number content :: after ∧
                position = positionAfter start before number := by
          obtain ⟨before, after, number, content, rfl, same⟩ := ih member
          exact ⟨before, after ++ [last], number, content, by simp, same⟩
        cases last with
        | switch content =>
            rw [positions_append_switch] at member
            exact earlier member
        | item number content =>
            rw [positions_append_item] at member
            rcases List.mem_append.mp member with old | new
            · exact earlier old
            · exact ⟨history, [], number, content, rfl, List.mem_singleton.mp new⟩
  · rintro ⟨before, after, number, content, rfl, rfl⟩
    rw [List.append_cons]
    apply positions_append_subset
    rw [positions_append_item]
    exact List.mem_append_right _ (List.mem_singleton.mpr rfl)

def DistinctPerSource (history : List (Passed Item Switch)) : Prop :=
  ∀ (before between after : List (Passed Item Switch)) (first second : Int)
    (content content' : Item),
    history = before ++ Passed.item first content ::
      (between ++ Passed.item second content' :: after) →
    (∀ passed ∈ between, passed.IsItem) → first ≠ second

def numbers (history : List (Passed Item Switch)) : List Int :=
  history.flatMap fun
    | .item number _ => [number]
    | .switch _ => []

theorem distinct_per_source_of_nodup {history : List (Passed Item Switch)}
    (nodup : (numbers history).Nodup) : DistinctPerSource history := by
  rintro before between after first second content content' rfl -
  simp only [numbers, List.flatMap_append, List.flatMap_cons, List.singleton_append] at nodup
  have later := (List.nodup_cons.mp nodup.of_append_right).1
  rintro rfl
  apply later
  simp

/-- An item numbered below the first one after the switch, so far below that it meets a
position given before the switch. -/
def LateMeetsEarlier (start : Int) (history : List (Passed Item Switch)) : Prop :=
  ∃ (before between after : List (Passed Item Switch)) (switch : Switch)
    (first late furthest : Int) (content content' : Item),
    history = before ++ Passed.switch switch :: Passed.item first content ::
      (between ++ Passed.item late content' :: after) ∧
    (∀ passed ∈ between, passed.IsItem) ∧ late < first ∧
    furthest ∈ (positions start before).argmax id ∧
    furthest + 1 - (first - late) ∈ positions start before

theorem exists_last_switch {passed : List (Passed Item Switch)}
    (switched : ¬ ∀ event ∈ passed, event.IsItem) :
    ∃ (before after : List (Passed Item Switch)) (content : Switch),
      passed = before ++ Passed.switch content :: after ∧ ∀ event ∈ after, event.IsItem := by
  induction passed using List.reverseRecOn with
  | nil => exact (switched nofun).elim
  | append_singleton passed last ih =>
      cases last with
      | switch content => exact ⟨passed, [], content, rfl, nofun⟩
      | item number content =>
          have earlier : ¬ ∀ event ∈ passed, event.IsItem := by
            intro items
            apply switched
            intro event member
            rcases List.mem_append.mp member with old | new
            · exact items event old
            · rw [List.mem_singleton.mp new]
              trivial
          obtain ⟨before, after, switch, rfl, items⟩ := ih earlier
          refine ⟨before, after ++ [.item number content], switch, by simp, ?_⟩
          intro event member
          rcases List.mem_append.mp member with old | new
          · exact items event old
          · rw [List.mem_singleton.mp new]
            trivial

/-- A new position is taken already only by a late item that meets an earlier source. -/
theorem late_of_position_taken {history : List (Passed Item Switch)} {number : Int}
    {content : Item} (distinct : DistinctPerSource (history ++ [.item number content]))
    (taken : positionAfter start history number ∈ positions start history) :
    LateMeetsEarlier start (history ++ [.item number content]) := by
  obtain ⟨before, after, other, content', rfl, same⟩ := mem_positions.mp taken
  by_cases items : ∀ passed ∈ after, passed.IsItem
  · -- Both are of one source.
    rw [position_same_source before other content' items] at same
    have apart := distinct before after [] other number content' content (by simp) items
    omega
  · obtain ⟨middle, tail, switch, rfl, tailItems⟩ := exists_last_switch items
    set earlier := before ++ .item other content' :: middle with earlierEq
    have given : positionAfter start before other ∈ positions start earlier :=
      mem_positions.mpr ⟨before, middle, other, content', earlierEq, rfl⟩
    obtain ⟨furthest, found⟩ : ∃ furthest, furthest ∈ (positions start earlier).argmax id := by
      cases found : (positions start earlier).argmax id with
      | none =>
          rw [List.argmax_eq_none.mp found] at given
          cases given
      | some furthest => exact ⟨furthest, rfl⟩
    have bounded : positionAfter start before other ≤ furthest :=
      List.le_of_mem_argmax given found
    have split : before ++ .item other content' :: (middle ++ .switch switch :: tail) =
        (earlier ++ [.switch switch]) ++ tail := by simp [earlierEq]
    rw [split] at same ⊢
    cases tail with
    | nil =>
        rw [List.append_nil, position_after_switch found] at same
        omega
    | cons head tail =>
        cases head with
        | switch content => cases tailItems (.switch content) (by simp)
        | item first content'' =>
            have rest : ∀ passed ∈ tail, passed.IsItem :=
              fun passed member => tailItems passed (List.mem_cons_of_mem _ member)
            rw [position_same_source _ first content'' rest, position_after_switch found] at same
            refine ⟨earlier, tail, [], switch, first, number, furthest, content'', content,
              by simp, rest, by omega, found, ?_⟩
            rwa [show furthest + 1 - (first - number) = positionAfter start before other by omega]

theorem late_meets_earlier_append {history : List (Passed Item Switch)}
    (late : LateMeetsEarlier start history) (more : List (Passed Item Switch)) :
    LateMeetsEarlier start (history ++ more) := by
  obtain ⟨before, between, after, switch, first, late, furthest, content, content', rfl, rest⟩ :=
    late
  exact ⟨before, between, after ++ more, switch, first, late, furthest, content, content',
    by simp, rest⟩

theorem distinct_per_source_of_append {history more : List (Passed Item Switch)}
    (distinct : DistinctPerSource (history ++ more)) : DistinctPerSource history := by
  rintro before between after first second content content' rfl
  exact distinct before between (after ++ more) first second content content' (by simp)

/-- Late items that meet an earlier source are the only repetitions. -/
theorem positions_nodup_iff {history : List (Passed Item Switch)}
    (distinct : DistinctPerSource history) :
    (positions start history).Nodup ↔ ¬ LateMeetsEarlier start history := by
  constructor
  · rintro nodup ⟨before, between, after, switch, first, late, furthest, content, content', rfl,
      items, -, found, given⟩
    have split : before ++ .switch switch :: .item first content ::
        (between ++ .item late content' :: after) =
        ((before ++ [.switch switch] ++ .item first content :: between) ++
          [.item late content']) ++ after := by simp
    rw [split, positions, run_append] at nodup
    have shorter := nodup.of_append_left
    rw [← positions, positions_append_item] at shorter
    have disjoint := List.disjoint_of_nodup_append shorter
    apply disjoint _ (List.mem_singleton.mpr rfl)
    rw [position_same_source _ first content items, position_after_switch found,
      show furthest + 1 + (late - first) = furthest + 1 - (first - late) by ring,
      List.append_assoc]
    exact positions_append_subset _ _ given
  · intro none
    induction history using List.reverseRecOn with
    | nil => exact List.nodup_nil
    | append_singleton history last ih =>
        have earlier := ih (distinct_per_source_of_append distinct)
          fun late => none (late_meets_earlier_append late _)
        cases last with
        | switch content =>
            rwa [positions_append_switch]
        | item number content =>
            rw [positions_append_item, List.nodup_append]
            refine ⟨earlier, List.nodup_singleton _, ?_⟩
            rintro position given _ new rfl
            rw [List.mem_singleton.mp new] at given
            exact none (late_of_position_taken distinct given)

end Renumbering
