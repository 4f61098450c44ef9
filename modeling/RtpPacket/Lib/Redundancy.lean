import Mathlib.Data.List.DropRight
import RtpPacket.Lib.Run

/-!
# Recovery from redundant copies

A sender repeats its last few items in every packet. A receiver hands out what it has
not handed out lately, and so recovers what was lost as long as losses in a row are
fewer than the copies of an item.
-/

namespace Redundancy

open Run

set_option autoImplicit false

variable {Item Key Packet : Type*}

theorem rtake_append_of_le {left right : List Item} {count : Nat} (within : right.length ≤ count) :
    (left ++ right).rtake count = left.rtake (count - right.length) ++ right := by
  have skipped : left.length + right.length - count = left.length - (count - right.length) := by
    omega
  rw [List.rtake, List.length_append, skipped, List.drop_append_of_le_length (Nat.sub_le _ _),
    List.rtake]

theorem rtake_rtake_append (left right : List Item) (count : Nat) :
    (left.rtake count ++ right).rtake count = (left ++ right).rtake count := by
  have moved : left.drop (left.length - count) ++ right =
      (left ++ right).drop (left.length - count) :=
    (List.drop_append_of_le_length (Nat.sub_le _ _)).symm
  rw [List.rtake, List.rtake, moved, List.drop_drop, List.rtake, List.length_drop,
    List.length_append]
  congr 1
  omega

theorem rtake_rtake (items : List Item) {narrow wide : Nat} (le : narrow ≤ wide) :
    (items.rtake wide).rtake narrow = items.rtake narrow := by
  rw [List.rtake, List.rtake, List.drop_drop, List.rtake, List.length_drop]
  congr 1
  omega

theorem rtake_map (function : Item → Key) (items : List Item) (count : Nat) :
    (items.map function).rtake count = (items.rtake count).map function := by
  rw [List.rtake, List.rtake, List.map_drop, List.length_map]

theorem rtake_suffix (items : List Item) (count : Nat) : items.rtake count <:+ items :=
  List.drop_suffix _ _

theorem rtake_suffix_rtake (items : List Item) {narrow wide : Nat} (le : narrow ≤ wide) :
    items.rtake narrow <:+ items.rtake wide := by
  have later : items.length - narrow = items.length - wide +
      (items.length - narrow - (items.length - wide)) := by omega
  rw [List.rtake, later, ← List.drop_drop]
  exact List.drop_suffix _ _

theorem mem_rtake {items : List Item} {count : Nat} {item : Item}
    (member : item ∈ items.rtake count) :
    ∃ left right, items = left ++ item :: right ∧ right.length < count := by
  obtain ⟨left, right, split⟩ := List.append_of_mem member
  obtain ⟨skipped, whole⟩ := List.drop_suffix (items.length - count) items
  have length : (items.rtake count).length ≤ count := by
    rw [List.rtake, List.length_drop]
    omega
  refine ⟨skipped ++ left, right, ?_, ?_⟩
  · rw [List.append_assoc, ← split]
    exact whole.symm
  · rw [split, List.length_append, List.length_cons] at length
    omega

/-- What holds of the ends of every span of a list holds between any two of its entries. -/
theorem pairwise_of_spans {related : Item → Item → Prop} {items : List Item}
    (spans : ∀ first between last, first :: (between ++ [last]) <:+: items → related first last) :
    items.Pairwise related := by
  induction items with
  | nil => exact List.Pairwise.nil
  | cons first rest ih =>
      constructor
      · intro last member
        obtain ⟨between, after, rfl⟩ := List.append_of_mem member
        exact spans first between last ⟨[], after, by simp⟩
      · exact ih fun first between last inside =>
          spans first between last (inside.trans (List.suffix_cons _ _).isInfix)

theorem rtake_length_le (items : List Item) (count : Nat) : (items.rtake count).length ≤ count := by
  rw [List.rtake, List.length_drop]
  omega

/-- What each packet carries: the last `redundancy` items sent before its own, oldest first. -/
def carried (redundancy : Nat) : List Item → List Item → List (List Item)
  | _, [] => []
  | before, item :: rest =>
      (before.rtake redundancy ++ [item]) :: carried redundancy (before ++ [item]) rest

/-- Packets that arrive the given numbers of times each; zero is a loss. -/
def deliver : List Packet → List Nat → List Packet
  | packet :: packets, copies :: rest => List.replicate copies packet ++ deliver packets rest
  | _, _ => []

/-- No more than `redundancy` losses in a row, and none at the end. -/
structure Recoverable (redundancy : Nat) (copies : List Nat) : Prop where
  gaps : ¬List.replicate (redundancy + 1) 0 <:+: copies
  last : copies.getLast? ≠ some 0

theorem Recoverable.tail {redundancy count : Nat} {missed copies : List Nat}
    (recoverable : Recoverable redundancy (missed ++ count :: copies)) :
    Recoverable redundancy copies where
  gaps := fun inside =>
    recoverable.gaps (inside.trans ⟨missed ++ [count], [], by simp⟩)
  last := by
    intro lost
    apply recoverable.last
    rw [List.getLast?_append, List.getLast?_cons, lost]
    rfl

/-- The receiver remembers the last `width` keys it handed out. -/
def receive [DecidableEq Key] (key : Item → Key) (width : Nat) (seen : List Key)
    (items : List Item) : List Key × List Item :=
  let fresh := items.filter fun item => key item ∉ seen
  ((seen ++ fresh.map key).rtake width, fresh)

/-- Items close to each other have different keys. -/
def Apart (key : Item → Key) (reach : Nat) (items : List Item) : Prop :=
  ∀ window, window <:+: items → window.length ≤ reach → (window.map key).Nodup

theorem carried_infix {redundancy : Nat} {before rest : List Item} {packet : List Item}
    (member : packet ∈ carried redundancy before rest) :
    packet <:+: before ++ rest ∧ packet.length ≤ redundancy + 1 := by
  induction rest generalizing before with
  | nil => simp [carried] at member
  | cons item rest ih =>
      cases List.mem_cons.mp member with
      | inl here =>
          rw [here]
          constructor
          · obtain ⟨skipped, whole⟩ := rtake_suffix before redundancy
            exact ⟨skipped, rest, by simpa using congrArg (· ++ item :: rest) whole⟩
          · rw [List.length_append, List.length_singleton]
            exact Nat.succ_le_succ (rtake_length_le before redundancy)
      | inr later =>
          have found := ih later
          rwa [List.append_assoc, List.singleton_append] at found

theorem carried_length (redundancy : Nat) (before rest : List Item) :
    (carried redundancy before rest).length = rest.length := by
  induction rest generalizing before with
  | nil => rfl
  | cons item rest ih => rw [carried, List.length_cons, ih, List.length_cons]

theorem deliver_forall₂ {Other : Type*} {related : Packet → Other → Prop} {packets : List Packet}
    {others : List Other} (each : List.Forall₂ related packets others) (copies : List Nat) :
    List.Forall₂ related (deliver packets copies) (deliver others copies) := by
  induction each generalizing copies with
  | nil => exact .nil
  | @cons packet other packets others here _ ih =>
      cases copies with
      | nil => exact .nil
      | cons count copies =>
          have same : List.Forall₂ related (List.replicate count packet)
              (List.replicate count other) := by
            induction count with
            | zero => exact .nil
            | succ count more => exact .cons here more
          exact List.rel_append same (ih copies)

section Recovery

variable [DecidableEq Key] {key : Item → Key} {redundancy width : Nat}

/-- The first packet after losses brings the missed items and its own. -/
theorem receive_fresh {heard missed : List Item} {item : Item} (room : redundancy < width)
    (short : missed.length ≤ redundancy)
    (apart : Apart key (width + redundancy + 1) (heard ++ missed ++ [item])) :
    receive key width ((heard.map key).rtake width)
        ((heard ++ missed).rtake redundancy ++ [item]) =
      (((heard ++ missed ++ [item]).map key).rtake width, missed ++ [item]) := by
  have packet : (heard ++ missed).rtake redundancy ++ [item] =
      heard.rtake (redundancy - missed.length) ++ (missed ++ [item]) := by
    rw [rtake_append_of_le short, List.append_assoc]
  have nodup : ((heard.rtake width ++ (missed ++ [item])).map key).Nodup := by
    apply apart
    · obtain ⟨skipped, whole⟩ := rtake_suffix heard width
      exact ⟨skipped, [], by simpa using congrArg (· ++ (missed ++ [item])) whole⟩
    · have length := rtake_length_le heard width
      rw [List.length_append, List.length_append, List.length_singleton]
      omega
  have disjoint := List.disjoint_of_nodup_append (List.map_append (f := key) ▸ nodup)
  have old : (heard.rtake (redundancy - missed.length)).filter
      (fun other => key other ∉ (heard.rtake width).map key) = [] := by
    apply List.filter_eq_nil_iff.mpr
    intro other member
    have inside : other ∈ heard.rtake width :=
      (rtake_suffix_rtake heard (by omega)).subset member
    simpa using List.mem_map_of_mem (f := key) inside
  have new : (missed ++ [item]).filter
      (fun other => key other ∉ (heard.rtake width).map key) = missed ++ [item] := by
    apply List.filter_eq_self.mpr
    intro other member
    rw [decide_eq_true_iff]
    exact fun seen => disjoint seen (List.mem_map_of_mem member)
  rw [receive, packet, rtake_map]
  simp only [List.filter_append (heard.rtake _), old, new, List.nil_append]
  rw [← rtake_map, rtake_rtake_append, ← List.map_append, List.append_assoc]

theorem receive_again (room : redundancy < width) (before : List Item) (item : Item) :
    receive key width (((before ++ [item]).map key).rtake width)
        (before.rtake redundancy ++ [item]) =
      (((before ++ [item]).map key).rtake width, []) := by
  have old : (before.rtake redundancy ++ [item]).filter
      (fun other => key other ∉ ((before ++ [item]).map key).rtake width) = [] := by
    apply List.filter_eq_nil_iff.mpr
    intro other member
    rw [← List.rtake_concat_succ] at member
    have inside := (rtake_suffix_rtake (before ++ [item]) room).subset member
    rw [rtake_map]
    simpa using List.mem_map_of_mem (f := key) inside
  rw [receive, old, List.map_nil, List.append_nil]
  have short := rtake_length_le ((before ++ [item]).map key) width
  rw [List.rtake, Nat.sub_eq_zero_of_le short, List.drop_zero]

/-- Every item comes out once, in order: those in `missed` and those still to be sent. -/
theorem run_deliver (room : redundancy < width) {rest : List Item} {copies : List Nat}
    (length : copies.length = rest.length) {heard missed : List Item}
    (short : missed.length ≤ redundancy)
    (recoverable : Recoverable redundancy (List.replicate missed.length 0 ++ copies))
    (apart : Apart key (width + redundancy + 1) (heard ++ missed ++ rest)) :
    (run (receive key width) ((heard.map key).rtake width)
      (deliver (carried redundancy (heard ++ missed) rest) copies)).2 = missed ++ rest := by
  induction rest generalizing copies heard missed with
  | nil =>
      obtain rfl := List.length_eq_zero_iff.mp length
      cases missed with
      | nil => rfl
      | cons item missed =>
          exact absurd (by simp [List.getLast?_replicate]) recoverable.last
  | cons item rest ih =>
      obtain ⟨count, copies, rfl⟩ := List.exists_cons_of_length_eq_add_one length
      have lengths : copies.length = rest.length := Nat.succ.inj length
      rw [carried, deliver, run_append]
      cases count with
      | zero =>
          have moved : List.replicate missed.length 0 ++ 0 :: copies =
              List.replicate (missed ++ [item]).length 0 ++ copies := by
            rw [List.length_append, List.length_singleton, List.replicate_succ']
            simp
          rw [moved] at recoverable
          have shorter : (missed ++ [item]).length ≤ redundancy := by
            by_contra long
            apply recoverable.gaps
            have most : (missed ++ [item]).length = redundancy + 1 := by
              rw [List.length_append, List.length_singleton] at long ⊢
              omega
            rw [most]
            exact ⟨[], copies, rfl⟩
          have later := @ih copies lengths heard (missed ++ [item]) shorter recoverable
            (by simpa using apart)
          rw [List.append_assoc]
          simpa [run] using later
      | succ count =>
          have first : receive key width ((heard.map key).rtake width)
              ((heard ++ missed).rtake redundancy ++ [item]) =
              (((heard ++ missed ++ [item]).map key).rtake width, missed ++ [item]) := by
            apply receive_fresh room short
            intro window inside
            exact apart window (inside.trans ⟨[], rest, by simp⟩)
          have idle := run_replicate_idle
            (@receive_again Item Key _ key redundancy width room (heard ++ missed) item) count
          have recovers : Recoverable redundancy (List.replicate 0 0 ++ copies) :=
            recoverable.tail
          have later := @ih copies lengths (heard ++ missed ++ [item]) [] (Nat.zero_le _) recovers
            (by simpa using apart)
          rw [List.replicate_succ, run, first]
          simp only
          rw [idle]
          simp only [List.append_nil] at later ⊢
          rw [later]
          simp

theorem every_item_once (room : redundancy < width) {items : List Item} {copies : List Nat}
    (length : copies.length = items.length) (recoverable : Recoverable redundancy copies)
    (apart : Apart key (width + redundancy + 1) items) :
    (run (receive key width) [] (deliver (carried redundancy [] items) copies)).2 = items := by
  have whole := @run_deliver Item Key _ key redundancy width room items copies length [] []
    (Nat.zero_le _)
    recoverable apart
  rwa [List.map_nil, List.rtake_nil] at whole

end Recovery

end Redundancy
