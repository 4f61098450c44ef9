import RtpPacket.Receive.Playout

/-!
# Reordering within the latency

Packets that arrive within 128 numbers of each other, in whatever order, are all in
the buffer when the latency is over: the cursor has moved back to the smallest of
them. One flush then walks from there to the largest.
-/

namespace RtpPacket.Receive

open SerialNumber JitterBuffer

set_option autoImplicit false

variable {Payload : Type}

structure Arrival (Payload : Type) where
  pkt : Packet Payload
  now : Rat
  later : Rat

def Arrival.action (arrival : Arrival Payload) : Action Payload :=
  .push arrival.pkt arrival.now arrival.later

def arrivedKeys (arrivals : List (Arrival Payload)) : List Nat := arrivals.map (·.pkt.key)

def latest (arrivals : List (Arrival Payload)) (seq : Nat) : Option (Entry Payload) :=
  (arrivals.reverse.find? (·.pkt.key = seq)).map fun arrival => ⟨arrival.pkt, arrival.now⟩

def outcome (arrivals : List (Arrival Payload)) (seq : Nat) : Event Payload :=
  match latest arrivals seq with
  | some entry => .packet entry.pkt
  | none => .loss seq

theorem latest_append (arrivals : List (Arrival Payload)) (arrival : Arrival Payload) (seq : Nat) :
    latest (arrivals ++ [arrival]) seq =
      if arrival.pkt.key = seq then some ⟨arrival.pkt, arrival.now⟩ else latest arrivals seq := by
  simp only [latest, List.reverse_append, List.reverse_singleton, List.singleton_append,
    List.find?_cons]
  by_cases same : arrival.pkt.key = seq <;> simp [same]

theorem latest_mem {arrivals : List (Arrival Payload)} {seq : Nat} {entry : Entry Payload}
    (found : latest arrivals seq = some entry) :
    ∃ arrival ∈ arrivals, arrival.pkt.key = seq ∧ arrival.pkt = entry.pkt ∧
      arrival.now = entry.insertTime := by
  obtain ⟨arrival, hit, rfl⟩ := Option.map_eq_some_iff.mp found
  have matched := List.find?_some hit
  exact ⟨arrival, List.mem_reverse.mp (List.mem_of_find?_eq_some hit), by simpa using matched,
    rfl, rfl⟩

theorem latest_is_some_iff {arrivals : List (Arrival Payload)} {seq : Nat} :
    (latest arrivals seq).isSome ↔ seq ∈ arrivedKeys arrivals := by
  simp [latest, arrivedKeys]

/-- The state after the arrivals: they are all stored, and the cursor is on the smallest
number among them, as counted from `base`. -/
structure Filled (start jb : JitterBuffer Payload) (base : Nat)
    (arrivals : List (Arrival Payload)) : Prop extends jb.WellFormed where
  same_size : jb.maxSize = start.maxSize
  same_latency : jb.effectiveLatency = start.effectiveLatency
  quiet : jb.emittedAny = false
  entries : ∀ seq, jb.buffer.lookup seq = latest arrivals seq
  fresh : jb.nextSeq = none → arrivals = []
  smallest : ∀ next, jb.nextSeq = some next → next ∈ arrivedKeys arrivals ∧
    ∀ key ∈ arrivedKeys arrivals, distance 0x10000 base next ≤ distance 0x10000 base key

namespace Filled

variable {start jb : JitterBuffer Payload} {base : Nat} {arrivals : List (Arrival Payload)}

theorem stored_iff (filled : Filled start jb base arrivals) {key : Nat} :
    key ∈ jb.buffer ↔ key ∈ arrivedKeys arrivals := by
  rw [← AList.lookup_isSome, filled.entries, latest_is_some_iff]

theorem count_le (filled : Filled start jb base arrivals) :
    jb.count ≤ (arrivedKeys arrivals).toFinset.card := by
  rw [filled.count_eq, ← List.toFinset_card_of_nodup jb.buffer.keys_nodup]
  refine Finset.card_le_card fun key member => ?_
  rw [List.mem_toFinset] at member ⊢
  exact filled.stored_iff.mp (AList.mem_keys.mpr member)

theorem insert (filled : Filled start jb base arrivals) (arrival : Arrival Payload) {next : Nat}
    (stored : next ∈ arrivedKeys (arrivals ++ [arrival]))
    (least : ∀ key ∈ arrivedKeys (arrivals ++ [arrival]),
      distance 0x10000 base next ≤ distance 0x10000 base key) :
    Filled start ({ jb with nextSeq := some next, oldStreak := 0 }.insert
      arrival.pkt.key arrival.pkt arrival.now) base (arrivals ++ [arrival]) := by
  have nextBound : next < 0x10000 := by
    obtain ⟨other, -, rfl⟩ := List.mem_map.mp stored
    exact Nat.mod_lt _ (by decide)
  have moved : ({ jb with nextSeq := some next, oldStreak := 0 }).WellFormed :=
    { filled.toWellFormed with
      next_lt := by
        rintro other ⟨⟩
        exact nextBound }
  refine { insert_well_formed moved arrival.pkt arrival.now with
    same_size := filled.same_size, same_latency := filled.same_latency, quiet := filled.quiet,
    entries := ?_, fresh := nofun, smallest := ?_ }
  · intro seq
    rw [latest_append]
    split
    · next same => rw [← same, JitterBuffer.insert, AList.lookup_insert]
    · next different =>
        rw [JitterBuffer.insert, AList.lookup_insert_ne (Ne.symm different), filled.entries]
  · rintro other ⟨⟩
    exact ⟨stored, least⟩

end Filled

theorem arrived_keys_append (arrivals : List (Arrival Payload)) (arrival : Arrival Payload) :
    arrivedKeys (arrivals ++ [arrival]) = arrivedKeys arrivals ++ [arrival.pkt.key] := by
  simp [arrivedKeys]

theorem store_fits {jb : JitterBuffer Payload} {next seq : Nat} {pkt : Packet Payload}
    {now later : Rat} (fits : (jb.insert seq pkt now).count ≤ jb.maxSize) :
    jb.store next seq pkt now later = (jb.insert seq pkt now, []) := by
  have same : (jb.insert seq pkt now).maxSize = jb.maxSize := rfl
  rw [store, if_neg (by omega)]

/-- An arrival is stored without an event, and the cursor follows it back where it is the
smallest so far. -/
theorem push_filled {start jb : JitterBuffer Payload} {base : Nat}
    {arrivals : List (Arrival Payload)} (filled : Filled start jb base arrivals)
    (arrival : Arrival Payload) (baseBound : base < 0x10000)
    (near : ∀ key ∈ arrivedKeys (arrivals ++ [arrival]), distance 0x10000 base key ≤ 128)
    (room : (arrivedKeys (arrivals ++ [arrival])).toFinset.card ≤ start.maxSize) :
    Filled start (step jb arrival.action).1 base (arrivals ++ [arrival]) ∧
      (step jb arrival.action).2 = [] := by
  have seqBound : arrival.pkt.key < 0x10000 := Nat.mod_lt _ (by decide)
  have seqMember : arrival.pkt.key ∈ arrivedKeys (arrivals ++ [arrival]) := by
    simp [arrived_keys_append]
  have put (next : Nat) (stored : next ∈ arrivedKeys (arrivals ++ [arrival]))
      (least : ∀ key ∈ arrivedKeys (arrivals ++ [arrival]),
        distance 0x10000 base next ≤ distance 0x10000 base key) :
      let result := { jb with nextSeq := some next, oldStreak := 0 }.store next arrival.pkt.key
        arrival.pkt arrival.now arrival.later
      Filled start result.1 base (arrivals ++ [arrival]) ∧ result.2 = [] := by
    have inserted := filled.insert arrival stored least
    have fits := Nat.le_trans inserted.count_le room
    rw [← filled.same_size] at fits
    rw [store_fits fits]
    exact ⟨inserted, rfl⟩
  have seqNear := near _ seqMember
  have seqCases := distance_cases baseBound seqBound
  simp only [step, Arrival.action, push]
  cases cursor : jb.nextSeq with
  | none =>
      simp only [Option.getD_none, seq_diff_self seqBound]
      rw [if_neg (by decide), if_neg (by decide)]
      refine put _ seqMember fun key member => ?_
      rw [filled.fresh cursor] at member
      rw [List.mem_singleton.mp member]
  | some next =>
      obtain ⟨nextMember, least⟩ := filled.smallest next cursor
      have nextBound := filled.next_lt next cursor
      have grown : next ∈ arrivedKeys (arrivals ++ [arrival]) := by
        rw [arrived_keys_append]
        exact List.mem_append_left _ nextMember
      have nextNear := near next grown
      have nextCases := distance_cases baseBound nextBound
      have behindCases := distance_cases seqBound nextBound
      have level := seq_diff_cases next arrival.pkt.key
      simp only [Option.getD_some]
      by_cases before : distance 0x10000 base arrival.pkt.key < distance 0x10000 base next
      · have behind : seqDiff next arrival.pkt.key > 0 ∧ ¬seqDiff next arrival.pkt.key > 128 := by
          split at level <;> split_ifs at seqCases nextCases behindCases <;> omega
        rw [if_neg behind.2, if_pos behind.1, if_neg (by simp [filled.quiet])]
        refine put _ seqMember fun key member => ?_
        rw [arrived_keys_append, List.mem_append, List.mem_singleton] at member
        rcases member with old | rfl
        · exact Nat.le_of_lt (Nat.lt_of_lt_of_le before (least key old))
        · exact le_rfl
      · have ahead : ¬seqDiff next arrival.pkt.key > 128 ∧ ¬seqDiff next arrival.pkt.key > 0 := by
          split at level <;> split_ifs at seqCases nextCases behindCases <;> omega
        rw [if_neg ahead.1, if_neg ahead.2]
        refine put _ grown fun key member => ?_
        rw [arrived_keys_append, List.mem_append, List.mem_singleton] at member
        rcases member with old | rfl
        · exact least key old
        · exact Nat.not_lt.mp before

theorem arrivals_filled {start jb : JitterBuffer Payload} {base : Nat}
    {arrivals : List (Arrival Payload)} (filled : Filled start jb base arrivals)
    (rest : List (Arrival Payload)) (baseBound : base < 0x10000)
    (near : ∀ key ∈ arrivedKeys (arrivals ++ rest), distance 0x10000 base key ≤ 128)
    (room : (arrivedKeys (arrivals ++ rest)).toFinset.card ≤ start.maxSize) :
    Filled start (Run.run step jb (rest.map Arrival.action)).1 base (arrivals ++ rest) ∧
      (Run.run step jb (rest.map Arrival.action)).2 = [] := by
  induction rest generalizing jb arrivals with
  | nil => simpa [Run.run] using filled
  | cons arrival later ih =>
      have split : arrivals ++ arrival :: later = arrivals ++ [arrival] ++ later := by simp
      rw [split] at near room ⊢
      have grown (key : Nat) (member : key ∈ arrivedKeys (arrivals ++ [arrival])) :
          key ∈ arrivedKeys (arrivals ++ [arrival] ++ later) := by
        simp only [arrivedKeys, List.map_append] at member ⊢
        exact List.mem_append_left _ member
      have roomFirst : (arrivedKeys (arrivals ++ [arrival])).toFinset.card ≤ start.maxSize := by
        refine Nat.le_trans (Finset.card_le_card fun key member => ?_) room
        rw [List.mem_toFinset] at member ⊢
        exact grown key member
      obtain ⟨pushed, silent⟩ := push_filled filled arrival baseBound
        (fun key member => near key (grown key member)) roomFirst
      obtain ⟨after, laterSilent⟩ := ih pushed near room
      simp only [List.map_cons, Run.run]
      exact ⟨after, by rw [silent, laterSilent]; rfl⟩

/-- The state of the flush with `left` numbers to go: the last of them is stored, and what
is stored has waited long enough. -/
structure Remaining (jb : JitterBuffer Payload) (arrivals : List (Arrival Payload)) (now : Rat)
    (next left : Nat) : Prop extends jb.WellFormed where
  started : jb.nextSeq = some next
  left_le : left ≤ 129
  within : ∀ key ∈ jb.buffer, distance 0x10000 next key < left
  last : 0 < left → (next + (left - 1)) % 0x10000 ∈ jb.buffer
  entries : ∀ key < 0x10000, distance 0x10000 next key < left →
    jb.buffer.lookup key = latest arrivals key
  waited : ∀ key entry, jb.buffer.lookup key = some entry →
    now - entry.insertTime ≥ jb.effectiveLatency

namespace Remaining

variable {jb : JitterBuffer Payload} {arrivals : List (Arrival Payload)} {now : Rat}
  {next left : Nat}

theorem next_bound (remaining : Remaining jb arrivals now next left) : next < 0x10000 :=
  remaining.next_lt next remaining.started

theorem empty_iff (remaining : Remaining jb arrivals now next left) :
    jb.buffer.keys = [] ↔ left = 0 := by
  constructor
  · intro empty
    by_contra some_left
    have stored := AList.mem_keys.mp (remaining.last (Nat.pos_of_ne_zero some_left))
    rw [empty] at stored
    cases stored
  · intro none
    refine List.eq_nil_iff_forall_not_mem.mpr fun key member => ?_
    have inside := remaining.within key (AList.mem_keys.mpr member)
    omega

/-- The cursor moves over `steps` numbers, of which only the first may have been stored. -/
theorem advance (remaining : Remaining jb arrivals now next left) {after : JitterBuffer Payload}
    {steps : Nat} (few : steps ≤ left) (wellFormed : after.WellFormed)
    (started : after.nextSeq = some ((next + steps) % 0x10000))
    (latency : after.effectiveLatency = jb.effectiveLatency)
    (kept : ∀ key, after.buffer.lookup key ≠ none →
      after.buffer.lookup key = jb.buffer.lookup key ∧ steps ≤ distance 0x10000 next key)
    (ahead : ∀ key < 0x10000, steps ≤ distance 0x10000 next key →
      after.buffer.lookup key = jb.buffer.lookup key) :
    Remaining after arrivals now ((next + steps) % 0x10000) (left - steps) := by
  have nextBound := remaining.next_bound
  have leftBound := remaining.left_le
  have movedBound : (next + steps) % 0x10000 < 0x10000 := Nat.mod_lt _ (by decide)
  refine { wellFormed with
    started := started, left_le := by omega, within := ?_, last := ?_, entries := ?_,
    waited := ?_ }
  · intro key stored
    obtain ⟨same, far⟩ := kept key (by rwa [ne_eq, AList.lookup_eq_none, not_not])
    have old : key ∈ jb.buffer := by
      rw [← AList.lookup_isSome, ← same]
      exact AList.lookup_isSome.mpr stored
    rw [distance_advance nextBound (remaining.key_lt key old) far]
    have inside := remaining.within key old
    omega
  · intro some_left
    have stored := remaining.last (by omega)
    have position : ((next + steps) % 0x10000 + (left - steps - 1)) % 0x10000 =
        (next + (left - 1)) % 0x10000 := by
      rw [Nat.mod_add_mod]
      congr 1
      omega
    rw [position, ← AList.lookup_isSome, ahead _ (Nat.mod_lt _ (by decide))]
    · exact AList.lookup_isSome.mpr stored
    · rw [distance_add nextBound (by omega)]
      omega
  · intro key keyBound inside
    have room : distance 0x10000 ((next + steps) % 0x10000) key + steps < 0x10000 := by omega
    have back := distance_retreat nextBound keyBound room
    rw [ahead key keyBound (by omega)]
    exact remaining.entries key keyBound (by omega)
  · intro key entry found
    rw [latency]
    exact remaining.waited key entry ((kept key (by simp [found])).1 ▸ found)

theorem emit (remaining : Remaining jb arrivals now next left) (stored : next ∈ jb.buffer) :
    Remaining (jb.emit next) arrivals now ((next + 1) % 0x10000) (left - 1) := by
  have nextBound := remaining.next_bound
  have inside := remaining.within next stored
  have self := distance_self nextBound
  refine remaining.advance (by omega) (emit_well_formed remaining.toWellFormed stored) rfl rfl
    (fun key found => ?_) (fun key keyBound far => ?_)
  · have different : key ≠ next := by
      rintro rfl
      exact found (AList.lookup_erase _ _)
    have same : (jb.emit next).buffer.lookup key = jb.buffer.lookup key :=
      AList.lookup_erase_ne different
    have old : key ∈ jb.buffer := by
      rw [← AList.lookup_isSome, ← same]
      exact Option.isSome_iff_ne_none.mpr found
    exact ⟨same, Nat.pos_of_ne_zero fun zero =>
      different (eq_of_distance_zero nextBound (remaining.key_lt key old) zero)⟩
  · refine AList.lookup_erase_ne ?_
    rintro rfl
    omega

theorem skip (remaining : Remaining jb arrivals now next left) {gapEnd : Nat}
    (first : jb.Earliest next gapEnd) :
    Remaining (jb.declareGapAndSkip next gapEnd).1 arrivals now gapEnd
      (left - distance 0x10000 next gapEnd) := by
  have nextBound := remaining.next_bound
  have position := add_distance nextBound (remaining.key_lt gapEnd first.1)
  have inside := remaining.within gapEnd first.1
  have wellFormed : (jb.declareGapAndSkip next gapEnd).1.WellFormed :=
    skip_well_formed remaining.toWellFormed first.1
  have moved := remaining.advance (Nat.le_of_lt inside) wellFormed (by rw [position]; rfl) rfl
    (fun key found => ⟨rfl, first.2 key (by rwa [ne_eq, AList.lookup_eq_none, not_not] at found)⟩)
    (fun _ _ _ => rfl)
  rwa [position] at moved

theorem gap_outcomes (remaining : Remaining jb arrivals now next left) {gapEnd : Nat}
    (first : jb.Earliest next gapEnd) :
    gapEvents next gapEnd =
      (successive 0x10000 next (distance 0x10000 next gapEnd)).map (outcome arrivals) := by
  have nextBound := remaining.next_bound
  have inside := remaining.within gapEnd first.1
  have leftBound := remaining.left_le
  have all : min (distance 0x10000 next gapEnd) maxLossEventsPerGap =
      distance 0x10000 next gapEnd := Nat.min_eq_left (by rw [maxLossEventsPerGap]; omega)
  rw [gapEvents, seq_diff_of_le (by omega), if_neg (by omega), Int.toNat_natCast, all]
  dsimp only
  rw [if_neg (Nat.lt_irrefl _), List.append_nil]
  refine List.map_congr_left fun seq member => ?_
  obtain ⟨step, inRange, rfl⟩ := List.mem_map.mp member
  have before := List.mem_range.mp inRange
  have position := distance_add nextBound (show step < 0x10000 by omega)
  have missing : (next + step) % 0x10000 ∉ jb.buffer := fun stored => by
    have closest := first.2 _ stored
    omega
  have none := remaining.entries ((next + step) % 0x10000) (Nat.mod_lt _ (by decide)) (by omega)
  rw [AList.lookup_eq_none.mpr missing] at none
  rw [outcome, ← none]

theorem turn (remaining : Remaining jb arrivals now next left) :
    (jb.turn now = none ∧ left = 0) ∨
      ∃ taken steps, jb.turn now = some taken ∧ steps ≤ left ∧
        Remaining taken.state arrivals now ((next + steps) % 0x10000) (left - steps) ∧
        taken.events = (successive 0x10000 next steps).map (outcome arrivals) ∧
        taken.emitted + taken.state.count ≤ jb.count := by
  have nextBound := remaining.next_bound
  simp only [JitterBuffer.turn, remaining.started]
  cases stored : jb.buffer.lookup next with
  | some entry =>
      have onHead : next ∈ jb.buffer := AList.lookup_isSome.mp (by rw [stored]; rfl)
      have inside := remaining.within next onHead
      have counted : 0 < jb.count := by
        rw [remaining.count_eq]
        exact List.length_pos_of_mem (AList.mem_keys.mp onHead)
      refine .inr ⟨_, 1, rfl, by omega, remaining.emit onHead, ?_, ?_⟩
      · have arrived := remaining.entries next nextBound inside
        rw [stored] at arrived
        rw [successive_one, Nat.mod_eq_of_lt nextBound, List.map_singleton, outcome, ← arrived]
      · show 1 + (jb.count - 1) ≤ jb.count
        omega
  | none =>
      rcases find_next_available_spec nextBound remaining.toWellFormed
        (AList.lookup_eq_none.mp stored) with ⟨empty, none⟩ | ⟨key, entry, found, held, first⟩
      · exact .inl ⟨by rw [none], remaining.empty_iff.mp empty⟩
      · have inside := remaining.within key first.1
        have keyBound := remaining.key_lt key first.1
        refine .inr ⟨⟨(jb.declareGapAndSkip next key).1, gapEvents next key, 0⟩,
          distance 0x10000 next key, ?_, Nat.le_of_lt inside, ?_,
          remaining.gap_outcomes first, ?_⟩
        · simp only [found]
          exact if_pos (remaining.waited key entry held)
        · rw [add_distance nextBound keyBound]
          exact remaining.skip first
        · exact Nat.le_of_eq (Nat.zero_add _)

end Remaining

theorem flush_loop_remaining {jb : JitterBuffer Payload} {arrivals : List (Arrival Payload)}
    {now : Rat} {next left : Nat} (remaining : Remaining jb arrivals now next left)
    {maxEmit emitted : Nat} (budget : emitted + jb.count ≤ maxEmit) :
    (jb.flushLoop now maxEmit emitted).2 =
      (successive 0x10000 next left).map (outcome arrivals) := by
  fun_induction flushLoop now maxEmit emitted jb generalizing next left with
  | case1 emitted jb within stopped =>
      rcases remaining.turn with ⟨-, none⟩ | ⟨taken, _, turned, -⟩
      · rw [none]
        rfl
      · simp [turned] at stopped
  | case2 emitted jb within taken turned later =>
      rename_i ih
      rcases remaining.turn with ⟨stopped, -⟩ | ⟨other, steps, same, few, after, events, spent⟩
      · simp [turned] at stopped
      · obtain rfl := Option.some.inj (turned.symm.trans same)
        have rest := ih after (by omega)
        rw [events, rest, ← List.map_append, ← successive_add, Nat.add_sub_cancel' few]
  | case3 emitted jb spent =>
      have empty : jb.buffer.keys = [] :=
        List.length_eq_zero_iff.mp (by rw [← remaining.count_eq]; omega)
      rw [remaining.empty_iff.mp empty]
      rfl

/-- The events of the arrivals, in their order, and of one flush after them. -/
def flushAfter (opts : Options) (arrivals : List (Arrival Payload)) (now : Rat) :
    List (Event Payload) :=
  (Run.run step (initJitterBuffer opts) (arrivals.map Arrival.action ++ [.flush now])).2

/-- `smallest` and `largest` bound the numbers that arrived, as counted from `base`. -/
structure Bounds (base : Nat) (arrivals : List (Arrival Payload)) (smallest largest : Nat) :
    Prop where
  smallest_mem : smallest ∈ arrivedKeys arrivals
  largest_mem : largest ∈ arrivedKeys arrivals
  smallest_le : ∀ key ∈ arrivedKeys arrivals,
    distance 0x10000 base smallest ≤ distance 0x10000 base key
  le_largest : ∀ key ∈ arrivedKeys arrivals,
    distance 0x10000 base key ≤ distance 0x10000 base largest

theorem initially_filled (opts : Options) (base : Nat) :
    Filled (initJitterBuffer opts : JitterBuffer Payload) (initJitterBuffer opts) base [] where
  key_lt := by simp [initJitterBuffer]
  next_lt := nofun
  count_eq := rfl
  stored_key := by simp [initJitterBuffer]
  same_size := rfl
  same_latency := rfl
  quiet := rfl
  entries := by simp [initJitterBuffer, latest]
  fresh _ := rfl
  smallest := nofun

theorem flush_after_eq {opts : Options} {arrivals : List (Arrival Payload)} {base : Nat}
    {now : Rat} (baseBound : base < 0x10000)
    (near : ∀ key ∈ arrivedKeys arrivals, distance 0x10000 base key ≤ 128)
    (room : (arrivedKeys arrivals).toFinset.card ≤
      (initJitterBuffer opts : JitterBuffer Payload).maxSize)
    (waited : ∀ arrival ∈ arrivals,
      now - arrival.now ≥ (initJitterBuffer opts : JitterBuffer Payload).effectiveLatency)
    {smallest largest : Nat} (bounds : Bounds base arrivals smallest largest) :
    flushAfter opts arrivals now =
      (successive 0x10000 smallest (distance 0x10000 smallest largest + 1)).map
        (outcome arrivals) := by
  obtain ⟨filled, silent⟩ :=
    arrivals_filled (initially_filled opts base) arrivals baseBound near room
  rw [List.nil_append] at filled
  rw [flushAfter, Run.run_append, silent, List.nil_append]
  simp only [Run.run, List.append_nil, step]
  set jb := (Run.run step (initJitterBuffer opts) (arrivals.map Arrival.action)).1
  have keyBound (key : Nat) (member : key ∈ arrivedKeys arrivals) : key < 0x10000 := by
    obtain ⟨_, -, rfl⟩ := List.mem_map.mp member
    exact Nat.mod_lt _ (by decide)
  have smallestBound := keyBound _ bounds.smallest_mem
  have fromSmallest (key : Nat) (member : key ∈ arrivedKeys arrivals) :
      distance 0x10000 smallest key =
        distance 0x10000 base key - distance 0x10000 base smallest := by
    have moved := distance_advance baseBound (keyBound key member) (bounds.smallest_le key member)
    rwa [add_distance baseBound smallestBound] at moved
  have span := fromSmallest largest bounds.largest_mem
  have spanBound := near largest bounds.largest_mem
  have started : jb.nextSeq = some smallest := by
    cases cursor : jb.nextSeq with
    | none =>
        have member := bounds.smallest_mem
        rw [filled.fresh cursor] at member
        cases member
    | some next =>
        obtain ⟨member, least⟩ := filled.smallest next cursor
        rw [eq_of_distance baseBound smallestBound (keyBound next member)
          (Nat.le_antisymm (bounds.smallest_le next member) (least smallest bounds.smallest_mem))]
  have remaining : Remaining jb arrivals now smallest (distance 0x10000 smallest largest + 1) := by
    refine { filled.toWellFormed with
      started := started, left_le := by omega, within := fun key stored => ?_,
      last := fun _ => ?_, entries := fun key _ _ => filled.entries key,
      waited := fun key entry found => ?_ }
    · have member := filled.stored_iff.mp stored
      have below := bounds.le_largest key member
      rw [fromSmallest key member]
      omega
    · rw [Nat.add_sub_cancel, add_distance smallestBound (keyBound _ bounds.largest_mem)]
      exact filled.stored_iff.mpr bounds.largest_mem
    · rw [filled.entries] at found
      obtain ⟨arrival, member, -, -, same⟩ := latest_mem found
      rw [← same, filled.same_latency]
      exact waited arrival member
  refine flush_loop_remaining remaining ?_
  have fits := Nat.le_trans filled.count_le room
  rw [← filled.same_size] at fits
  omega

theorem flush_after_nothing (opts : Options) (now : Rat) :
    flushAfter opts ([] : List (Arrival Payload)) now = [] := by
  simp only [flushAfter, List.map_nil, List.nil_append, Run.run, step, List.append_nil]
  rw [flush_not_started rfl]

theorem exists_bounds (base : Nat) {arrivals : List (Arrival Payload)} (some : arrivals ≠ []) :
    ∃ smallest largest, Bounds base arrivals smallest largest := by
  have nonempty : (arrivedKeys arrivals).toFinset.Nonempty := by
    obtain ⟨arrival, member⟩ := List.exists_mem_of_ne_nil _ some
    exact ⟨arrival.pkt.key, List.mem_toFinset.mpr (List.mem_map_of_mem member)⟩
  obtain ⟨smallest, smallestMem, least⟩ :=
    Finset.exists_min_image _ (distance 0x10000 base) nonempty
  obtain ⟨largest, largestMem, most⟩ :=
    Finset.exists_max_image _ (distance 0x10000 base) nonempty
  simp only [List.mem_toFinset] at smallestMem least largestMem most
  exact ⟨smallest, largest, smallestMem, largestMem, least, most⟩

def Event.numbered : Event Payload → Event Unit
  | .packet pkt => .packet ⟨pkt.key, ()⟩
  | .loss seq => .loss seq
  | .gap start stop length => .gap start stop length
  | .resync seq => .resync seq

theorem numbered_outcome (arrivals : List (Arrival Payload)) (seq : Nat) :
    (outcome arrivals seq).numbered =
      if seq ∈ arrivedKeys arrivals then .packet ⟨seq, ()⟩ else .loss seq := by
  have arrived := @latest_is_some_iff _ arrivals seq
  rw [outcome]
  cases found : latest arrivals seq with
  | none =>
      rw [found] at arrived
      rw [if_neg (by simpa using arrived)]
      rfl
  | some entry =>
      rw [found] at arrived
      obtain ⟨arrival, -, same, pkt, -⟩ := latest_mem found
      rw [if_pos (arrived.mp rfl), ← same, pkt]
      rfl

/-- Two lists of arrivals of the same packets, in whatever order and with any copies. -/
def SamePackets (arrivals other : List (Arrival Payload)) : Prop :=
  ∀ pkt, pkt ∈ arrivals.map (·.pkt) ↔ pkt ∈ other.map (·.pkt)

theorem arrived_keys_of_same_packets {arrivals other : List (Arrival Payload)}
    (same : SamePackets arrivals other) (seq : Nat) :
    seq ∈ arrivedKeys other ↔ seq ∈ arrivedKeys arrivals := by
  have keys (some : List (Arrival Payload)) :
      arrivedKeys some = (some.map (·.pkt)).map Packet.key := by simp [arrivedKeys]
  rw [keys, keys, List.mem_map, List.mem_map]
  exact exists_congr fun pkt => and_congr_left fun _ => (same pkt).symm

theorem outcome_of_same_packets {arrivals other : List (Arrival Payload)}
    (same : SamePackets arrivals other)
    (copies : ∀ first ∈ arrivals, ∀ second ∈ arrivals, first.pkt.key = second.pkt.key →
      first.pkt = second.pkt) : outcome other = outcome arrivals := by
  funext seq
  have keys := arrived_keys_of_same_packets same seq
  rw [← latest_is_some_iff, ← latest_is_some_iff] at keys
  rw [outcome, outcome]
  cases found : latest other seq with
  | none =>
      have none : latest arrivals seq = none := by
        rw [← Option.not_isSome_iff_eq_none, ← keys, found]
        simp
      rw [none]
  | some entry =>
      obtain ⟨entry', found'⟩ := Option.isSome_iff_exists.mp (keys.mp (by rw [found]; rfl))
      obtain ⟨arrival, member, key, pkt, -⟩ := latest_mem found
      obtain ⟨arrival', member', key', pkt', -⟩ := latest_mem found'
      obtain ⟨copy, copyMember, samePkt⟩ :=
        List.mem_map.mp ((same arrival.pkt).mpr (List.mem_map_of_mem member))
      have agree := copies copy copyMember arrival' member' (by rw [samePkt, key, key'])
      simp only [found']
      rw [← pkt, ← pkt', ← samePkt, agree]

/-- Packets within 128 numbers of each other, as many as fit the buffer, in any order and
with any copies: one flush after the latency outputs a packet for every number that arrived
and reports every other one from the smallest to the largest as lost, in ascending order.
Another order of the same packets gives the same events, up to which of several packets
with one number is output. -/
theorem flush_outputs_arrivals (opts : Options) (arrivals : List (Arrival Payload)) (base : Nat)
    (now : Rat) (baseBound : base < 0x10000)
    (near : ∀ key ∈ arrivedKeys arrivals, distance 0x10000 base key ≤ 128)
    (room : (arrivedKeys arrivals).toFinset.card ≤
      (initJitterBuffer opts : JitterBuffer Payload).maxSize)
    (waited : ∀ arrival ∈ arrivals,
      now - arrival.now ≥ (initJitterBuffer opts : JitterBuffer Payload).effectiveLatency) :
    (∀ smallest largest, Bounds base arrivals smallest largest →
      flushAfter opts arrivals now =
        (successive 0x10000 smallest (distance 0x10000 smallest largest + 1)).map
          (outcome arrivals)) ∧
    (arrivals = [] → flushAfter opts arrivals now = []) ∧
    ∀ (other : List (Arrival Payload)) (otherNow : Rat),
      SamePackets arrivals other →
      (∀ arrival ∈ other, otherNow - arrival.now ≥
        (initJitterBuffer opts : JitterBuffer Payload).effectiveLatency) →
      (flushAfter opts other otherNow).map Event.numbered =
          (flushAfter opts arrivals now).map Event.numbered ∧
        ((∀ first ∈ arrivals, ∀ second ∈ arrivals, first.pkt.key = second.pkt.key →
            first.pkt = second.pkt) →
          flushAfter opts other otherNow = flushAfter opts arrivals now) := by
  refine ⟨fun smallest largest bounds => flush_after_eq baseBound near room waited bounds,
    fun none => none ▸ flush_after_nothing opts now, fun other otherNow same otherWaited => ?_⟩
  have keys := arrived_keys_of_same_packets same
  by_cases nothing : arrivals = []
  · have otherNothing : other = [] := by
      refine List.eq_nil_iff_forall_not_mem.mpr fun arrival member => ?_
      have arrived := (same arrival.pkt).mpr (List.mem_map_of_mem member)
      rw [nothing] at arrived
      cases arrived
    rw [nothing, otherNothing, flush_after_nothing, flush_after_nothing]
    exact ⟨rfl, fun _ => rfl⟩
  · obtain ⟨smallest, largest, bounds⟩ := exists_bounds base nothing
    have otherBounds : Bounds base other smallest largest :=
      ⟨(keys _).mpr bounds.smallest_mem, (keys _).mpr bounds.largest_mem,
        fun key member => bounds.smallest_le key ((keys key).mp member),
        fun key member => bounds.le_largest key ((keys key).mp member)⟩
    have sameSet : (arrivedKeys other).toFinset = (arrivedKeys arrivals).toFinset := by
      ext seq
      simp [keys]
    have otherEq := flush_after_eq baseBound
      (fun key member => near key ((keys key).mp member)) (sameSet ▸ room) otherWaited otherBounds
    rw [otherEq, flush_after_eq baseBound near room waited bounds]
    constructor
    · rw [List.map_map, List.map_map]
      refine List.map_congr_left fun seq _ => ?_
      simp only [Function.comp_apply, numbered_outcome, keys]
    · intro copies
      rw [outcome_of_same_packets same copies]

theorem flush_outputs_arrivals_across_wrap :
    flushAfter ⟨none, none, none, none⟩
        [⟨⟨1, ()⟩, 0, 0⟩, ⟨⟨65535, ()⟩, 3, 3⟩, ⟨⟨1, ()⟩, 5, 5⟩] 60 =
      [.packet ⟨65535, ()⟩, .loss 0, .packet ⟨1, ()⟩] := by
  have outputs := flush_outputs_arrivals ⟨none, none, none, none⟩
    [⟨⟨1, ()⟩, 0, 0⟩, ⟨⟨65535, ()⟩, 3, 3⟩, ⟨⟨1, ()⟩, 5, 5⟩] 65535 60
    (by decide) (by decide) (by decide) (by decide +kernel)
  rw [outputs.1 65535 1 ⟨by decide, by decide, by decide, by decide⟩]
  decide +kernel

end RtpPacket.Receive
