import RtpPacket.Receive.Playout

/-!
# What is played

A packet's place is its sequence number without the wrap. As long as packets arrive within
a quarter of the cycle of those that are stored and of the last one that was played, every
packet is played at its own place: played packets keep their order and are played once,
however often the numbers wrap, and the places between them are reported lost.
-/

namespace RtpPacket.Receive

open SerialNumber JitterBuffer Run

set_option autoImplicit false

variable {Payload : Type} {place : Payload → Nat}

def Event.payload : Event Payload → List Payload
  | .packet pkt => [pkt.payload]
  | _ => []

def payloads (events : List (Event Payload)) : List Payload := events.flatMap Event.payload

/-- Every packet among the events is in its place, the first event standing for `cursor`. -/
def InPlace (place : Payload → Nat) : Nat → List (Event Payload) → Prop
  | _, [] => True
  | cursor, event :: rest =>
      (∀ payload ∈ event.payload, place payload = cursor) ∧
        InPlace place (cursor + event.positions.length) rest

theorem in_place_append (cursor : Nat) (first second : List (Event Payload)) :
    InPlace place cursor (first ++ second) ↔
      InPlace place cursor first ∧ InPlace place (cursor + (positions first).length) second := by
  induction first generalizing cursor with
  | nil => simp [InPlace, positions]
  | cons event rest ih =>
      have covered : (positions (event :: rest)).length =
          event.positions.length + (positions rest).length := by
        rw [positions, List.flatMap_cons, List.length_append, positions]
      rw [List.cons_append, InPlace, InPlace, ih, and_assoc, covered, ← Nat.add_assoc]

theorem in_place_of_no_packet (cursor : Nat) {events : List (Event Payload)}
    (none : payloads events = []) : InPlace place cursor events := by
  induction events generalizing cursor with
  | nil => trivial
  | cons event rest ih =>
      rw [payloads, List.flatMap_cons, List.append_eq_nil_iff] at none
      refine ⟨?_, ih _ none.2⟩
      rw [none.1]
      exact fun _ member => absurd member List.not_mem_nil

theorem gap_events_payloads (next gapEnd : Nat) :
    payloads (gapEvents next gapEnd : List (Event Payload)) = [] := by
  have losses (numbers : List Nat) :
      payloads (numbers.map (Event.loss : Nat → Event Payload)) = [] := by
    rw [payloads, List.flatMap_map]
    exact List.flatMap_eq_nil_iff.mpr fun _ _ => rfl
  rw [gapEvents]
  dsimp only
  split_ifs
  · rfl
  · rw [payloads, List.flatMap_append, ← payloads, losses]
    rfl
  · rw [payloads, List.flatMap_append, ← payloads, losses]
    rfl

theorem gap_events_positions {next gapEnd : Nat}
    (short : distance 0x10000 next gapEnd ≤ 0x8000) :
    (positions (gapEvents next gapEnd : List (Event Payload))).length =
      distance 0x10000 next gapEnd := by
  rw [gapEvents, seq_diff_of_le short]
  rw [if_neg (by omega), Int.toNat_natCast, positions, List.flatMap_append, ← positions,
    positions_losses, List.length_append]
  split_ifs
  · simp [Event.positions, successive]
    omega
  · simp [successive]
    omega

/-- The cursor is on a place, and everything stored is as far ahead of it as its number
says. Right behind the cursor is the last packet played, or a stored one is on it. -/
structure Placed (place : Payload → Nat) (jb : JitterBuffer Payload) (played : List Payload)
    (cursor : Nat) : Prop where
  started : jb.nextSeq = some (cursor % 0x10000)
  entries : ∀ key entry, jb.buffer.lookup key = some entry →
    place entry.pkt.payload = cursor + distance 0x10000 (cursor % 0x10000) key
  anchored : (∃ last ∈ played.getLast?, cursor = place last + 1) ∨ cursor % 0x10000 ∈ jb.buffer

namespace Placed

variable {jb : JitterBuffer Payload} {played : List Payload} {cursor : Nat}

theorem emit (placed : Placed place jb played cursor) (wellFormed : jb.WellFormed)
    {entry : Entry Payload} (stored : jb.buffer.lookup (cursor % 0x10000) = some entry) :
    Placed place (jb.emit (cursor % 0x10000)) (played ++ [entry.pkt.payload]) (cursor + 1) := by
  have bound : cursor % 0x10000 < 0x10000 := Nat.mod_lt _ (by decide)
  have next : (cursor % 0x10000 + 1) % 0x10000 = (cursor + 1) % 0x10000 := Nat.mod_add_mod _ _ _
  have here := placed.entries _ _ stored
  rw [distance_self bound, Nat.add_zero] at here
  constructor
  · rw [JitterBuffer.emit, next]
  · intro key other found
    by_cases same : key = cursor % 0x10000
    · rw [same, JitterBuffer.emit, AList.lookup_erase] at found
      cases found
    · rw [JitterBuffer.emit, AList.lookup_erase_ne same] at found
      have inside := wellFormed.key_lt key (AList.lookup_isSome.mp (by rw [found]; rfl))
      have ahead : 1 ≤ distance 0x10000 (cursor % 0x10000) key := Nat.pos_of_ne_zero fun zero =>
        same (eq_of_distance_zero bound inside zero)
      have moved := distance_advance bound inside ahead
      have position := placed.entries key other found
      rw [next] at moved
      omega
  · left
    refine ⟨entry.pkt.payload, by simp, ?_⟩
    omega

theorem skip (placed : Placed place jb played cursor) (ordered : Ordered jb (cursor % 0x10000))
    {gapEnd : Nat} (first : jb.Earliest (cursor % 0x10000) gapEnd) :
    Placed place (jb.declareGapAndSkip (cursor % 0x10000) gapEnd).1 played
      (cursor + distance 0x10000 (cursor % 0x10000) gapEnd) := by
  have bound := ordered.next_bound
  have endBound := ordered.key_lt gapEnd first.1
  have reached := add_distance bound endBound
  have next : (cursor + distance 0x10000 (cursor % 0x10000) gapEnd) % 0x10000 = gapEnd :=
    (Nat.mod_add_mod _ _ _).symm.trans reached
  constructor
  · rw [next]
    rfl
  · intro key entry found
    have stored : key ∈ jb.buffer :=
      AList.lookup_isSome.mp (Option.isSome_iff_exists.mpr ⟨entry, found⟩)
    have moved := distance_advance bound (ordered.key_lt key stored) (first.2 key stored)
    have further := first.2 key stored
    rw [reached] at moved
    rw [next, moved, placed.entries key entry found]
    omega
  · right
    rw [next]
    exact first.1

/-- Before the first output the cursor may go back to a packet just behind it. -/
theorem rewind (placed : Placed place jb [] cursor) (ordered : Ordered jb (cursor % 0x10000))
    (quiet : jb.emittedAny = false) (few : jb.count ≤ 256) {pkt : Packet Payload} (now : Rat)
    (numbered : pkt.key = place pkt.payload % 0x10000) {behind : Nat}
    (position : cursor = place pkt.payload + behind) (most : behind ≤ 128) :
    Placed place ({ jb with nextSeq := some pkt.key, oldStreak := 0 }.insert pkt.key pkt now) []
      (place pkt.payload) := by
  have bound : pkt.key < 0x10000 := Nat.mod_lt _ (by decide)
  have next : cursor % 0x10000 = (pkt.key + behind) % 0x10000 := by
    rw [position, numbered, Nat.mod_add_mod]
  obtain ⟨-, span⟩ := ordered.unplayed quiet
  constructor
  · rw [← numbered]
    rfl
  · intro key entry found
    rw [← numbered]
    by_cases same : key = pkt.key
    · rw [same, JitterBuffer.insert, AList.lookup_insert] at found
      cases found
      rw [same, distance_self bound, Nat.add_zero]
    · rw [JitterBuffer.insert, AList.lookup_insert_ne same] at found
      have stored : key ∈ jb.buffer :=
        AList.lookup_isSome.mp (Option.isSome_iff_exists.mpr ⟨entry, found⟩)
      have near := span key stored
      have there := placed.entries key entry found
      rw [next] at near there
      have moved := distance_retreat bound (ordered.key_lt key stored)
        (show distance 0x10000 ((pkt.key + behind) % 0x10000) key + behind < 0x10000 by omega)
      omega
  · right
    rw [← numbered]
    exact (AList.mem_insert _).mpr (.inl rfl)

theorem insert (placed : Placed place jb played cursor) {pkt : Packet Payload} (now : Rat)
    (ahead : place pkt.payload = cursor + distance 0x10000 (cursor % 0x10000) pkt.key) :
    Placed place (jb.insert pkt.key pkt now) played cursor where
  started := placed.started
  entries key entry found := by
    by_cases same : key = pkt.key
    · rw [same, JitterBuffer.insert, AList.lookup_insert] at found
      cases found
      rw [same]
      exact ahead
    · rw [JitterBuffer.insert, AList.lookup_insert_ne same] at found
      exact placed.entries key entry found
  anchored := placed.anchored.imp_right fun stored => (AList.mem_insert _).mpr (.inr stored)

theorem streak (placed : Placed place jb played cursor) (streak : Nat) :
    Placed place { jb with nextSeq := some (cursor % 0x10000), oldStreak := streak } played
      cursor where
  started := rfl
  entries := placed.entries
  anchored := placed.anchored

end Placed

structure Leads (place : Payload → Nat) (played : List Payload) (cursor : Nat)
    (after : JitterBuffer Payload) (events : List (Event Payload)) : Prop where
  placed : Placed place after (played ++ payloads events) (cursor + (positions events).length)
  in_place : InPlace place cursor events

theorem leads_nil {jb : JitterBuffer Payload} {played : List Payload} {cursor : Nat}
    (placed : Placed place jb played cursor) : Leads place played cursor jb [] where
  placed := by
    rw [payloads, List.flatMap_nil, List.append_nil]
    exact placed
  in_place := trivial

theorem Leads.append {after later : JitterBuffer Payload} {played : List Payload} {cursor : Nat}
    {first second : List (Event Payload)} (leads : Leads place played cursor after first)
    (further : Leads place (played ++ payloads first) (cursor + (positions first).length) later
      second) : Leads place played cursor later (first ++ second) where
  placed := by
    have placed := further.placed
    rw [List.append_assoc, Nat.add_assoc] at placed
    rw [payloads, List.flatMap_append, positions, List.flatMap_append, List.length_append]
    exact placed
  in_place := (in_place_append cursor first second).mpr ⟨leads.in_place, further.in_place⟩

/-- Places less than half the cycle apart are told by their numbers. -/
theorem seq_diff_ahead (cursor : Nat) {steps : Nat} (near : steps ≤ 0x7FFF) :
    seqDiff (cursor % 0x10000) ((cursor + steps) % 0x10000) ≤ 0 := by
  rw [seqDiff]
  split_ifs
  · omega
  · omega

theorem seq_diff_behind (start : Nat) {steps : Nat} (near : steps ≤ 0x7FFF) :
    seqDiff ((start + steps) % 0x10000) (start % 0x10000) = steps := by
  rw [seqDiff]
  split_ifs
  · omega
  · omega

section Calls

variable {jb : JitterBuffer Payload} {played : List Payload} {cursor : Nat}

theorem skip_leads (placed : Placed place jb played cursor)
    (ordered : Ordered jb (cursor % 0x10000)) {gapEnd : Nat}
    (first : jb.Earliest (cursor % 0x10000) gapEnd) :
    Leads place played cursor (jb.declareGapAndSkip (cursor % 0x10000) gapEnd).1
      (gapEvents (cursor % 0x10000) gapEnd) where
  placed := by
    have near := Nat.le_trans (ordered.earliest_near first) (show 0x7FFF ≤ 0x8000 by decide)
    rw [gap_events_payloads, List.append_nil, gap_events_positions near]
    exact placed.skip ordered first
  in_place := in_place_of_no_packet cursor (gap_events_payloads _ _)

theorem turn_leads (placed : Placed place jb played cursor)
    (ordered : Ordered jb (cursor % 0x10000)) {now : Rat} {taken : Turn Payload}
    (turned : jb.turn now = some taken) :
    Leads place played cursor taken.state taken.events := by
  have bound := ordered.next_bound
  cases turn_cases turned with
  | @emit head entry started stored =>
      cases started.symm.trans placed.started
      have here := placed.entries _ _ stored
      rw [distance_self bound, Nat.add_zero] at here
      refine ⟨placed.emit ordered.toWellFormed stored, ?_, trivial⟩
      intro payload member
      rw [List.mem_singleton.mp member]
      exact here
  | @skip head found started missing available waited =>
      cases started.symm.trans placed.started
      obtain ⟨-, none⟩ | ⟨key, entry, same, -, first⟩ :=
        find_next_available_spec bound ordered.toWellFormed (AList.lookup_eq_none.mp missing)
      · cases available.symm.trans none
      · cases available.symm.trans same
        exact skip_leads placed ordered first

theorem ordered_at {next : Nat} (placed : Placed place jb played cursor)
    (ordered : Ordered jb next) : Ordered jb (cursor % 0x10000) := by
  cases ordered.started.symm.trans placed.started
  exact ordered

theorem flush_loop_leads (placed : Placed place jb played cursor)
    (ordered : Ordered jb (cursor % 0x10000)) (now : Rat) (maxEmit emitted : Nat) :
    Leads place played cursor (jb.flushLoop now maxEmit emitted).1
      (jb.flushLoop now maxEmit emitted).2 := by
  fun_induction flushLoop now maxEmit emitted jb generalizing played cursor with
  | case1 emitted jb budget stopped => exact leads_nil placed
  | case2 emitted jb budget taken turned later =>
      rename_i ih
      obtain ⟨_, middleOrdered, -, -, -⟩ := turn_ordered ordered turned
      have leads := turn_leads placed ordered turned
      exact leads.append (ih leads.placed (ordered_at leads.placed middleOrdered))
  | case3 emitted jb spent => exact leads_nil placed

theorem force_advance_leads (placed : Placed place jb played cursor)
    (ordered : Ordered jb (cursor % 0x10000)) {key : Nat} (stored : key ∈ jb.buffer) (now : Rat) :
    Leads place played cursor (jb.forceAdvance (cursor % 0x10000) now).1
      (jb.forceAdvance (cursor % 0x10000) now).2 := by
  obtain ⟨earliest, found, first⟩ := find_earliest_spec stored (cursor % 0x10000)
  have leads := skip_leads placed ordered first
  have skipped := ordered_at leads.placed (ordered.skip first)
  simp only [forceAdvance, found]
  exact leads.append (flush_loop_leads leads.placed skipped now _ 0)

theorem store_leads {pkt : Packet Payload} {now : Rat}
    (placed : Placed place (jb.insert pkt.key pkt now) played cursor)
    (ordered : Ordered (jb.insert pkt.key pkt now) (cursor % 0x10000)) (later : Rat) :
    Leads place played cursor (jb.store (cursor % 0x10000) pkt.key pkt now later).1
      (jb.store (cursor % 0x10000) pkt.key pkt now later).2 := by
  have stored : pkt.key ∈ (jb.insert pkt.key pkt now).buffer :=
    (AList.mem_insert _).mpr (.inl rfl)
  rw [store]
  split
  · exact force_advance_leads placed ordered stored later
  · exact leads_nil placed

/-- A push leaves the cursor where it is or, before the first output, takes it back. -/
theorem push_leads (placed : Placed place jb played cursor)
    (ordered : Ordered jb (cursor % 0x10000))
    (silent : jb.emittedAny = false → played = [] ∧ jb.count ≤ 256) {pkt : Packet Payload}
    (numbered : pkt.key = place pkt.payload % 0x10000)
    (late : cursor ≤ place pkt.payload + 0x7FFF) (early : place pkt.payload ≤ cursor + 0x7FFF)
    (now later : Rat) (noResync : ∀ seq, Event.resync seq ∉ (jb.push pkt now later).2) :
    ∃ start, (start = cursor ∨ jb.emittedAny = false) ∧
      Leads place played start (jb.push pkt now later).1 (jb.push pkt now later).2 := by
  have bound := ordered.next_bound
  have keyBound : pkt.key < 0x10000 := Nat.mod_lt _ (by decide)
  simp only [push, placed.started, Option.getD_some] at noResync ⊢
  by_cases ahead : cursor ≤ place pkt.payload
  · obtain ⟨steps, position⟩ := Nat.exists_eq_add_of_le ahead
    have reach : distance 0x10000 (cursor % 0x10000) pkt.key = steps := by
      rw [numbered, position, ← Nat.mod_add_mod]
      exact distance_add bound (by omega)
    have notBehind : seqDiff (cursor % 0x10000) pkt.key ≤ 0 := by
      rw [numbered, position]
      exact seq_diff_ahead cursor (by omega)
    rw [if_neg (by omega), if_neg (by omega)]
    have near : distance 0x10000 (cursor % 0x10000) pkt.key ≤ 0x7FFF := by omega
    exact ⟨cursor, .inl rfl, store_leads ((placed.streak 0).insert now (by rw [reach, position]))
      ((streak_ordered ordered 0).insert pkt now near) later⟩
  · obtain ⟨behind, position⟩ := Nat.exists_eq_add_of_le (Nat.le_of_not_le ahead)
    have level : seqDiff (cursor % 0x10000) pkt.key = behind := by
      rw [numbered, position]
      exact seq_diff_behind _ (by omega)
    rw [level] at noResync ⊢
    split
    · next old =>
        rw [if_pos old] at noResync
        split
        · next sustained =>
            rw [if_pos sustained] at noResync
            exact absurd List.mem_cons_self (noResync pkt.key)
        · exact ⟨cursor, .inl rfl, leads_nil (placed.streak _)⟩
    · next notOld =>
        rw [if_pos (by omega)]
        by_cases started : jb.emittedAny = true
        · rw [if_pos started]
          exact ⟨cursor, .inl rfl, leads_nil (placed.streak 0)⟩
        · rw [if_neg started]
          have quiet : jb.emittedAny = false := by simpa using started
          obtain ⟨rfl, few⟩ := silent quiet
          have rewound := placed.rewind ordered quiet few now numbered position (by omega)
          have distant : distance 0x10000 pkt.key (cursor % 0x10000) = behind := by
            rw [numbered, position, ← Nat.mod_add_mod]
            exact distance_add (Nat.mod_lt _ (by decide)) (by omega)
          have again := ordered.rewind quiet few pkt now (add_distance keyBound bound).symm
            (by omega) (by omega)
          have leads := store_leads rewound (ordered_at rewound again) later
          rw [← numbered] at leads
          exact ⟨place pkt.payload, .inr quiet, leads⟩

end Calls

/-- A packet carries its place as its number. -/
def Action.Numbered (place : Payload → Nat) : Action Payload → Prop
  | .push pkt _ _ => pkt.key = place pkt.payload % 0x10000
  | .flush _ => True

instance (action : Action Payload) : Decidable (action.Numbered place) :=
  match action with
  | .push _ _ _ => inferInstanceAs (Decidable (_ = _))
  | .flush _ => inferInstanceAs (Decidable True)

structure Playback (Payload : Type) where
  jb : JitterBuffer Payload
  played : List Payload

/-- Less than a quarter of the cycle apart. -/
def Close (one other : Nat) : Prop := one < other + 0x4000 ∧ other < one + 0x4000

namespace Playback

def step (self : Playback Payload) (action : Action Payload) :
    Playback Payload × List (Event Payload) :=
  let stepped := Receive.step self.jb action
  (⟨stepped.1, self.played ++ payloads stepped.2⟩, stepped.2)

/-- A packet arrives close to those that are stored and to the last one played. -/
def Timely (place : Payload → Nat) (self : Playback Payload) : Action Payload → Prop
  | .push pkt _ _ =>
      (∀ entry ∈ self.jb.buffer.entries, Close (place entry.2.pkt.payload) (place pkt.payload)) ∧
        ∀ last ∈ self.played.getLast?, Close (place last) (place pkt.payload)
  | .flush _ => True

instance (self : Playback Payload) (action : Action Payload) :
    Decidable (self.Timely place action) :=
  match action with
  | .push _ _ _ => inferInstanceAs (Decidable ((∀ _ ∈ _, _ ∧ _) ∧ ∀ _ ∈ _, _ ∧ _))
  | .flush _ => inferInstanceAs (Decidable True)

/-- What holds between the calls of a run. -/
inductive Follows (place : Payload → Nat) (self : Playback Payload)
    (events : List (Event Payload)) : Prop
  | fresh (started : self.jb.nextSeq = none) (unplayed : self.played = []) (silent : events = [])
  | playing (first : Nat)
      (placed : Placed place self.jb self.played (first + (positions events).length))
      (in_place : InPlace place first events)

variable {self : Playback Payload} {events : List (Event Payload)}

theorem Follows.extend {first start : Nat} (in_place : InPlace place first events)
    (goesOn : start = first + (positions events).length ∨ events = [])
    {after : JitterBuffer Payload} {new : List (Event Payload)}
    (leads : Leads place self.played start after new) :
    Follows place ⟨after, self.played ++ payloads new⟩ (events ++ new) := by
  cases goesOn with
  | inl here =>
      subst here
      refine .playing first ?_ ((in_place_append first events new).mpr ⟨in_place, leads.in_place⟩)
      rw [positions, List.flatMap_append, List.length_append, ← Nat.add_assoc]
      exact leads.placed
  | inr silent =>
      subst silent
      exact .playing start leads.placed leads.in_place

theorem first_placed {jb : JitterBuffer Payload} (empty : jb.buffer = ∅) {pkt : Packet Payload}
    (numbered : pkt.key = place pkt.payload % 0x10000) (now : Rat) :
    Placed place ({ jb with nextSeq := some pkt.key, oldStreak := 0 }.insert pkt.key pkt now) []
      (place pkt.payload) where
  started := by
    rw [← numbered]
    rfl
  entries key entry found := by
    have bound : pkt.key < 0x10000 := Nat.mod_lt _ (by decide)
    by_cases same : key = pkt.key
    · rw [same, JitterBuffer.insert, AList.lookup_insert] at found
      cases found
      rw [same, ← numbered, distance_self bound, Nat.add_zero]
    · rw [JitterBuffer.insert, AList.lookup_insert_ne same, empty, AList.lookup_empty] at found
      cases found
  anchored := by
    right
    rw [← numbered]
    exact (AList.mem_insert _).mpr (.inl rfl)

theorem Timely.near {pkt : Packet Payload} {now later : Rat}
    (timely : self.Timely place (.push pkt now later)) {cursor : Nat}
    (placed : Placed place self.jb self.played cursor) :
    cursor ≤ place pkt.payload + 0x7FFF ∧ place pkt.payload ≤ cursor + 0x7FFF := by
  obtain ⟨stored, played⟩ := timely
  cases placed.anchored with
  | inl behind =>
      obtain ⟨last, member, rfl⟩ := behind
      have close := played last member
      rw [Close] at close
      omega
  | inr onCursor =>
      obtain ⟨entry, found⟩ := Option.isSome_iff_exists.mp (AList.lookup_isSome.mpr onCursor)
      have close : Close (place entry.pkt.payload) (place pkt.payload) :=
        stored _ (AList.mem_lookup_iff.mp found)
      have here := placed.entries _ entry found
      rw [distance_self (Nat.mod_lt _ (by decide))] at here
      rw [Close] at close
      omega

theorem Follows.push (follows : self.Follows place events) (playing : Playing self.jb events)
    (small : self.jb.maxSize ≤ 256) (log : self.played = payloads events) {pkt : Packet Payload}
    (numbered : pkt.key = place pkt.payload % 0x10000) {now later : Rat}
    (timely : self.Timely place (.push pkt now later))
    (noResync : ∀ seq, Event.resync seq ∉ (self.jb.push pkt now later).2) :
    Follows place (self.step (.push pkt now later)).1
      (events ++ (self.jb.push pkt now later).2) := by
  cases follows with
  | fresh started unplayed silent =>
      cases playing with
      | fresh _ empty count quiet _ =>
          have placed := first_placed empty numbered now
          have ordered := ordered_at placed (first_ordered pkt empty count now)
          have leads := store_leads placed ordered later
          have pushed : self.jb.push pkt now later =
              { self.jb with nextSeq := some pkt.key, oldStreak := 0 }.store pkt.key pkt.key pkt now
                later := by
            simp only [JitterBuffer.push, started, Option.getD_none,
              seq_diff_self (show pkt.key < 0x10000 from Nat.mod_lt _ (by decide))]
            rw [if_neg (by decide), if_neg (by decide)]
          rw [← numbered, ← pushed, ← unplayed] at leads
          subst silent
          exact Follows.extend (show InPlace place 0 [] from trivial) (.inr rfl) leads
      | ordered next ordered _ _ _ => cases started.symm.trans ordered.started
  | playing first placed in_place =>
      cases playing with
      | fresh started _ _ _ _ => cases started.symm.trans placed.started
      | ordered next ordered silent _ _ =>
          obtain ⟨late, early⟩ := timely.near placed
          have idle (quiet : self.jb.emittedAny = false) :
              self.played = [] ∧ self.jb.count ≤ 256 := by
            obtain ⟨none, few⟩ := silent quiet
            exact ⟨log.trans (none ▸ rfl), Nat.le_trans few small⟩
          obtain ⟨start, goesOn, leads⟩ := push_leads placed (ordered_at placed ordered) idle
            numbered late early now later noResync
          exact Follows.extend in_place (goesOn.imp_right fun quiet => (silent quiet).1) leads

theorem Follows.flush (follows : self.Follows place events) (playing : Playing self.jb events)
    (now : Rat) : Follows place (self.step (.flush now)).1 (events ++ (self.jb.flush now).2) := by
  cases follows with
  | fresh started unplayed silent =>
      have nothing := flush_not_started started now
      simp only [step, Receive.step, nothing, silent]
      exact .fresh started (by rw [unplayed]; rfl) rfl
  | playing first placed in_place =>
      cases playing with
      | fresh started _ _ _ _ => cases started.symm.trans placed.started
      | ordered next ordered _ _ _ =>
          exact Follows.extend in_place (.inl rfl)
            (flush_loop_leads placed (ordered_at placed ordered) now _ 0)

structure Running (place : Payload → Nat) (playback : Playback Payload)
    (events : List (Event Payload)) : Prop where
  follows : Follows place playback events
  playing : Playing playback.jb events
  small : playback.jb.maxSize ≤ 256
  log : playback.played = payloads events

namespace Running

theorem step (running : Running place self events) {action : Action Payload}
    (numbered : action.Numbered place) (timely : self.Timely place action)
    (noResync : ∀ seq, Event.resync seq ∉ (self.step action).2) :
    Running place (self.step action).1 (events ++ (self.step action).2) := by
  obtain ⟨follows, playing, small, log⟩ := running
  obtain ⟨stepped, same⟩ := step_playing playing small action noResync
  refine ⟨?_, stepped, same.trans_le small, ?_⟩
  · cases action with
    | push pkt now later => exact follows.push playing small log numbered timely noResync
    | flush now => exact follows.flush playing now
  · rw [payloads, List.flatMap_append]
    exact congrArg (· ++ _) log

theorem run (running : Running place self events) {actions : List (Action Payload)}
    (numbered : ∀ action ∈ actions, action.Numbered place)
    (timely : Always Playback.step (Timely place) self actions)
    (noResync : ∀ seq, Event.resync seq ∉ (Run.run Playback.step self actions).2) :
    Running place (Run.run Playback.step self actions).1
      (events ++ (Run.run Playback.step self actions).2) := by
  induction actions generalizing self events with
  | nil =>
      rw [Run.run, List.append_nil]
      exact running
  | cons action rest ih =>
      obtain ⟨now, further⟩ := timely
      obtain ⟨own, others⟩ := List.forall_mem_cons.mp numbered
      simp only [Run.run, List.mem_append, not_or] at noResync ⊢
      rw [← List.append_assoc]
      exact ih (running.step own now fun seq => (noResync seq).1) others further fun seq =>
        (noResync seq).2

end Running

def new (opts : Options) : Playback Payload := ⟨initJitterBuffer opts, []⟩

theorem new_running {opts : Options}
    (small : (initJitterBuffer opts : JitterBuffer Payload).maxSize ≤ 256) :
    Running place (.new opts : Playback Payload) [] :=
  ⟨.fresh rfl rfl rfl, .fresh rfl rfl rfl rfl rfl, small, rfl⟩

theorem place_of_event {cursor : Nat} {before after : List (Event Payload)}
    {pkt : Packet Payload} (in_place : InPlace place cursor (before ++ .packet pkt :: after)) :
    place pkt.payload = cursor + (positions before).length := by
  obtain ⟨-, here, -⟩ := (in_place_append cursor before _).mp in_place
  exact here _ (List.mem_singleton_self _)

theorem payload_cases (event : Event Payload) :
    event.payload = [] ∨ ∃ pkt, event = .packet pkt := by
  cases event with
  | packet pkt => exact .inr ⟨pkt, rfl⟩
  | loss seq => exact .inl rfl
  | gap start stop length => exact .inl rfl
  | resync seq => exact .inl rfl

theorem played_ascending {cursor : Nat} {events : List (Event Payload)}
    (in_place : InPlace place cursor events) :
    (∀ payload ∈ payloads events, cursor ≤ place payload) ∧
      ((payloads events).map place).Pairwise (· < ·) := by
  induction events generalizing cursor with
  | nil => exact ⟨fun _ none => absurd none List.not_mem_nil, .nil⟩
  | cons event rest ih =>
      obtain ⟨here, later⟩ := in_place
      obtain ⟨beyond, ascending⟩ := ih later
      rw [payloads, List.flatMap_cons, ← payloads]
      cases payload_cases event with
      | inl silent =>
          rw [silent, List.nil_append]
          exact ⟨fun payload member => Nat.le_of_add_right_le (beyond payload member), ascending⟩
      | inr sounds =>
          obtain ⟨pkt, rfl⟩ := sounds
          have own : place pkt.payload = cursor := here _ (List.mem_singleton_self _)
          constructor
          · intro payload member
            cases List.mem_cons.mp member with
            | inl first => rw [first, own]
            | inr behind => exact Nat.le_of_add_right_le (beyond payload behind)
          · apply List.pairwise_cons.mpr
            refine ⟨?_, ascending⟩
            intro other otherMember
            obtain ⟨payload, member, rfl⟩ := List.mem_map.mp otherMember
            rw [own]
            exact beyond payload member

/-- Where nothing is lost, packets are played one after another. -/
theorem played_contiguous {cursor : Nat} {events : List (Event Payload)}
    (in_place : InPlace place cursor events)
    (whole : ∀ event ∈ events, ∃ pkt, event = .packet pkt) :
    (payloads events).map place = List.range' cursor (payloads events).length := by
  induction events generalizing cursor with
  | nil => rfl
  | cons event rest ih =>
      obtain ⟨here, later⟩ := in_place
      obtain ⟨pkt, rfl⟩ := whole event List.mem_cons_self
      have others := ih later fun other member => whole other (List.mem_cons_of_mem _ member)
      rw [payloads, List.flatMap_cons, ← payloads]
      change place pkt.payload :: (payloads rest).map place =
        List.range' cursor ((payloads rest).length + 1)
      rw [here _ (List.mem_singleton_self _), others, List.range'_succ]
      rfl

end Playback

section Runs

variable {opts : Options} {actions : List (Action Payload)}

theorem run_in_place (small : (initJitterBuffer opts : JitterBuffer Payload).maxSize ≤ 256)
    (numbered : ∀ action ∈ actions, action.Numbered place)
    (timely : Always Playback.step (Playback.Timely place) (.new opts) actions)
    (noResync : ∀ seq, Event.resync seq ∉ (run Playback.step (.new opts) actions).2) :
    (∃ first, InPlace place first (run Playback.step (.new opts) actions).2) ∧
      (run Playback.step (.new opts) actions).1.played =
        payloads (run Playback.step (.new opts) actions).2 := by
  have running := (Playback.new_running small).run numbered timely noResync
  rw [List.nil_append] at running
  refine ⟨?_, running.log⟩
  cases running.follows with
  | fresh _ _ silent =>
      rw [silent]
      exact ⟨0, trivial⟩
  | playing first _ in_place => exact ⟨first, in_place⟩

/-- Every packet that is played is in its place, counted by the numbers that the events
before it stand for, and the packets are played in the order of their places. -/
theorem playback_in_place (small : (initJitterBuffer opts : JitterBuffer Payload).maxSize ≤ 256)
    (numbered : ∀ action ∈ actions, action.Numbered place)
    (timely : Always Playback.step (Playback.Timely place) (.new opts) actions)
    (noResync : ∀ seq, Event.resync seq ∉ (run Playback.step (.new opts) actions).2) :
    (∃ first, ∀ before pkt after,
      (run Playback.step (.new opts) actions).2 = before ++ .packet pkt :: after →
        place pkt.payload = first + (positions before).length) ∧
    ((run Playback.step (.new opts) actions).1.played.map place).Pairwise (· < ·) ∧
    ((∀ event ∈ (run Playback.step (.new opts) actions).2, ∃ pkt, event = .packet pkt) →
      ∃ first, (run Playback.step (.new opts) actions).1.played.map place =
        List.range' first (run Playback.step (.new opts) actions).1.played.length) := by
  obtain ⟨⟨first, in_place⟩, log⟩ := run_in_place small numbered timely noResync
  rw [log]
  refine ⟨⟨first, ?_⟩, (Playback.played_ascending in_place).2, ?_⟩
  · intro before pkt after same
    rw [same] at in_place
    exact Playback.place_of_event in_place
  · intro whole
    exact ⟨first, Playback.played_contiguous in_place whole⟩

def aroundWrap : List (Action Nat) :=
  [.push ⟨65535, 65535⟩ 0 0, .flush 60, .push ⟨1, 65537⟩ 70 70, .push ⟨2, 65538⟩ 75 75,
    .push ⟨1, 65537⟩ 80 80, .flush 200]

theorem playback_around_wrap :
    (run Playback.step (.new ⟨none, none, none, none⟩) aroundWrap).1.played =
        [65535, 65537, 65538] ∧
      ∃ first, ∀ before pkt after,
        (run Playback.step (.new ⟨none, none, none, none⟩) aroundWrap).2 =
          before ++ .packet pkt :: after → pkt.payload = first + (positions before).length := by
  have events : (run Playback.step (.new ⟨none, none, none, none⟩) aroundWrap).2 =
      [.packet ⟨65535, 65535⟩, .loss 0, .packet ⟨1, 65537⟩, .packet ⟨2, 65538⟩] := by
    decide +kernel
  refine ⟨by decide +kernel, ?_⟩
  refine (@playback_in_place _ id ⟨none, none, none, none⟩ aroundWrap (by decide)
    (by decide) (by decide +kernel) ?_).1
  intro seq
  rw [events]
  simp

end Runs

end RtpPacket.Receive
