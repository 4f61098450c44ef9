import RtpPacket.Receive.JitterBuffer

/-!
# Playout order

Every sequence number the buffer passes is accounted for once: by the packet that
is output for it, by a loss report, or by the tail of a gap event. What carries this
is the order of the stored numbers ahead of the cursor: the closest one is never
half the cycle away, although packets that came before the first output may have
moved the cursor back by up to 128 at a time.
-/

namespace RtpPacket.Receive

open SerialNumber JitterBuffer

set_option autoImplicit false

variable {Payload : Type}

/-- The numbers an event stands for; a gap stands for those no loss was reported for. -/
def Event.positions : Event Payload → List Nat
  | .packet pkt => [pkt.key]
  | .loss seq => [seq]
  | .gap start _ length =>
      successive 0x10000 (start + maxLossEventsPerGap) (length - maxLossEventsPerGap)
  | .resync _ => []

def positions (events : List (Event Payload)) : List Nat := events.flatMap Event.positions

/-- The events cover the numbers from `next` up to `after`, each once and in order. -/
def Accounts (next : Nat) (events : List (Event Payload)) (after : Nat) : Prop :=
  ∃ count, positions events = successive 0x10000 next count ∧ after = (next + count) % 0x10000

theorem accounts_nil {next : Nat} (bound : next < 0x10000) :
    Accounts next ([] : List (Event Payload)) next :=
  ⟨0, rfl, (Nat.mod_eq_of_lt bound).symm⟩

theorem accounts_append {next middle after : Nat} {first second : List (Event Payload)}
    (left : Accounts next first middle) (right : Accounts middle second after) :
    Accounts next (first ++ second) after := by
  obtain ⟨firstCount, firstPositions, rfl⟩ := left
  obtain ⟨secondCount, secondPositions, rfl⟩ := right
  refine ⟨firstCount + secondCount, ?_, ?_⟩
  · rw [positions, List.flatMap_append, ← positions, ← positions, firstPositions,
      secondPositions, successive_add]
  · rw [Nat.mod_add_mod, Nat.add_assoc]

theorem positions_losses (numbers : List Nat) :
    positions (numbers.map (Event.loss : Nat → Event Payload)) = numbers := by
  induction numbers with
  | nil => rfl
  | cons number rest ih => simpa [positions, Event.positions] using ih

/-- The reports of a gap that is not half the cycle long cover all of it. -/
theorem gap_events_account {next gapEnd : Nat} (nextBound : next < 0x10000)
    (endBound : gapEnd < 0x10000) (short : distance 0x10000 next gapEnd ≤ 0x8000) :
    Accounts next (gapEvents next gapEnd : List (Event Payload)) gapEnd := by
  refine ⟨distance 0x10000 next gapEnd, ?_, (add_distance nextBound endBound).symm⟩
  rw [gapEvents, seq_diff_of_le short]
  rw [if_neg (by omega), Int.toNat_natCast, positions, List.flatMap_append, ← positions,
    positions_losses]
  by_cases long : distance 0x10000 next gapEnd > maxLossEventsPerGap
  · rw [Nat.min_eq_right (Nat.le_of_lt long), if_pos long]
    rw [← Nat.add_sub_cancel' (Nat.le_of_lt long), successive_add]
    simp [Event.positions, successive, Nat.mod_add_mod]
  · rw [Nat.min_eq_left (by omega), if_neg (by omega)]
    simp

/-- Every stored number is within reach of the cursor, or of a closer stored number. -/
structure Ordered (jb : JitterBuffer Payload) (next : Nat) : Prop extends jb.WellFormed where
  started : jb.nextSeq = some next
  chained : ∀ key ∈ jb.buffer, distance 0x10000 next key ≤ 0x7FFF ∨
    ∃ other ∈ jb.buffer, distance 0x10000 next other < distance 0x10000 next key ∧
      distance 0x10000 next key ≤ distance 0x10000 next other + 0x7FFF
  /-- Before the first output the cursor is on the first packet, and each stored one may
  have moved it back by 128. -/
  unplayed : jb.emittedAny = false → next ∈ jb.buffer ∧
    ∀ key ∈ jb.buffer, distance 0x10000 next key ≤ 0x7FFF + 128 * (jb.count - 1)

namespace Ordered

variable {jb : JitterBuffer Payload} {next : Nat}

theorem next_bound (ordered : Ordered jb next) : next < 0x10000 :=
  ordered.next_lt next ordered.started

theorem earliest_near (ordered : Ordered jb next) {earliest : Nat}
    (first : jb.Earliest next earliest) : distance 0x10000 next earliest ≤ 0x7FFF := by
  rcases ordered.chained earliest first.1 with near | ⟨other, stored, closer, -⟩
  · exact near
  · exact absurd (first.2 other stored) (Nat.not_le.mpr closer)

theorem skip (ordered : Ordered jb next) {gapEnd : Nat} (first : jb.Earliest next gapEnd) :
    Ordered (jb.declareGapAndSkip next gapEnd).1 gapEnd := by
  have nextBound := ordered.next_bound
  have endBound := ordered.key_lt gapEnd first.1
  have shifted (key : Nat) (stored : key ∈ jb.buffer) :
      distance 0x10000 gapEnd key =
        distance 0x10000 next key - distance 0x10000 next gapEnd := by
    have moved := distance_advance nextBound (ordered.key_lt key stored) (first.2 key stored)
    rwa [add_distance nextBound endBound] at moved
  refine { skip_well_formed ordered.toWellFormed first.1 with
    started := rfl, chained := ?_, unplayed := ?_ }
  · intro key stored
    have behind := first.2 key stored
    rcases ordered.chained key stored with near | ⟨other, otherStored, closer, reach⟩
    · refine .inl ?_
      rw [shifted key stored]
      omega
    · have otherBehind := first.2 other otherStored
      refine .inr ⟨other, otherStored, ?_⟩
      rw [shifted key stored, shifted other otherStored]
      omega
  · intro quiet
    obtain ⟨onHead, span⟩ := ordered.unplayed quiet
    have atHead := first.2 next onHead
    rw [distance_self nextBound] at atHead
    have same := eq_of_distance_zero nextBound endBound (Nat.le_zero.mp atHead)
    subst same
    exact ⟨onHead, span⟩

theorem emit (ordered : Ordered jb next) (stored : next ∈ jb.buffer) :
    Ordered (jb.emit next) ((next + 1) % 0x10000) := by
  have nextBound := ordered.next_bound
  have shifted (key : Nat) (kept : key ∈ (jb.emit next).buffer) :
      1 ≤ distance 0x10000 next key ∧
        distance 0x10000 ((next + 1) % 0x10000) key = distance 0x10000 next key - 1 := by
    obtain ⟨different, old⟩ := AList.mem_erase.mp kept
    have keyBound := ordered.key_lt key old
    have positive : 1 ≤ distance 0x10000 next key := Nat.pos_of_ne_zero fun zero =>
      different (eq_of_distance_zero nextBound keyBound zero)
    exact ⟨positive, distance_advance nextBound keyBound positive⟩
  refine { emit_well_formed ordered.toWellFormed stored with
    started := rfl, chained := ?_, unplayed := nofun }
  intro key kept
  obtain ⟨ahead, keyShift⟩ := shifted key kept
  rcases ordered.chained key (AList.mem_erase.mp kept).2 with near |
    ⟨other, otherStored, closer, reach⟩
  · refine .inl ?_
    omega
  · by_cases same : other = next
    · rw [same, distance_self nextBound] at reach
      refine .inl ?_
      omega
    · have otherKept : other ∈ (jb.emit next).buffer := AList.mem_erase.mpr ⟨same, otherStored⟩
      obtain ⟨otherAhead, otherShift⟩ := shifted other otherKept
      exact .inr ⟨other, otherKept, by omega, by omega⟩

theorem insert (ordered : Ordered jb next) (pkt : Packet Payload) (now : Rat)
    (ahead : distance 0x10000 next pkt.key ≤ 0x7FFF) :
    Ordered (jb.insert pkt.key pkt now) next := by
  have grown (key : Nat) (old : key ∈ jb.buffer) : key ∈ (jb.insert pkt.key pkt now).buffer :=
    (AList.mem_insert _).mpr (.inr old)
  refine { insert_well_formed ordered.toWellFormed pkt now with
    started := ordered.started, chained := ?_, unplayed := ?_ }
  · intro key stored
    rcases (AList.mem_insert _).mp stored with rfl | old
    · exact .inl ahead
    · exact (ordered.chained key old).imp_right
        (Exists.imp fun other => And.imp_left (grown other))
  · intro quiet
    obtain ⟨onHead, span⟩ := ordered.unplayed quiet
    have counted : jb.count ≤ (jb.insert pkt.key pkt now).count := by
      simp only [JitterBuffer.insert]
      split <;> omega
    refine ⟨grown next onHead, fun key stored => ?_⟩
    rcases (AList.mem_insert _).mp stored with rfl | old
    · omega
    · have before := span key old
      omega

/-- A packet just behind the cursor, before the first output. The bound on the number of
entries keeps the span short of the whole cycle, so the packet is a new one. -/
theorem rewind (ordered : Ordered jb next) (quiet : jb.emittedAny = false)
    (entries : jb.count ≤ 256) (pkt : Packet Payload) (now : Rat) {behind : Nat}
    (position : next = (pkt.key + behind) % 0x10000) (positive : 1 ≤ behind)
    (most : behind ≤ 128) :
    Ordered ({ jb with nextSeq := some pkt.key, oldStreak := 0 }.insert pkt.key pkt now)
      pkt.key := by
  have nextBound := ordered.next_bound
  have seqBound : pkt.key < 0x10000 := Nat.mod_lt _ (by decide)
  obtain ⟨onHead, span⟩ := ordered.unplayed quiet
  have count := ordered.count_eq
  have counted : 1 ≤ jb.count := by
    rw [count]
    exact List.length_pos_of_mem (AList.mem_keys.mp onHead)
  have shifted (key : Nat) (old : key ∈ jb.buffer) :
      distance 0x10000 pkt.key key = distance 0x10000 next key + behind := by
    have near := span key old
    rw [position] at near ⊢
    exact distance_retreat seqBound (ordered.key_lt key old) (by omega)
  have fresh : pkt.key ∉ jb.buffer := by
    intro old
    have self := shifted pkt.key old
    rw [distance_self seqBound] at self
    omega
  have headShift := shifted next onHead
  rw [distance_self nextBound] at headShift
  have moved : ({ jb with nextSeq := some pkt.key, oldStreak := 0 }).WellFormed :=
    { ordered.toWellFormed with
      next_lt := by
        rintro other ⟨⟩
        exact seqBound }
  refine { insert_well_formed moved pkt now with
    started := rfl, chained := ?_, unplayed := ?_ }
  · intro key stored
    rcases (AList.mem_insert _).mp stored with rfl | old
    · refine .inl ?_
      rw [distance_self seqBound]
      omega
    · have keyShift := shifted key old
      have kept (other : Nat) (otherOld : other ∈ jb.buffer) :
          other ∈ ({ jb with nextSeq := some pkt.key, oldStreak := 0 }.insert
            pkt.key pkt now).buffer := (AList.mem_insert _).mpr (.inr otherOld)
      by_cases same : key = next
      · refine .inl ?_
        rw [same, headShift]
        omega
      · have away : distance 0x10000 next key ≠ 0 := fun zero =>
          same (eq_of_distance_zero nextBound (ordered.key_lt key old) zero)
        rcases ordered.chained key old with near | ⟨other, otherOld, closer, reach⟩
        · exact .inr ⟨next, kept next onHead, by omega, by omega⟩
        · have otherShift := shifted other otherOld
          exact .inr ⟨other, kept other otherOld, by omega, by omega⟩
  · intro _
    refine ⟨(AList.mem_insert _).mpr (.inl rfl), fun key stored => ?_⟩
    have grown :
        ({ jb with nextSeq := some pkt.key, oldStreak := 0 }.insert pkt.key pkt now).count =
        jb.count + 1 := by
      simp [JitterBuffer.insert, AList.lookup_eq_none.mpr fresh]
    rw [grown]
    rcases (AList.mem_insert _).mp stored with rfl | old
    · rw [distance_self seqBound]
      omega
    · have near := span key old
      rw [shifted key old]
      omega

end Ordered

/-- What a turn of the flush loop does: it covers some numbers from the cursor on, and
from then on something has been output. -/
theorem turn_ordered {jb : JitterBuffer Payload} {next : Nat} (ordered : Ordered jb next)
    {now : Rat} {taken : Turn Payload} (turned : jb.turn now = some taken) :
    ∃ after, Ordered taken.state after ∧ Accounts next taken.events after ∧
      taken.state.emittedAny = true ∧ taken.state.maxSize = jb.maxSize := by
  have nextBound := ordered.next_bound
  cases turn_cases turned with
  | @emit head entry started stored =>
      cases started.symm.trans ordered.started
      have onHead : next ∈ jb.buffer := AList.lookup_isSome.mp (by rw [stored]; rfl)
      refine ⟨(next + 1) % 0x10000, ordered.emit onHead, ⟨1, ?_, rfl⟩, rfl, rfl⟩
      rw [successive_one, Nat.mod_eq_of_lt nextBound, positions, List.flatMap_singleton,
        Event.positions, ordered.stored_key next entry stored]
  | @skip head found started missing available waited =>
      cases started.symm.trans ordered.started
      have absent := AList.lookup_eq_none.mp missing
      have played : jb.emittedAny = true := by
        by_contra quiet
        exact absent (ordered.unplayed (by simpa using quiet)).1
      obtain ⟨-, none⟩ | ⟨key, entry, same, -, first⟩ :=
        find_next_available_spec nextBound ordered.toWellFormed absent
      · cases available.symm.trans none
      · cases available.symm.trans same
        exact ⟨key, ordered.skip first, gap_events_account nextBound
          (ordered.key_lt key first.1) (Nat.le_trans (ordered.earliest_near first) (by decide)),
          played, rfl⟩

theorem flush_loop_ordered {jb : JitterBuffer Payload} {next : Nat} (ordered : Ordered jb next)
    (now : Rat) (maxEmit emitted : Nat) :
    ∃ after, Ordered (jb.flushLoop now maxEmit emitted).1 after ∧
      Accounts next (jb.flushLoop now maxEmit emitted).2 after ∧
      (jb.flushLoop now maxEmit emitted).1.maxSize = jb.maxSize ∧
      (jb.emittedAny = true → (jb.flushLoop now maxEmit emitted).1.emittedAny = true) := by
  fun_induction flushLoop now maxEmit emitted jb generalizing next with
  | case1 emitted jb budget stopped =>
      exact ⟨next, ordered, accounts_nil ordered.next_bound, rfl, id⟩
  | case2 emitted jb budget taken turned later =>
      rename_i ih
      obtain ⟨middle, middleOrdered, covered, played, sameSize⟩ := turn_ordered ordered turned
      obtain ⟨after, afterOrdered, laterCovered, laterSize, kept⟩ := ih middleOrdered
      exact ⟨after, afterOrdered, accounts_append covered laterCovered,
        laterSize.trans sameSize, fun _ => kept played⟩
  | case3 emitted jb spent => exact ⟨next, ordered, accounts_nil ordered.next_bound, rfl, id⟩

theorem flush_ordered {jb : JitterBuffer Payload} {next : Nat} (ordered : Ordered jb next)
    (now : Rat) :
    ∃ after, Ordered (jb.flush now).1 after ∧ Accounts next (jb.flush now).2 after ∧
      (jb.flush now).1.maxSize = jb.maxSize ∧
      (next ∈ jb.buffer ∨ jb.emittedAny = true → (jb.flush now).1.emittedAny = true) := by
  obtain ⟨after, afterOrdered, covered, sameSize, kept⟩ :=
    flush_loop_ordered ordered now (max 64 jb.maxSize) 0
  refine ⟨after, afterOrdered, covered, sameSize, ?_⟩
  rintro (onHead | played)
  · obtain ⟨entry, stored⟩ := Option.isSome_iff_exists.mp (AList.lookup_isSome.mpr onHead)
    obtain ⟨-, -, -, -, keeps⟩ :=
      flush_loop_ordered (ordered.emit onHead) now (max 64 jb.maxSize) 1
    rw [flush_head ordered.started stored]
    exact keeps rfl
  · exact kept played

theorem force_advance_ordered {jb : JitterBuffer Payload} {next key : Nat}
    (ordered : Ordered jb next) (stored : key ∈ jb.buffer) (now : Rat) :
    ∃ after, Ordered (jb.forceAdvance next now).1 after ∧
      Accounts next (jb.forceAdvance next now).2 after ∧
      (jb.forceAdvance next now).1.maxSize = jb.maxSize ∧
      (jb.forceAdvance next now).1.emittedAny = true := by
  obtain ⟨earliest, found, first⟩ := find_earliest_spec stored next
  obtain ⟨after, afterOrdered, covered, sameSize, played⟩ := flush_ordered (ordered.skip first) now
  simp only [forceAdvance, found]
  refine ⟨after, afterOrdered, accounts_append ?_ covered, sameSize, played (.inl first.1)⟩
  exact gap_events_account ordered.next_bound (ordered.key_lt earliest first.1)
    (Nat.le_trans (ordered.earliest_near first) (by decide))

/-- What holds between the calls of a run, `outputs` being the events so far. -/
inductive Playing (jb : JitterBuffer Payload) (outputs : List (Event Payload)) : Prop where
  | fresh (started : jb.nextSeq = none) (empty : jb.buffer = ∅) (count : jb.count = 0)
      (quiet : jb.emittedAny = false) (silent : outputs = [])
  | ordered (next : Nat) (ordered : Ordered jb next)
      (silent : jb.emittedAny = false → outputs = [] ∧ jb.count ≤ jb.maxSize)
      (first : Nat) (accounts : Accounts first outputs next)

theorem store_playing {jb : JitterBuffer Payload} {pkt : Packet Payload} {now : Rat} {next : Nat}
    {outputs : List (Event Payload)} (ordered : Ordered (jb.insert pkt.key pkt now) next)
    (silent : jb.emittedAny = false → outputs = []) {first : Nat}
    (accounts : Accounts first outputs next) (later : Rat) :
    Playing (jb.store next pkt.key pkt now later).1
        (outputs ++ (jb.store next pkt.key pkt now later).2) ∧
      (jb.store next pkt.key pkt now later).1.maxSize = jb.maxSize := by
  have stored : pkt.key ∈ (jb.insert pkt.key pkt now).buffer :=
    (AList.mem_insert _).mpr (.inl rfl)
  rw [store]
  split
  · obtain ⟨after, afterOrdered, covered, sameSize, played⟩ :=
      force_advance_ordered ordered stored later
    exact ⟨.ordered after afterOrdered (fun quiet => by simp [played] at quiet) first
      (accounts_append accounts covered), sameSize⟩
  · next fits =>
      rw [List.append_nil]
      exact ⟨.ordered next ordered (fun quiet => ⟨silent quiet, Nat.not_lt.mp fits⟩) first accounts,
        rfl⟩

theorem first_ordered {jb : JitterBuffer Payload} (pkt : Packet Payload)
    (empty : jb.buffer = ∅) (count : jb.count = 0) (now : Rat) :
    Ordered ({ jb with nextSeq := some pkt.key, oldStreak := 0 }.insert pkt.key pkt now)
      pkt.key := by
  have seqBound : pkt.key < 0x10000 := Nat.mod_lt _ (by decide)
  have wellFormed : ({ jb with nextSeq := some pkt.key, oldStreak := 0 }).WellFormed := by
    refine ⟨?_, ?_, ?_, ?_⟩
    · simp [empty]
    · rintro next ⟨⟩
      exact seqBound
    · simp [empty, count]
    · simp [empty]
  have only (key : Nat) (stored : key ∈ ({ jb with nextSeq := some pkt.key, oldStreak := 0 }.insert
      pkt.key pkt now).buffer) : key = pkt.key := by
    rcases (AList.mem_insert _).mp stored with same | old
    · exact same
    · simp [empty] at old
  refine { insert_well_formed wellFormed pkt now with
    started := rfl, chained := ?_, unplayed := ?_ }
  · intro key stored
    rw [only key stored, distance_self seqBound]
    exact .inl (by decide)
  · intro _
    refine ⟨(AList.mem_insert _).mpr (.inl rfl), fun key stored => ?_⟩
    rw [only key stored, distance_self seqBound]
    omega

theorem streak_ordered {jb : JitterBuffer Payload} {next : Nat} (ordered : Ordered jb next)
    (streak : Nat) : Ordered { jb with nextSeq := some next, oldStreak := streak } next :=
  { ordered with
    started := rfl
    next_lt := by
      rintro other ⟨⟩
      exact ordered.next_bound }

theorem push_playing {jb : JitterBuffer Payload} {outputs : List (Event Payload)}
    (playing : Playing jb outputs) (small : jb.maxSize ≤ 256) (pkt : Packet Payload)
    (now later : Rat) (noResync : ∀ seq, Event.resync seq ∉ (jb.push pkt now later).2) :
    Playing (jb.push pkt now later).1 (outputs ++ (jb.push pkt now later).2) ∧
      (jb.push pkt now later).1.maxSize = jb.maxSize := by
  have seqBound : pkt.key < 0x10000 := Nat.mod_lt _ (by decide)
  cases playing with
  | fresh started empty count quiet silent =>
      simp only [push, started, Option.getD_none, seq_diff_self seqBound]
      rw [if_neg (by decide), if_neg (by decide)]
      exact store_playing (first_ordered pkt empty count now) (fun _ => silent)
        (silent ▸ accounts_nil seqBound) later
  | ordered next ordered silent first accounts =>
      have nextBound := ordered.next_bound
      have ahead := distance_cases nextBound seqBound
      have behind := distance_cases seqBound nextBound
      have level := seq_diff_cases next pkt.key
      simp only [push, ordered.started, Option.getD_some] at noResync ⊢
      split
      · next old =>
          rw [if_pos old] at noResync
          split
          · next sustained =>
              rw [if_pos sustained] at noResync
              exact absurd List.mem_cons_self (noResync pkt.key)
          · rw [List.append_nil]
            exact ⟨.ordered next (streak_ordered ordered _) silent first accounts, rfl⟩
      · split
        · next notOld late =>
            by_cases played : jb.emittedAny = true
            · rw [if_pos played, List.append_nil]
              exact ⟨.ordered next (streak_ordered ordered 0) silent first accounts, rfl⟩
            · rw [if_neg played]
              have quiet : jb.emittedAny = false := by simpa using played
              obtain ⟨nothing, fits⟩ := silent quiet
              have near : ¬distance 0x10000 pkt.key next > 0x8000 := by
                intro far
                rw [if_pos far] at level
                have bounded := distance_lt pkt.key next (show 0 < 0x10000 by decide)
                omega
              rw [if_neg near] at level
              have rewound := ordered.rewind quiet (Nat.le_trans fits small) pkt now
                (add_distance seqBound nextBound).symm (by omega) (by omega)
              exact store_playing rewound (fun _ => nothing) (nothing ▸ accounts_nil seqBound) later
        · next notLate =>
            have reach : distance 0x10000 next pkt.key ≤ 0x7FFF := by
              split at level <;> split at ahead <;> split at behind <;> omega
            exact store_playing ((streak_ordered ordered 0).insert pkt now reach)
              (fun quiet => (silent quiet).1) accounts later

theorem flush_playing {jb : JitterBuffer Payload} {outputs : List (Event Payload)}
    (playing : Playing jb outputs) (now : Rat) :
    Playing (jb.flush now).1 (outputs ++ (jb.flush now).2) ∧
      (jb.flush now).1.maxSize = jb.maxSize := by
  cases playing with
  | fresh started empty count quiet silent =>
      rw [flush_not_started started, List.append_nil]
      exact ⟨.fresh started empty count quiet silent, rfl⟩
  | ordered next ordered silent first accounts =>
      obtain ⟨after, afterOrdered, covered, sameSize, played⟩ := flush_ordered ordered now
      refine ⟨.ordered after afterOrdered (fun quiet => ?_) first
        (accounts_append accounts covered), sameSize⟩
      have before : ¬(next ∈ jb.buffer ∨ jb.emittedAny = true) := fun ready => by
        simp [played ready] at quiet
      have quietBefore : jb.emittedAny = false := by simpa using mt Or.inr before
      exact absurd (.inl (ordered.unplayed quietBefore).1) before

theorem step_playing {jb : JitterBuffer Payload} {outputs : List (Event Payload)}
    (playing : Playing jb outputs) (small : jb.maxSize ≤ 256) (action : Action Payload)
    (noResync : ∀ seq, Event.resync seq ∉ (step jb action).2) :
    Playing (step jb action).1 (outputs ++ (step jb action).2) ∧
      (step jb action).1.maxSize = jb.maxSize := by
  cases action with
  | push pkt now later => exact push_playing playing small pkt now later noResync
  | flush now => exact flush_playing playing now

theorem run_playing {jb : JitterBuffer Payload} {outputs : List (Event Payload)}
    (playing : Playing jb outputs) (small : jb.maxSize ≤ 256) (actions : List (Action Payload))
    (noResync : ∀ seq, Event.resync seq ∉ (Run.run step jb actions).2) :
    Playing (Run.run step jb actions).1 (outputs ++ (Run.run step jb actions).2) := by
  induction actions generalizing jb outputs with
  | nil => simpa [Run.run] using playing
  | cons action rest ih =>
      simp only [Run.run, List.mem_append, not_or] at noResync ⊢
      obtain ⟨stepped, sameSize⟩ := step_playing playing small action fun seq => (noResync seq).1
      have later := ih stepped (sameSize ▸ small) fun seq => (noResync seq).2
      rwa [List.append_assoc] at later

/-- In a run without a resync every number after the first one output or reported is
the successor of the one before it. No order of the clock readings is needed. -/
theorem playout_consecutive (opts : Options)
    (small : (initJitterBuffer opts : JitterBuffer Payload).maxSize ≤ 256)
    (actions : List (Action Payload))
    (noResync : ∀ seq, Event.resync seq ∉ (Run.run step (initJitterBuffer opts) actions).2) :
    (positions (Run.run step (initJitterBuffer opts) actions).2).IsChain
      (fun before after => after = (before + 1) % 0x10000) := by
  have start : Playing (initJitterBuffer opts : JitterBuffer Payload) [] :=
    .fresh rfl rfl rfl rfl rfl
  have played := run_playing start small actions noResync
  rw [List.nil_append] at played
  cases played with
  | fresh _ _ _ _ silent => simp [silent, positions]
  | ordered _ _ _ first accounts =>
      obtain ⟨count, covered, -⟩ := accounts
      rw [covered]
      exact successive_chain first count

theorem playout_consecutive_across_loss :
    (Run.run step (initJitterBuffer ⟨none, none, none, none⟩)
        [.push ⟨1, ()⟩ 0 0, .push ⟨65535, ()⟩ 10 10, .flush 80]).2 =
      [.packet ⟨65535, ()⟩, .loss 0, .packet ⟨1, ()⟩] ∧
    (positions (Run.run step (initJitterBuffer ⟨none, none, none, none⟩)
        [.push ⟨1, ()⟩ 0 0, .push ⟨65535, ()⟩ 10 10, .flush 80]).2).IsChain
      (fun before after => after = (before + 1) % 0x10000) := by
  have events : (Run.run step (initJitterBuffer ⟨none, none, none, none⟩)
      [.push ⟨1, ()⟩ 0 0, .push ⟨65535, ()⟩ 10 10, .flush 80]).2 =
      [.packet ⟨65535, ()⟩, .loss 0, .packet ⟨1, ()⟩] := by decide +kernel
  refine ⟨events, playout_consecutive _ (by decide) _ fun seq => ?_⟩
  rw [events]
  simp

end RtpPacket.Receive
