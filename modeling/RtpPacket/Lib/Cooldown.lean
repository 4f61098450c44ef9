import RtpPacket.Lib.Run

/-!
# Cooling down

A log tells which key was granted when. A key is ready when its last grant lies a window
back, so that in any number of windows it is granted at most that often. A table need only
know the grants of the last window: whatever older ones it forgets, it answers as the log
does.
-/

namespace Cooldown

set_option autoImplicit false

section Log

variable {Key Time : Type*} [DecidableEq Key]

def times (log : List (Key × Time)) (key : Key) : List Time :=
  (log.filter (·.1 = key)).map Prod.snd

def lastGrant (log : List (Key × Time)) (key : Key) : Option Time := (times log key).getLast?

theorem times_append_self (log : List (Key × Time)) (key : Key) (now : Time) :
    times (log ++ [(key, now)]) key = times log key ++ [now] := by
  have here : [(key, now)].filter (fun grant : Key × Time => decide (grant.1 = key)) =
      [(key, now)] := List.filter_cons_of_pos (decide_eq_true rfl)
  rw [times, List.filter_append, here, List.map_append]
  rfl

theorem times_append_other (log : List (Key × Time)) {key other : Key} (apart : key ≠ other)
    (now : Time) : times (log ++ [(key, now)]) other = times log other := by
  rw [times, List.filter_append, List.filter_cons_of_neg (by simpa using apart),
    List.filter_nil, List.append_nil, times]

end Log

variable {Key Time : Type*} [DecidableEq Key] [AddCommGroup Time] [LinearOrder Time]

def Ready (window : Time) (log : List (Key × Time)) (key : Key) (now : Time) : Prop :=
  ∀ last ∈ lastGrant log key, window ≤ now - last

instance (window : Time) (log : List (Key × Time)) (key : Key) (now : Time) :
    Decidable (Ready window log key now) :=
  inferInstanceAs (Decidable (∀ last ∈ lastGrant log key, _))

inductive Event (Key Time : Type*) where
  | request (key : Key) (now : Time)
  | clear

/-- A request is answered, and a clear is not. -/
def step (window : Time) (log : List (Key × Time)) :
    Event Key Time → List (Key × Time) × List Bool
  | .request key now =>
      if Ready window log key now then (log ++ [(key, now)], [true]) else (log, [false])
  | .clear => ([], [])

def requests (events : List (Event Key Time)) : List (Key × Time) :=
  events.filterMap fun
    | .request key now => some (key, now)
    | .clear => none

def granted (events : List (Event Key Time)) (answers : List Bool) : List (Key × Time) :=
  ((requests events).zip answers).filterMap fun answered =>
    if answered.2 then some answered.1 else none

/-- Without a clear the log ends with what the run granted. -/
theorem run_log {window : Time} {events : List (Event Key Time)}
    (kept : ∀ event ∈ events, event ≠ .clear) (log : List (Key × Time)) :
    (Run.run (step window) log events).1 =
      log ++ granted events (Run.run (step window) log events).2 := by
  induction events generalizing log with
  | nil => exact (List.append_nil log).symm
  | cons event rest ih =>
      have later := ih fun other member => kept other (List.mem_cons_of_mem _ member)
      cases event with
      | clear => exact absurd rfl (kept .clear List.mem_cons_self)
      | request key now =>
          rw [Run.run, step]
          split_ifs with ready
          · exact (later _).trans (List.append_assoc _ _ _)
          · exact later log

section Spacing

def Spaced (window : Time) (log : List (Key × Time)) : Prop :=
  ∀ key, (times log key).IsChain fun earlier later => window ≤ later - earlier

theorem spaced_nil (window : Time) : Spaced window ([] : List (Key × Time)) := fun _ => .nil

theorem Spaced.grant {window : Time} {log : List (Key × Time)} (spaced : Spaced window log)
    {key : Key} {now : Time} (ready : Ready window log key now) :
    Spaced window (log ++ [(key, now)]) := by
  intro other
  by_cases same : key = other
  · subst same
    rw [times_append_self]
    apply (spaced key).append (List.isChain_singleton _)
    intro last isLast next isNext
    rw [← Option.some.inj isNext]
    exact ready last isLast
  · rw [times_append_other log same]
    exact spaced other

theorem Spaced.step {window : Time} {log : List (Key × Time)} (spaced : Spaced window log)
    (event : Event Key Time) : Spaced window (step window log event).1 := by
  cases event with
  | request key now =>
      rw [Cooldown.step]
      split_ifs with ready
      · exact spaced.grant ready
      · exact spaced
  | clear => exact spaced_nil window

theorem run_spaced {window : Time} {log : List (Key × Time)} (spaced : Spaced window log)
    (events : List (Event Key Time)) : Spaced window (Run.run (step window) log events).1 := by
  induction events generalizing log with
  | nil => exact spaced
  | cons event rest ih => exact ih (spaced.step event)

variable [IsOrderedAddMonoid Time]

theorem chain_span {window : Time} {first : Time} {rest : List Time}
    (spaced : (first :: rest).IsChain fun earlier later => window ≤ later - earlier) :
    ∀ last ∈ (first :: rest).getLast?, rest.length • window ≤ last - first := by
  induction rest generalizing first with
  | nil =>
      intro last isLast
      rw [List.getLast?_singleton] at isLast
      rw [← Option.some.inj isLast, sub_self, List.length_nil, zero_smul]
  | cons next rest ih =>
      intro last isLast
      rw [List.getLast?_cons_cons] at isLast
      rw [List.isChain_cons_cons] at spaced
      have later := ih spaced.2 last isLast
      calc (next :: rest).length • window = rest.length • window + window := by
            rw [List.length_cons, succ_nsmul]
        _ ≤ (last - next) + (next - first) := add_le_add later spaced.1
        _ = last - first := sub_add_sub_cancel last next first

/-- In any number of windows a key is granted at most that often. -/
theorem Spaced.rate {window : Time} (positive : 0 < window) {log : List (Key × Time)}
    (spaced : Spaced window log) (key : Key) (start : Time) (count : Nat) :
    ((times log key).filter fun time =>
      decide (start ≤ time ∧ time < start + count • window)).length ≤ count := by
  have pairs : (times log key).Pairwise fun earlier later => window ≤ later - earlier := by
    have transitive : IsTrans Time fun earlier later => window ≤ later - earlier := by
      constructor
      intro first second third before after
      calc window ≤ third - second := after
        _ ≤ third - second + (second - first) :=
            le_add_of_nonneg_right (positive.le.trans before)
        _ = third - first := sub_add_sub_cancel third second first
    exact List.isChain_iff_pairwise.mp (spaced key)
  have kept := pairs.filter fun time => decide (start ≤ time ∧ time < start + count • window)
  have inside : ∀ time ∈ (times log key).filter fun time =>
      decide (start ≤ time ∧ time < start + count • window),
      start ≤ time ∧ time < start + count • window :=
    fun time member => of_decide_eq_true (List.mem_filter.mp member).2
  revert kept inside
  generalize (times log key).filter _ = chosen
  intro kept inside
  cases chosen with
  | nil => exact Nat.zero_le count
  | cons first rest =>
      obtain ⟨last, isLast⟩ : ∃ last, (first :: rest).getLast? = some last :=
        ⟨_, List.getLast?_eq_getLast_of_ne_nil (List.cons_ne_nil first rest)⟩
      have span := chain_span kept.isChain last isLast
      have low := (inside first List.mem_cons_self).1
      have high := (inside last (List.mem_of_getLast? isLast)).2
      have short : rest.length • window < count • window :=
        calc rest.length • window ≤ last - first := span
          _ ≤ last - start := sub_le_sub_left low last
          _ < count • window := sub_lt_iff_lt_add'.mpr high
      exact Nat.succ_le_of_lt ((nsmul_lt_nsmul_iff_left positive).mp short)

end Spacing

/-- At time `now` the table knows of the log what can still make a difference. -/
structure Tracks (window : Time) (table : Key → Option Time) (log : List (Key × Time))
    (now : Time) : Prop where
  known : ∀ key last, table key = some last → lastGrant log key = some last
  forgotten : ∀ key last, table key = none → lastGrant log key = some last → window ≤ now - last
  past : ∀ key last, table key = some last → last ≤ now

theorem tracks_empty (window now : Time) :
    Tracks window (fun _ => none) ([] : List (Key × Time)) now where
  known := fun _ _ held => by cases held
  forgotten := fun _ _ _ granted => by cases granted
  past := fun _ _ held => by cases held

section Tables

variable {window now : Time} {table : Key → Option Time} {log : List (Key × Time)}

theorem Tracks.ready_iff (tracks : Tracks window table log now) (key : Key) :
    Ready window log key now ↔ ∀ last ∈ table key, window ≤ now - last := by
  cases held : table key with
  | none =>
      constructor
      · exact fun _ last member => by cases member
      · exact fun _ last granted => tracks.forgotten key last held granted
  | some last =>
      rw [Ready, tracks.known key last held]

theorem Tracks.later [IsOrderedAddMonoid Time] (tracks : Tracks window table log now) {next : Time}
    (ordered : now ≤ next) : Tracks window table log next where
  known := tracks.known
  forgotten := fun key last held granted =>
    (tracks.forgotten key last held granted).trans (sub_le_sub_right ordered last)
  past := fun key last held => (tracks.past key last held).trans ordered

theorem Tracks.grant (tracks : Tracks window table log now) (key : Key) :
    Tracks window (Function.update table key (some now)) (log ++ [(key, now)]) now := by
  have last_self : lastGrant (log ++ [(key, now)]) key = some now := by
    rw [lastGrant, times_append_self, List.getLast?_concat]
  have last_other {other : Key} (apart : key ≠ other) :
      lastGrant (log ++ [(key, now)]) other = lastGrant log other := by
    rw [lastGrant, times_append_other log apart, lastGrant]
  constructor
  · intro other last held
    by_cases same : key = other
    · subst same
      rw [Function.update_self] at held
      rw [last_self, held]
    · rw [Function.update_of_ne (Ne.symm same)] at held
      rw [last_other same]
      exact tracks.known other last held
  · intro other last held granted
    have apart : key ≠ other := by
      rintro rfl
      rw [Function.update_self] at held
      cases held
    rw [Function.update_of_ne (Ne.symm apart)] at held
    rw [last_other apart] at granted
    exact tracks.forgotten other last held granted
  · intro other last held
    by_cases same : key = other
    · subst same
      rw [Function.update_self] at held
      exact (Option.some.inj held).ge
    · rw [Function.update_of_ne (Ne.symm same)] at held
      exact tracks.past other last held

/-- Grants that lie a window back may go. -/
theorem Tracks.forget (tracks : Tracks window table log now) {smaller : Key → Option Time}
    (kept : ∀ key, smaller key = table key ∨
      smaller key = none ∧ ∀ last ∈ table key, window ≤ now - last) :
    Tracks window smaller log now := by
  have still {key : Key} {last : Time} (held : smaller key = some last) :
      table key = some last := by
    cases kept key with
    | inl same => rw [← same, held]
    | inr gone =>
        rw [gone.1] at held
        cases held
  constructor
  · exact fun key last held => tracks.known key last (still held)
  · intro key last held granted
    cases kept key with
    | inl same => exact tracks.forgotten key last (same ▸ held) granted
    | inr gone => exact (tracks.ready_iff key).mpr gone.2 last granted
  · exact fun key last held => tracks.past key last (still held)

end Tables

end Cooldown
