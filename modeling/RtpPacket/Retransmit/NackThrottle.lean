import RtpPacket.Lib.Cooldown
import RtpPacket.Lib.InsertionMap
import RtpPacket.Lib.Run

/-!
# The NACK throttle

A packet that was sent again is not sent once more within a window, however often it is
asked for. The throttle keeps the time of each sending in a map and sweeps old entries out
of it at random. The sweeps change no answer: it answers as a log of all sendings would.
-/

namespace RtpPacket.Retransmit

open Cooldown Run

set_option autoImplicit false

def defaultThrottleMs : ℚ := 100

structure NackThrottle where
  windowMs : ℚ
  /-- From "ssrc:seq" to the time of the last sending. -/
  lastSent : InsertionMap String ℚ

namespace NackThrottle

/-- A window that is left out, or zero, is the default. -/
def new (windowMs : Option ℚ) : NackThrottle where
  windowMs := (windowMs.filter (· ≠ 0)).getD defaultThrottleMs
  lastSent := .empty

def keyOf (ssrc seq : Nat) : String := toString ssrc ++ ":" ++ toString seq

def evictBelow (cutoff : ℚ) (lastSent : InsertionMap String ℚ) (keys : List String) :
    InsertionMap String ℚ :=
  keys.foldl (fun map key => if ∃ last ∈ map.get key, last < cutoff then map.erase key else map)
    lastSent

def evictExpired (self : NackThrottle) (now : ℚ) : NackThrottle :=
  let cutoff := now - self.windowMs * 20
  { self with lastSent := evictBelow cutoff self.lastSent self.lastSent.keys }

/-- `now` is `Date.now()` and `draw` is `Math.random()`. -/
def shouldSend (self : NackThrottle) (ssrc seq : Nat) (now draw : ℚ) : NackThrottle × Bool :=
  let key := keyOf ssrc seq
  -- A time of 0 is as good as none.
  if ∃ last ∈ self.lastSent.get key, last ≠ 0 ∧ now - last < self.windowMs then (self, false)
  else
    let sent := { self with lastSent := self.lastSent.set key now }
    (if draw < 1 / 100 then sent.evictExpired now else sent, true)

def clear (self : NackThrottle) : NackThrottle := { self with lastSent := .empty }

theorem colon_not_mem_digits (number : Nat) : ':' ∉ Nat.toDigits 10 number := by
  intro member
  have digit := Nat.isDigit_of_mem_toDigits (by decide) (by decide) member
  exact absurd digit (by decide)

theorem key_of_injective {ssrc seq otherSsrc otherSeq : Nat}
    (same : keyOf ssrc seq = keyOf otherSsrc otherSeq) : ssrc = otherSsrc ∧ seq = otherSeq := by
  have characters := congrArg String.toList same
  simp only [keyOf, String.toList_append, Nat.toString_eq_repr, Nat.toList_repr, List.append_assoc]
    at characters
  have parts := (List.append_cons_inj_of_notMem (colon_not_mem_digits _)
    (colon_not_mem_digits _)).mp characters
  have values (left right : Nat) (digits : Nat.toDigits 10 left = Nat.toDigits 10 right) :
      left = right := by
    have read := congrArg (Nat.ofDigitChars 10 · 0) digits
    rwa [Nat.ofDigitChars_ten_toDigits, Nat.ofDigitChars_ten_toDigits] at read
  exact ⟨values _ _ parts.1, values _ _ parts.2.2⟩

theorem get_evict_below (cutoff : ℚ) (lastSent : InsertionMap String ℚ) (keys : List String)
    (key : String) :
    (evictBelow cutoff lastSent keys).get key = lastSent.get key ∨
      (evictBelow cutoff lastSent keys).get key = none ∧
        ∃ last ∈ lastSent.get key, last < cutoff := by
  induction keys generalizing lastSent with
  | nil => exact .inl rfl
  | cons first rest ih =>
      rw [evictBelow, List.foldl_cons]
      split_ifs with expired
      · cases ih (lastSent.erase first) with
        | inl same =>
            by_cases here : key = first
            · subst here
              rw [InsertionMap.get_erase_self] at same
              exact .inr ⟨same, expired⟩
            · rw [InsertionMap.get_erase_of_ne here] at same
              exact .inl same
        | inr gone =>
            by_cases here : key = first
            · subst here
              exact .inr ⟨gone.1, expired⟩
            · rw [InsertionMap.get_erase_of_ne here] at gone
              exact .inr gone
      · exact ih lastSent

def table (self : NackThrottle) (packet : Nat × Nat) : Option ℚ :=
  self.lastSent.get (keyOf packet.1 packet.2)

theorem table_clear (self : NackThrottle) : self.clear.table = fun _ => none := rfl

/-- The map follows the log, and a time in it is one of the clock. -/
structure Follows (throttle : NackThrottle) (log : List ((Nat × Nat) × ℚ)) (now : ℚ) : Prop where
  tracks : Tracks throttle.windowMs throttle.table log now
  positive : ∀ packet, ∀ last ∈ throttle.table packet, last ≠ 0

theorem follows_empty {self : NackThrottle} (empty : self.table = fun _ => none) (now : ℚ) :
    self.Follows [] now := by
  constructor
  · rw [empty]
    exact tracks_empty self.windowMs now
  · rw [empty]
    exact fun _ _ member => by cases member

section Steps

variable {self : NackThrottle} {log : List ((Nat × Nat) × ℚ)} {now : ℚ}

theorem Follows.later (follows : self.Follows log now) {next : ℚ} (ordered : now ≤ next) :
    self.Follows log next :=
  ⟨follows.tracks.later ordered, follows.positive⟩

theorem Follows.refuses_iff (follows : self.Follows log now) (ssrc seq : Nat) :
    (∃ last ∈ self.lastSent.get (keyOf ssrc seq), last ≠ 0 ∧ now - last < self.windowMs) ↔
      ¬ Ready self.windowMs log (ssrc, seq) now := by
  rw [follows.tracks.ready_iff]
  push Not
  constructor
  · rintro ⟨last, held, _, recent⟩
    exact ⟨last, held, recent⟩
  · rintro ⟨last, held, recent⟩
    exact ⟨last, held, follows.positive (ssrc, seq) last held, recent⟩

theorem table_set (self : NackThrottle) (ssrc seq : Nat) (now : ℚ) :
    table { self with lastSent := self.lastSent.set (keyOf ssrc seq) now } =
      Function.update self.table (ssrc, seq) (some now) := by
  funext packet
  by_cases same : packet = (ssrc, seq)
  · subst same
    rw [Function.update_self]
    exact InsertionMap.get_set_self
  · rw [Function.update_of_ne same]
    apply InsertionMap.get_set_of_ne
    intro keys
    obtain ⟨source, number⟩ := key_of_injective keys
    exact same (Prod.ext source number)

theorem Follows.sent (follows : self.Follows log now) (positive : now ≠ 0) (ssrc seq : Nat) :
    Follows { self with lastSent := self.lastSent.set (keyOf ssrc seq) now }
      (log ++ [((ssrc, seq), now)]) now := by
  constructor
  · rw [table_set]
    exact follows.tracks.grant (ssrc, seq)
  · rw [table_set]
    intro packet last held
    by_cases same : packet = (ssrc, seq)
    · subst same
      rw [Function.update_self] at held
      rwa [← Option.some.inj held]
    · rw [Function.update_of_ne same] at held
      exact follows.positive packet last held

/-- Twenty windows back is more than one, when the window is one at all. -/
theorem Follows.swept (follows : self.Follows log now) :
    (self.evictExpired now).Follows log now := by
  have kept (packet : Nat × Nat) : (self.evictExpired now).table packet = self.table packet ∨
      (self.evictExpired now).table packet = none ∧
        ∀ last ∈ self.table packet, self.windowMs ≤ now - last := by
    apply (get_evict_below _ self.lastSent _ (keyOf packet.1 packet.2)).imp_right
    rintro ⟨gone, last, held, expired⟩
    refine ⟨gone, ?_⟩
    intro other otherHeld
    rw [← Option.some.inj (held.symm.trans otherHeld)]
    have past : last ≤ now := follows.tracks.past packet last held
    cases le_total 0 self.windowMs with
    | inl long => linarith
    | inr none => linarith
  constructor
  · exact follows.tracks.forget kept
  · intro packet last held
    cases kept packet with
    | inl same => exact follows.positive packet last (same ▸ held)
    | inr gone =>
        rw [gone.1] at held
        cases held

theorem Follows.asked (follows : self.Follows log now) (positive : now ≠ 0) (ssrc seq : Nat)
    (draw : ℚ) :
    (self.shouldSend ssrc seq now draw).2 = decide (Ready self.windowMs log (ssrc, seq) now) ∧
      (self.shouldSend ssrc seq now draw).1.windowMs = self.windowMs ∧
      (self.shouldSend ssrc seq now draw).1.Follows
        (Cooldown.step self.windowMs log (.request (ssrc, seq) now)).1 now := by
  rw [shouldSend, Cooldown.step]
  simp only [follows.refuses_iff]
  by_cases ready : Ready self.windowMs log (ssrc, seq) now
  · have sent := follows.sent positive ssrc seq
    rw [if_neg (not_not.mpr ready), if_pos ready]
    refine ⟨(decide_eq_true ready).symm, ?_⟩
    dsimp only
    split_ifs with swept
    · exact ⟨rfl, sent.swept⟩
    · exact ⟨rfl, sent⟩
  · rw [if_pos ready, if_neg ready]
    exact ⟨(decide_eq_false ready).symm, rfl, follows⟩

end Steps

inductive ThrottleEvent where
  | shouldSend (ssrc seq : Nat) (now draw : ℚ)
  | clear
  deriving DecidableEq

/-- What a log needs to know of an event. -/
def ThrottleEvent.plain : ThrottleEvent → Cooldown.Event (Nat × Nat) ℚ
  | .shouldSend ssrc seq now _ => .request (ssrc, seq) now
  | .clear => .clear

def step (self : NackThrottle) : ThrottleEvent → NackThrottle × List Bool
  | .shouldSend ssrc seq now draw =>
      ((self.shouldSend ssrc seq now draw).1, [(self.shouldSend ssrc seq now draw).2])
  | .clear => (self.clear, [])

def clock (events : List ThrottleEvent) : List ℚ :=
  events.filterMap fun
    | .shouldSend _ _ now _ => some now
    | .clear => none

/-- A clock that does not run backwards, from a time on that is not 0. -/
def Ticking (start : ℚ) (events : List ThrottleEvent) : Prop :=
  0 < start ∧ (start :: clock events).Pairwise (· ≤ ·)

theorem Ticking.request {start : ℚ} {ssrc seq : Nat} {now draw : ℚ} {rest : List ThrottleEvent}
    (ticking : Ticking start (.shouldSend ssrc seq now draw :: rest)) :
    start ≤ now ∧ Ticking now rest := by
  obtain ⟨positive, ordered⟩ := ticking
  obtain ⟨before, later⟩ := List.pairwise_cons.mp ordered
  have ahead := before now List.mem_cons_self
  exact ⟨ahead, positive.trans_le ahead, later⟩

theorem run_follows {self : NackThrottle} {log : List ((Nat × Nat) × ℚ)} {start : ℚ}
    (follows : self.Follows log start) {events : List ThrottleEvent}
    (ticking : Ticking start events) :
    (run step self events).2 =
      (run (Cooldown.step self.windowMs) log (events.map ThrottleEvent.plain)).2 := by
  induction events generalizing self log start with
  | nil => rfl
  | cons event rest ih =>
      cases event with
      | shouldSend ssrc seq now draw =>
          obtain ⟨ahead, later⟩ := ticking.request
          have positive : now ≠ 0 := (ticking.1.trans_le ahead).ne'
          obtain ⟨answer, window, kept⟩ := (follows.later ahead).asked positive ssrc seq draw
          have after := ih kept later
          rw [window] at after
          have plainAnswer : (Cooldown.step self.windowMs log (.request (ssrc, seq) now)).2 =
              [decide (Ready self.windowMs log (ssrc, seq) now)] := by
            rw [Cooldown.step]
            split_ifs with ready
            · exact congrArg (fun value => [value]) (decide_eq_true ready).symm
            · exact congrArg (fun value => [value]) (decide_eq_false ready).symm
          rw [run, List.map_cons, run, ThrottleEvent.plain, plainAnswer, ← answer, step]
          exact congrArg (_ :: ·) after
      | clear =>
          have emptied : self.clear.Follows [] start := follows_empty self.table_clear start
          exact ih emptied ticking

/-- The window that a throttle made with this option has. -/
theorem new_follows (windowMs : Option ℚ) (start : ℚ) : (new windowMs).Follows [] start :=
  follows_empty rfl start

/-- The throttle answers every request as the log of all sendings would, and no packet is
sent more often than once a window. -/
theorem throttle_answers (windowMs : Option ℚ) {start : ℚ} {events : List ThrottleEvent}
    (ticking : Ticking start events) :
    (run step (new windowMs) events).2 =
        (run (Cooldown.step (new windowMs).windowMs) [] (events.map ThrottleEvent.plain)).2 ∧
      (.clear ∉ events → 0 < (new windowMs).windowMs → ∀ packet first count,
        ((times (granted (events.map ThrottleEvent.plain) (run step (new windowMs) events).2)
          packet).filter fun time =>
            decide (first ≤ time ∧ time < first + count • (new windowMs).windowMs)).length ≤
          count) := by
  have answers := run_follows (new_follows windowMs start) ticking
  refine ⟨answers, ?_⟩
  intro kept positive packet first count
  have unclear : ∀ event ∈ events.map ThrottleEvent.plain, event ≠ .clear := by
    rintro _ member rfl
    obtain ⟨event, inside, plain⟩ := List.mem_map.mp member
    cases event with
    | shouldSend ssrc seq now draw => cases plain
    | clear => exact kept inside
  have log := @run_log _ _ _ _ _ (new windowMs).windowMs _ unclear []
  have spaced := run_spaced (spaced_nil (new windowMs).windowMs)
    (events.map ThrottleEvent.plain)
  rw [log, List.nil_append, ← answers] at spaced
  exact spaced.rate positive packet first count

def nackStorm : List ThrottleEvent :=
  [.shouldSend 7 5 1000 0, .shouldSend 7 5 1050 (1 / 2), .shouldSend 7 5 1100 0]

theorem throttle_answers_nack_storm :
    (run step (new none) nackStorm).2 = [true, false, true] ∧
      ((times (granted (nackStorm.map ThrottleEvent.plain) (run step (new none) nackStorm).2)
        (7, 5)).filter fun time => decide (1000 ≤ time ∧ time < 1000 + 1 • (100 : ℚ))).length ≤
          1 := by
  have ticking : Ticking 1 nackStorm := by
    constructor
    · decide
    · decide +kernel
  obtain ⟨answers, rate⟩ := throttle_answers none ticking
  constructor
  · rw [answers]
    decide +kernel
  · exact rate (by decide) (by decide) (7, 5) 1000 1

end NackThrottle

end RtpPacket.Retransmit
