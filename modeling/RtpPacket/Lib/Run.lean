import Mathlib.Tactic

/-!
# Runs of a deterministic machine

A machine takes events and answers each with a list of outputs. `Always` states
a property of every step of a run, seen from the state before the step; the
rules below reduce it, and facts about a whole run, to one step.
-/

namespace Run

set_option autoImplicit false

variable {State Event Output : Type*}

def run (step : State → Event → State × List Output) :
    State → List Event → State × List Output
  | state, [] => (state, [])
  | state, event :: rest =>
      let first := step state event
      let later := run step first.1 rest
      (later.1, first.2 ++ later.2)

def Always (step : State → Event → State × List Output) (property : State → Event → Prop) :
    State → List Event → Prop
  | _, [] => True
  | state, event :: rest =>
      property state event ∧ Always step property (step state event).1 rest

instance Always.instDecidable (step : State → Event → State × List Output)
    (property : State → Event → Prop) [∀ state event, Decidable (property state event)] :
    (state : State) → (events : List Event) → Decidable (Always step property state events)
  | _, [] => inferInstanceAs (Decidable True)
  | state, event :: rest =>
      have := instDecidable step property (step state event).1 rest
      inferInstanceAs (Decidable (property state event ∧
        Always step property (step state event).1 rest))

variable {step : State → Event → State × List Output}

theorem run_append (state : State) (first second : List Event) :
    run step state (first ++ second) =
      ((run step (run step state first).1 second).1,
        (run step state first).2 ++ (run step (run step state first).1 second).2) := by
  induction first generalizing state with
  | nil => simp [run]
  | cons event rest ih => simp [run, ih, List.append_assoc]

/-- What one more event preserves of the events so far and what they led to. -/
theorem run_history {Inv : List Event → State × List Output → Prop} {start : State}
    {allowed : Event → Prop} (initial : Inv [] (start, []))
    (preserved : ∀ past event, allowed event → Inv past (run step start past) →
      Inv (past ++ [event]) ((step (run step start past).1 event).1,
        (run step start past).2 ++ (step (run step start past).1 event).2))
    {events : List Event} (allowedAll : ∀ event ∈ events, allowed event) :
    Inv events (run step start events) := by
  induction events using List.reverseRecOn with
  | nil => exact initial
  | append_singleton past event ih =>
      have before := ih fun other member => allowedAll other (List.mem_append_left _ member)
      have now := allowedAll event (List.mem_append_right _ (List.mem_singleton.mpr rfl))
      rw [run_append]
      simp only [run, List.append_nil]
      exact preserved past event now before

theorem run_replicate_idle {state : State} {event : Event} (idle : step state event = (state, []))
    (count : Nat) : run step state (List.replicate count event) = (state, []) := by
  induction count with
  | zero => rfl
  | succ count ih => rw [List.replicate_succ, run, idle, ih]; rfl

/-- Two machines that answer matching events alike, as long as their states are related. -/
theorem run_simulates {Other OtherEvent OtherOutput : Type*}
    {otherStep : Other → OtherEvent → Other × List OtherOutput}
    (related : State → Other → Prop) {matching : Event → OtherEvent → Prop}
    {answers : Output → OtherOutput → Prop}
    (simulates : ∀ state other event otherEvent, related state other → matching event otherEvent →
      related (step state event).1 (otherStep other otherEvent).1 ∧
        List.Forall₂ answers (step state event).2 (otherStep other otherEvent).2)
    {events : List Event} {otherEvents : List OtherEvent}
    (matched : List.Forall₂ matching events otherEvents) {state : State} {other : Other}
    (start : related state other) :
    List.Forall₂ answers (run step state events).2 (run otherStep other otherEvents).2 := by
  induction matched generalizing state other with
  | nil => exact .nil
  | cons here _ ih =>
      obtain ⟨kept, answered⟩ := simulates _ _ _ _ start here
      exact List.rel_append answered (ih kept)

theorem always_append {property : State → Event → Prop} (state : State)
    (first second : List Event) :
    Always step property state (first ++ second) ↔
      Always step property state first ∧
        Always step property (run step state first).1 second := by
  induction first generalizing state with
  | nil => simp [Always, run]
  | cons event rest ih => simp [Always, run, ih, and_assoc]

theorem always_of_forall {property : State → Event → Prop}
    (each : ∀ state event, property state event) (state : State) (events : List Event) :
    Always step property state events := by
  induction events generalizing state with
  | nil => trivial
  | cons event rest ih => exact ⟨each state event, ih _⟩

/-- A state invariant that gives a property of each step gives it along the run. -/
theorem always_of_invariant {allowed property : State → Event → Prop} (Inv : State → Prop)
    (preserved : ∀ state event, allowed state event → Inv state → Inv (step state event).1)
    (gives : ∀ state event, allowed state event → Inv state → property state event)
    {state : State} {events : List Event}
    (holds : Inv state) (runs : Always step allowed state events) :
    Always step property state events := by
  induction events generalizing state with
  | nil => trivial
  | cons event rest ih =>
      obtain ⟨first, later⟩ := runs
      exact ⟨gives _ _ first holds, ih (preserved _ _ first holds) later⟩

/-- A state invariant that every allowed step keeps holds where the run ends. -/
theorem run_keeps {allowed : State → Event → Prop} (Inv : State → Prop)
    (preserved : ∀ state event, allowed state event → Inv state → Inv (step state event).1)
    {state : State} {events : List Event}
    (holds : Inv state) (runs : Always step allowed state events) :
    Inv (run step state events).1 := by
  induction events generalizing state with
  | nil => exact holds
  | cons event rest ih =>
      obtain ⟨first, later⟩ := runs
      exact ih (preserved _ _ first holds) later

/-- Two step properties that agree where the invariant holds agree along a run,
when either of them keeps the invariant. -/
theorem always_iff_of_invariant {allowed property condition : State → Event → Prop}
    (Inv : State → Prop)
    (agree : ∀ state event, allowed state event → Inv state →
      (property state event ↔ condition state event))
    (preserved : ∀ state event, allowed state event → Inv state → property state event →
      Inv (step state event).1)
    {state : State} {events : List Event}
    (holds : Inv state) (runs : Always step allowed state events) :
    Always step property state events ↔ Always step condition state events := by
  induction events generalizing state with
  | nil => exact Iff.rfl
  | cons event rest ih =>
      obtain ⟨first, later⟩ := runs
      have here := agree state event first holds
      constructor
      · rintro ⟨now, after⟩
        exact ⟨here.mp now, (ih (preserved _ _ first holds now) later).mp after⟩
      · rintro ⟨now, after⟩
        have met := here.mpr now
        exact ⟨met, (ih (preserved _ _ first holds met) later).mpr after⟩

end Run
