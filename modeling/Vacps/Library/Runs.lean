import Mathlib.Logic.Basic

/- Runs of a machine under a list of events, and what holds along those whose every step meets a guard. -/
set_option autoImplicit false

namespace Library

variable {State Event : Type} (step : State → Event → State)

def runFrom (start : State) (events : List Event) : State := events.foldl step start

def Along (guard : State → Event → Prop) : State → List Event → Prop
  | _, [] => True
  | state, event :: rest => guard state event ∧ Along guard (step state event) rest

instance decidableAlong (guard : State → Event → Prop) [∀ state event, Decidable (guard state event)] :
    ∀ (start : State) (events : List Event), Decidable (Along step guard start events)
  | _, [] => inferInstanceAs (Decidable True)
  | state, event :: rest =>
      have := decidableAlong guard (step state event) rest
      inferInstanceAs (Decidable (guard state event ∧ Along step guard (step state event) rest))

theorem along_mono (weak strong : State → Event → Prop) (implies : ∀ state event, strong state event → weak state event)
    (start : State) (events : List Event) (along : Along step strong start events) : Along step weak start events := by
  induction events generalizing start with
  | nil => exact trivial
  | cons event rest ih => exact ⟨implies start event along.1, ih (step start event) along.2⟩

theorem along_keeps (guard : State → Event → Prop) (inv : State → Prop)
    (kept : ∀ state event, inv state → guard state event → inv (step state event)) (start : State) (events : List Event)
    (initial : inv start) (along : Along step guard start events) : inv (runFrom step start events) := by
  induction events generalizing start with
  | nil => exact initial
  | cons event rest ih => exact ih (step start event) (kept start event initial along.1) along.2

-- A guarded run up to an event is a guarded run, and the event meets the guard there.
theorem along_split (guard : State → Event → Prop) (start : State) (before : List Event) (event : Event) (after : List Event)
    (along : Along step guard start (before ++ event :: after)) :
    Along step guard start before ∧ guard (runFrom step start before) event := by
  induction before generalizing start with
  | nil => exact ⟨trivial, along.1⟩
  | cons first rest ih =>
      obtain ⟨earlier, here⟩ := ih (step start first) along.2
      exact ⟨⟨along.1, earlier⟩, here⟩

theorem run_from_concat (start : State) (before : List Event) (event : Event) :
    runFrom step start (before ++ [event]) = step (runFrom step start before) event := by
  rw [runFrom, List.foldl_append]
  rfl

theorem run_holds (inv : State → Prop) (kept : ∀ state event, inv state → inv (step state event)) (start : State)
    (events : List Event) (initial : inv start) : inv (runFrom step start events) := by
  induction events generalizing start with
  | nil => exact initial
  | cons event rest ih => exact ih (step start event) (kept start event initial)

section failing

variable (attempt : State → Event → Option State)

-- The same for a machine whose steps can fail, up to the step that does.
def AlongSome (guard : State → Event → Prop) : State → List Event → Prop
  | _, [] => True
  | state, event :: rest =>
      guard state event ∧
        match attempt state event with
        | some next => AlongSome guard next rest
        | none => True

instance decidableAlongSome (guard : State → Event → Prop) [∀ state event, Decidable (guard state event)] :
    ∀ (start : State) (events : List Event), Decidable (AlongSome attempt guard start events)
  | _, [] => inferInstanceAs (Decidable True)
  | state, event :: rest =>
      match reached : attempt state event with
      | some next =>
          have := decidableAlongSome guard next rest
          decidable_of_iff (guard state event ∧ AlongSome attempt guard next rest) (by rw [AlongSome, reached])
      | none => decidable_of_iff (guard state event ∧ True) (by rw [AlongSome, reached])

theorem along_some_next (guard : State → Event → Prop) (state next : State) (event : Event) (rest : List Event)
    (along : AlongSome attempt guard state (event :: rest)) (reached : attempt state event = some next) :
    AlongSome attempt guard next rest := by
  have later := along.2
  rw [reached] at later
  exact later

end failing

end Library
