import Mathlib.Logic.Basic

/- Programs over a mutable state that may throw; what they did before the throw stays. -/
set_option autoImplicit false

namespace Library

variable {ε σ α β : Type}

-- try … finally: the cleanup's own error replaces the body's.
def ensure (body : EStateM ε σ α) (cleanup : EStateM ε σ Unit) : EStateM ε σ α := fun state =>
  match body state with
  | .ok value after =>
      match cleanup after with
      | .ok _ last => .ok value last
      | .error error last => .error error last
  | .error error after =>
      match cleanup after with
      | .ok _ last => .error error last
      | .error error last => .error error last

-- How the program ends when it starts in the state: one condition for each way out.
def Ends (program : EStateM ε σ α) (state : σ) (done : α → σ → Prop) (thrown : ε → σ → Prop) : Prop :=
  match program state with
  | .ok value after => done value after
  | .error error after => thrown error after

theorem ends_mono (program : EStateM ε σ α) (state : σ) (done weaker : α → σ → Prop) (thrown milder : ε → σ → Prop)
    (ends : Ends program state done thrown) (implied : ∀ value after, done value after → weaker value after)
    (allowed : ∀ error after, thrown error after → milder error after) : Ends program state weaker milder := by
  unfold Ends at ends ⊢
  cases outcome : program state with
  | ok value after =>
      rw [outcome] at ends
      exact implied value after ends
  | error error after =>
      rw [outcome] at ends
      exact allowed error after ends

theorem ends_pure (value : α) (state : σ) (done : α → σ → Prop) (thrown : ε → σ → Prop) (here : done value state) :
    Ends (pure value) state done thrown := here

theorem ends_bind (program : EStateM ε σ α) (continue_ : α → EStateM ε σ β) (state : σ) (middle : α → σ → Prop)
    (done : β → σ → Prop) (thrown : ε → σ → Prop) (first : Ends program state middle thrown)
    (later : ∀ value after, middle value after → Ends (continue_ value) after done thrown) :
    Ends (program >>= continue_) state done thrown := by
  unfold Ends at first ⊢
  change match EStateM.bind program continue_ state with
    | .ok value after => done value after
    | .error error after => thrown error after
  rw [EStateM.bind]
  cases outcome : program state with
  | ok value after =>
      rw [outcome] at first
      exact later value after first
  | error error after =>
      rw [outcome] at first
      exact first

theorem ends_ensure (body : EStateM ε σ α) (cleanup : EStateM ε σ Unit) (state : σ) (done : α → σ → Prop)
    (thrown : ε → σ → Prop)
    (first : Ends body state (fun value after => Ends cleanup after (fun _ last => done value last) thrown)
      fun error after => Ends cleanup after (fun _ last => thrown error last) thrown) :
    Ends (ensure body cleanup) state done thrown := by
  unfold Ends ensure at *
  cases outcome : body state with
  | ok value after =>
      rw [outcome] at first
      dsimp only at first ⊢
      cases cleaned : cleanup after with
      | ok _ last =>
          rw [cleaned] at first
          exact first
      | error error last =>
          rw [cleaned] at first
          exact first
  | error error after =>
      rw [outcome] at first
      dsimp only at first ⊢
      cases cleaned : cleanup after with
      | ok _ last =>
          rw [cleaned] at first
          exact first
      | error other last =>
          rw [cleaned] at first
          exact first

theorem bind_done (program : EStateM ε σ α) (continue_ : α → EStateM ε σ β) (state after : σ) (value : α)
    (here : program state = .ok value after) : (program >>= continue_) state = continue_ value after := by
  change EStateM.bind program continue_ state = continue_ value after
  rw [EStateM.bind, here]

theorem bind_thrown (program : EStateM ε σ α) (continue_ : α → EStateM ε σ β) (state after : σ) (error : ε)
    (here : program state = .error error after) : (program >>= continue_) state = .error error after := by
  change EStateM.bind program continue_ state = .error error after
  rw [EStateM.bind, here]

theorem bind_returned (program : EStateM ε σ α) (continue_ : α → EStateM ε σ β) (state after : σ) (value : β)
    (returned : (program >>= continue_) state = .ok value after) :
    ∃ first middle, program state = .ok first middle ∧ continue_ first middle = .ok value after := by
  cases outcome : program state with
  | ok first middle => exact ⟨first, middle, rfl, bind_done program continue_ state middle first outcome ▸ returned⟩
  | error error middle =>
      rw [bind_thrown program continue_ state middle error outcome] at returned
      cases returned

theorem ends_returned (program : EStateM ε σ α) (state after : σ) (value : α) (done : α → σ → Prop) (thrown : ε → σ → Prop)
    (ends : Ends program state done thrown) (returned : program state = .ok value after) : done value after := by
  rw [Ends, returned] at ends
  exact ends

-- A chain of calls that may throw returns only when each call did.
theorem returned_bind (first : Except ε α) (next : α → Except ε β) (result : β) (returned : first >>= next = .ok result) :
    ∃ value, first = .ok value ∧ next value = .ok result := by
  cases first with
  | error error => cases returned
  | ok value => exact ⟨value, rfl, returned⟩

end Library
