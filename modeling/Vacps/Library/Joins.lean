import Mathlib.Order.Lattice

/- Events delivered to a replica whose value is a join: neither their order nor their repetition
   shows in the value that is left. -/
set_option autoImplicit false

namespace Library

section joins

variable {State Event Value : Type} [SemilatticeSup Value] (step : State → Event → State) (value : State → Value)
  (weight : Event → Value) (kept : State → Prop) (allowed : Event → Prop)

-- Every allowed event joins its weight to the value of a state that is kept, and keeps it.
def Joining : Prop :=
  ∀ state event, kept state → allowed event →
    kept (step state event) ∧ value (step state event) = value state ⊔ weight event

variable (joining : Joining step value weight kept allowed)

include joining

theorem joined_keeps (events : List Event) (state : State) (start : kept state) (fine : ∀ event ∈ events, allowed event) :
    kept (events.foldl step state) := by
  induction events generalizing state with
  | nil => exact start
  | cons event events ih =>
      obtain ⟨here, later⟩ := List.forall_mem_cons.mp fine
      exact ih (step state event) (joining state event start here).1 later

-- The final value is the least one above the first value and every weight.
theorem joined_le_iff (events : List Event) (state : State) (bound : Value) (start : kept state)
    (fine : ∀ event ∈ events, allowed event) :
    value (events.foldl step state) ≤ bound ↔ value state ≤ bound ∧ ∀ event ∈ events, weight event ≤ bound := by
  induction events generalizing state with
  | nil => simp
  | cons event events ih =>
      obtain ⟨here, later⟩ := List.forall_mem_cons.mp fine
      obtain ⟨keeps, joined⟩ := joining state event start here
      rw [List.foldl_cons, ih (step state event) keeps later, joined, sup_le_iff, List.forall_mem_cons, and_assoc]

theorem joined_weight_le (events : List Event) (state : State) (event : Event) (start : kept state)
    (fine : ∀ event ∈ events, allowed event) (delivered : event ∈ events) :
    weight event ≤ value (events.foldl step state) :=
  ((joined_le_iff step value weight kept allowed joining events state _ start fine).mp (le_refl _)).2 event delivered

theorem joined_order_free (first second : List Event) (state : State) (start : kept state)
    (fine : ∀ event ∈ second, allowed event) (same : ∀ event, event ∈ first ↔ event ∈ second) :
    value (first.foldl step state) = value (second.foldl step state) := by
  have fineFirst : ∀ event ∈ first, allowed event := fun event delivered => fine event ((same event).mp delivered)
  apply eq_of_forall_ge_iff
  intro bound
  rw [joined_le_iff step value weight kept allowed joining first state bound start fineFirst,
    joined_le_iff step value weight kept allowed joining second state bound start fine]
  simp only [same]

end joins

end Library
