import Mathlib.Logic.Basic

/- Computations that answer once they are given enough fuel. -/
set_option autoImplicit false

namespace Library

variable {α β : Type}

-- With more fuel the answer is the same.
def Steady (eval : Nat → Option α) : Prop :=
  ∀ fuel more value, fuel ≤ more → eval fuel = some value → eval more = some value

def Halts (eval : Nat → Option α) : Prop := ∃ fuel, (eval fuel).isSome = true

theorem steady_const (value : Option α) : Steady fun _ => value := fun _ _ _ _ answered => answered

theorem halts_const (value : α) : Halts fun _ => some value := ⟨0, rfl⟩

theorem steady_map (eval : Nat → Option α) (change : α → β) (steady : Steady eval) : Steady fun fuel => (eval fuel).map change := by
  intro fuel more value enough answered
  obtain ⟨inner, first, rfl⟩ := Option.map_eq_some_iff.mp answered
  dsimp only
  rw [steady fuel more inner enough first]
  rfl

theorem halts_map (eval : Nat → Option α) (change : α → β) : (Halts fun fuel => (eval fuel).map change) ↔ Halts eval := by
  simp only [Halts, Option.isSome_map]

theorem steady_bind (eval : Nat → Option α) (next : α → Nat → Option β) (steady : Steady eval)
    (steadyNext : ∀ value, Steady (next value)) : Steady fun fuel => (eval fuel).bind fun value => next value fuel := by
  intro fuel more value enough answered
  obtain ⟨inner, first, second⟩ := Option.bind_eq_some_iff.mp answered
  dsimp only
  rw [steady fuel more inner enough first]
  exact steadyNext inner fuel more value enough second

-- One computation after the other, the second ending or not whatever the first answers.
theorem halts_bind (eval : Nat → Option α) (next : α → Nat → Option β) (steady : Steady eval)
    (steadyNext : ∀ value, Steady (next value)) (later : Prop) (same : ∀ value, Halts (next value) ↔ later) :
    (Halts fun fuel => (eval fuel).bind fun value => next value fuel) ↔ Halts eval ∧ later := by
  refine ⟨?_, ?_⟩
  · rintro ⟨fuel, ended⟩
    dsimp only at ended
    cases first : eval fuel with
    | none =>
        rw [first] at ended
        cases ended
    | some value =>
        rw [first] at ended
        exact ⟨⟨fuel, by rw [first]; rfl⟩, (same value).mp ⟨fuel, ended⟩⟩
  · rintro ⟨⟨fuel, ended⟩, follows⟩
    obtain ⟨value, first⟩ := Option.isSome_iff_exists.mp ended
    obtain ⟨more, last⟩ := (same value).mpr follows
    obtain ⟨result, second⟩ := Option.isSome_iff_exists.mp last
    refine ⟨max fuel more, ?_⟩
    dsimp only
    rw [steady fuel _ value (Nat.le_max_left _ _) first, Option.bind_some,
      steadyNext value more _ result (Nat.le_max_right _ _) second]
    rfl

end Library
