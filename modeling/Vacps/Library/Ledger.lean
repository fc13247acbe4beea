import Mathlib.Logic.Relation
import Mathlib.Data.List.Nodup

/- A book of used keys against replays. A request is let in while it is fresh and claims its key some
   time later; the book may forget keys. Nothing is accepted twice as long as the book forgets no
   request that could still come back. -/
set_option autoImplicit false

namespace Library

structure Gate (Request Key : Type) where
  key : Request → Key
  fresh : Request → Int → Prop

structure Ledger (Request Key : Type) where
  clock : Int
  held : Key → Prop
  awaiting : List Request
  accepted : List Request

variable {Request Key : Type}

namespace Gate

-- The request is past its window at the clock and at every later one.
def Stale (gate : Gate Request Key) (request : Request) (clock : Int) : Prop :=
  ∀ later, clock ≤ later → ¬ gate.fresh request later

inductive Step (gate : Gate Request Key) : Ledger Request Key → Ledger Request Key → Prop where
  | wait (ledger : Ledger Request Key) (clock : Int) (later : ledger.clock ≤ clock) :
      Step gate ledger { ledger with clock := clock }
  | enter (ledger : Ledger Request Key) (request : Request) (fresh : gate.fresh request ledger.clock)
      (awaiting : List Request) (only : ∀ other ∈ awaiting, other = request ∨ other ∈ ledger.awaiting) :
      Step gate ledger { ledger with awaiting := awaiting }
  | leave (ledger : Ledger Request Key) (awaiting : List Request) (fewer : ∀ other ∈ awaiting, other ∈ ledger.awaiting) :
      Step gate ledger { ledger with awaiting := awaiting }
  | forget (ledger : Ledger Request Key) (held : Key → Prop)
      (spared : ∀ request ∈ ledger.accepted, ledger.held (gate.key request) → ¬ held (gate.key request) →
        request ∉ ledger.awaiting ∧ gate.Stale request ledger.clock) :
      Step gate ledger { ledger with held := held }
  | claim (ledger : Ledger Request Key) (request : Request) (held : Key → Prop) (waiting : request ∈ ledger.awaiting)
      (free : ¬ ledger.held (gate.key request)) (booked : held (gate.key request))
      (kept : ∀ key, ledger.held key → held key) :
      Step gate ledger { ledger with held := held, accepted := request :: ledger.accepted }

abbrev Steps (gate : Gate Request Key) : Ledger Request Key → Ledger Request Key → Prop :=
  Relation.ReflTransGen gate.Step

-- A request accepted once either still holds its key or can never claim again.
def Spent (gate : Gate Request Key) (ledger : Ledger Request Key) (request : Request) : Prop :=
  ledger.held (gate.key request) ∨ request ∉ ledger.awaiting ∧ gate.Stale request ledger.clock

structure Sealed (gate : Gate Request Key) (ledger : Ledger Request Key) : Prop where
  once : ledger.accepted.Nodup
  spent : ∀ request ∈ ledger.accepted, gate.Spent ledger request

theorem stale_later (gate : Gate Request Key) (request : Request) (clock later : Int)
    (stale : gate.Stale request clock) (after : clock ≤ later) : gate.Stale request later := by
  intro last afterwards
  exact stale last (Int.le_trans after afterwards)

theorem step_sealed (gate : Gate Request Key) (before after : Ledger Request Key) (step : gate.Step before after)
    (ready : gate.Sealed before) : gate.Sealed after := by
  cases step with
  | wait clock later =>
      refine ⟨ready.once, ?_⟩
      intro request accepted
      rcases ready.spent request accepted with held | ⟨gone, stale⟩
      · exact Or.inl held
      · exact Or.inr ⟨gone, gate.stale_later request before.clock clock stale later⟩
  | enter request fresh awaiting only =>
      refine ⟨ready.once, ?_⟩
      intro other accepted
      rcases ready.spent other accepted with held | ⟨gone, stale⟩
      · exact Or.inl held
      · refine Or.inr ⟨?_, stale⟩
        intro waiting
        rcases only other waiting with same | already
        · exact stale before.clock (Int.le_refl _) (same ▸ fresh)
        · exact gone already
  | leave awaiting fewer =>
      refine ⟨ready.once, ?_⟩
      intro request accepted
      rcases ready.spent request accepted with held | ⟨gone, stale⟩
      · exact Or.inl held
      · exact Or.inr ⟨fun waiting => gone (fewer request waiting), stale⟩
  | forget held spared =>
      refine ⟨ready.once, ?_⟩
      intro request accepted
      by_cases kept : held (gate.key request)
      · exact Or.inl kept
      · rcases ready.spent request accepted with booked | gone
        · exact Or.inr (spared request accepted booked kept)
        · exact Or.inr gone
  | claim request held waiting free booked kept =>
      have first : request ∉ before.accepted := by
        intro accepted
        rcases ready.spent request accepted with held | ⟨gone, -⟩
        · exact free held
        · exact gone waiting
      refine ⟨List.nodup_cons.mpr ⟨first, ready.once⟩, ?_⟩
      intro other accepted
      rcases List.mem_cons.mp accepted with same | already
      · exact Or.inl (same ▸ booked)
      · rcases ready.spent other already with held | gone
        · exact Or.inl (kept _ held)
        · exact Or.inr gone

theorem steps_sealed (gate : Gate Request Key) (before after : Ledger Request Key) (steps : gate.Steps before after)
    (ready : gate.Sealed before) : gate.Sealed after := by
  induction steps with
  | refl => exact ready
  | tail _ step ih => exact gate.step_sealed _ _ step ih

theorem new_sealed (gate : Gate Request Key) (ledger : Ledger Request Key) (unused : ledger.accepted = []) :
    gate.Sealed ledger :=
  ⟨unused ▸ List.nodup_nil, fun _ accepted => absurd (unused ▸ accepted) List.not_mem_nil⟩

end Gate

end Library
