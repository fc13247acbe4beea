import Mathlib.Algebra.Ring.Nat

/- vacps-native/src/process/budget.cpp: the buffered bytes that all processes and terminals share. -/
set_option autoImplicit false

namespace Vacps.Native

-- Sizes are 64-bit.
def sizeBound : Nat := 2 ^ 64

structure ProcessBudget where
  max_total_buffer_bytes : Nat
  buffered : Nat

def ProcessBudget.global_buffer_room (budget : ProcessBudget) : Nat :=
  if budget.max_total_buffer_bytes ≤ budget.buffered then 0 else budget.max_total_buffer_bytes - budget.buffered

def ProcessBudget.add_buffered (budget : ProcessBudget) (n : Nat) : ProcessBudget :=
  if n = 0 then budget else { budget with buffered := (budget.buffered + n) % sizeBound }

def ProcessBudget.sub_buffered (budget : ProcessBudget) (n : Nat) : ProcessBudget :=
  if n = 0 then budget else { budget with buffered := if n < budget.buffered then budget.buffered - n else 0 }

@[simp] theorem add_buffered_max (budget : ProcessBudget) (n : Nat) :
    (budget.add_buffered n).max_total_buffer_bytes = budget.max_total_buffer_bytes := by
  unfold ProcessBudget.add_buffered
  split <;> rfl

@[simp] theorem sub_buffered_max (budget : ProcessBudget) (n : Nat) :
    (budget.sub_buffered n).max_total_buffer_bytes = budget.max_total_buffer_bytes := by
  unfold ProcessBudget.sub_buffered
  split <;> rfl

end Vacps.Native
