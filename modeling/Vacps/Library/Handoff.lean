import Mathlib.Data.List.Basic

/- A lock that is handed over: who waits, who is on the way to the lock or out of the queue, and who has been
   told. A waiter that gives up leaves from wherever it stands. -/
set_option autoImplicit false

namespace Library

-- granting and aborting are decided and not told yet; releasing are locks on their way back.
structure Handoff (α : Type) where
  leased : Bool
  holders : Nat
  releasing : Nat
  called : List α
  starting : List α
  arrivals : List α
  waiting : List α
  granting : List α
  aborting : List α
  granted : List α
  aborted : List α

namespace Handoff

variable {α : Type}

inductive Move : Handoff α → Handoff α → Prop where
  | call (state : Handoff α) (waiter : α) (fresh : waiter ∉ state.called) :
      Move state { state with called := state.called ++ [waiter], starting := state.starting ++ [waiter] }
  | take (state : Handoff α) (front : List α) (waiter : α) (back : List α)
      (starts : state.starting = front ++ waiter :: back) (idle : state.leased = false) :
      Move state
        { state with
          leased := true
          starting := front ++ back
          arrivals := state.arrivals ++ [waiter]
          granting := state.granting ++ [waiter] }
  | refuse (state : Handoff α) (front : List α) (waiter : α) (back : List α)
      (starts : state.starting = front ++ waiter :: back) :
      Move state
        { state with
          starting := front ++ back
          arrivals := state.arrivals ++ [waiter]
          aborting := state.aborting ++ [waiter] }
  | enqueue (state : Handoff α) (front : List α) (waiter : α) (back : List α)
      (starts : state.starting = front ++ waiter :: back) (busy : state.leased = true) :
      Move state
        { state with
          starting := front ++ back
          arrivals := state.arrivals ++ [waiter]
          waiting := state.waiting ++ [waiter] }
  | cancel (state : Handoff α) (front : List α) (waiter : α) (back : List α) (waits : state.waiting = front ++ waiter :: back) :
      Move state { state with waiting := front ++ back, aborting := state.aborting ++ [waiter] }
  | grant (state : Handoff α) (front : List α) (waiter : α) (back : List α) (granted : state.granting = front ++ waiter :: back) :
      Move state
        { state with holders := state.holders + 1, granting := front ++ back, granted := state.granted ++ [waiter] }
  | abort (state : Handoff α) (front : List α) (waiter : α) (back : List α) (aborted : state.aborting = front ++ waiter :: back) :
      Move state { state with aborting := front ++ back, aborted := state.aborted ++ [waiter] }
  | drop (state : Handoff α) (holders : Nat) (held : state.holders = holders + 1) :
      Move state { state with holders := holders, releasing := state.releasing + 1 }
  | pass (state : Handoff α) (releasing : Nat) (waiter : α) (rest : List α) (returned : state.releasing = releasing + 1)
      (waits : state.waiting = waiter :: rest) :
      Move state { state with releasing := releasing, waiting := rest, granting := state.granting ++ [waiter] }
  | free (state : Handoff α) (releasing : Nat) (returned : state.releasing = releasing + 1) (none_ : state.waiting = []) :
      Move state { state with releasing := releasing, leased := false }

variable [DecidableEq α]

-- The lock is in one place at most, and a waiter that has arrived in exactly one; those that are not aborted
-- got the lock, or will get it, in the order they came.
structure Fair (state : Handoff α) : Prop where
  lock : state.holders + state.granting.length + state.releasing = if state.leased then 1 else 0
  idle : state.leased = false → state.waiting = []
  named : ∀ waiter, state.starting.count waiter + state.arrivals.count waiter = state.called.count waiter
  once : ∀ waiter, state.called.count waiter ≤ 1
  placed : ∀ waiter, state.arrivals.count waiter =
    state.waiting.count waiter + state.granting.count waiter + state.aborting.count waiter +
      state.granted.count waiter + state.aborted.count waiter
  order : state.arrivals.filter (fun waiter => waiter ∉ state.aborting ++ state.aborted) =
    state.granted ++ state.granting ++ state.waiting

theorem arrivals_once (state : Handoff α) (fair : state.Fair) (waiter : α) : state.arrivals.count waiter ≤ 1 := by
  have named := fair.named waiter
  have once := fair.once waiter
  omega

-- A waiter that starts is in no other place.
theorem starting_apart (state : Handoff α) (fair : state.Fair) (front : List α) (waiter : α) (back : List α)
    (starts : state.starting = front ++ waiter :: back) :
    waiter ∉ state.arrivals ∧ waiter ∉ state.aborting ++ state.aborted := by
  have named := fair.named waiter
  have once := fair.once waiter
  have placed := fair.placed waiter
  rw [starts, List.count_append, List.count_cons_self] at named
  refine ⟨List.count_eq_zero.mp (by omega), List.count_eq_zero.mp ?_⟩
  rw [List.count_append]
  omega

-- A waiter out of the queue leaves the order of the others as it is.
theorem filter_without (arrivals gone kept front : List α) (waiter : α) (back : List α)
    (order : arrivals.filter (fun other => other ∉ gone) = front ++ waiter :: back)
    (alone : waiter ∉ front ++ back) (same : ∀ other, other ∈ kept ↔ other = waiter ∨ other ∈ gone) :
    arrivals.filter (fun other => other ∉ kept) = front ++ back := by
  have split : arrivals.filter (fun other => other ∉ kept) =
      (arrivals.filter (fun other => other ∉ gone)).filter (fun other => other ≠ waiter) := by
    rw [List.filter_filter]
    refine List.filter_congr fun other _ => ?_
    simp only [same, not_or, decide_not, Bool.decide_and]
  rw [List.mem_append, not_or] at alone
  have stays : ∀ part : List α, waiter ∉ part → part.filter (fun other => decide (other ≠ waiter)) = part := by
    intro part absent
    refine List.filter_eq_self.mpr fun other member => ?_
    rw [decide_eq_true_iff]
    rintro rfl
    exact absent member
  rw [split, order, List.filter_append, List.filter_cons_of_neg (by simp), stays front alone.1, stays back alone.2]

-- The lock is free, so nobody is on the way to it.
theorem free_empty (state : Handoff α) (fair : state.Fair) (idle : state.leased = false) :
    state.holders = 0 ∧ state.granting = [] ∧ state.releasing = 0 := by
  have lock := fair.lock
  rw [idle, if_neg Bool.false_ne_true] at lock
  exact ⟨by omega, List.eq_nil_of_length_eq_zero (by omega), by omega⟩

-- A lock on its way back is the only one.
theorem returning_alone (state : Handoff α) (fair : state.Fair) (releasing : Nat) (returned : state.releasing = releasing + 1) :
    state.leased = true ∧ releasing = 0 ∧ state.holders = 0 ∧ state.granting = [] := by
  have lock := fair.lock
  cases leased : state.leased with
  | false =>
      rw [leased, if_neg Bool.false_ne_true] at lock
      omega
  | true =>
      rw [leased, if_pos rfl] at lock
      exact ⟨rfl, by omega, by omega, List.eq_nil_of_length_eq_zero (by omega)⟩

-- One who comes in and is not told to leave stands at the end.
theorem order_comes (state : Handoff α) (fair : state.Fair) (front : List α) (waiter : α) (back : List α)
    (starts : state.starting = front ++ waiter :: back) :
    (state.arrivals ++ [waiter]).filter (fun other => other ∉ state.aborting ++ state.aborted) =
      state.granted ++ state.granting ++ state.waiting ++ [waiter] := by
  have apart := (starting_apart state fair front waiter back starts).2
  rw [List.filter_append, fair.order, List.filter_cons_of_pos (by simpa using apart), List.filter_nil]

theorem fair_call (state : Handoff α) (fair : state.Fair) (waiter : α) (fresh : waiter ∉ state.called) :
    Fair { state with called := state.called ++ [waiter], starting := state.starting ++ [waiter] } where
  lock := fair.lock
  idle := fair.idle
  named := by
    intro other
    have named := fair.named other
    simp only [List.count_append]
    omega
  once := by
    intro other
    have once := fair.once other
    rw [List.count_append, List.count_singleton]
    split
    · rename_i same
      rw [beq_iff_eq] at same
      subst same
      have absent := List.count_eq_zero.mpr fresh
      omega
    · exact once
  placed := fair.placed
  order := fair.order

theorem fair_take (state : Handoff α) (fair : state.Fair) (front : List α) (waiter : α) (back : List α)
    (starts : state.starting = front ++ waiter :: back) (idle : state.leased = false) :
    Fair
      { state with
        leased := true
        starting := front ++ back
        arrivals := state.arrivals ++ [waiter]
        granting := state.granting ++ [waiter] } := by
  obtain ⟨holders, granting, releasing⟩ := free_empty state fair idle
  have comes := order_comes state fair front waiter back starts
  refine ⟨?_, (fun locked => nomatch locked), ?_, fair.once, ?_, ?_⟩
  · simp [holders, granting, releasing]
  · intro other
    have named := fair.named other
    simp only [starts, List.count_append, List.count_cons, List.count_nil] at named ⊢
    omega
  · intro other
    have placed := fair.placed other
    simp only [List.count_append]
    omega
  · rw [fair.idle idle] at comes ⊢
    simpa using comes

theorem fair_refuse (state : Handoff α) (fair : state.Fair) (front : List α) (waiter : α) (back : List α)
    (starts : state.starting = front ++ waiter :: back) :
    Fair
      { state with
        starting := front ++ back
        arrivals := state.arrivals ++ [waiter]
        aborting := state.aborting ++ [waiter] } := by
  have apart := (starting_apart state fair front waiter back starts).1
  refine ⟨fair.lock, fair.idle, ?_, fair.once, ?_, ?_⟩
  · intro other
    have named := fair.named other
    simp only [starts, List.count_append, List.count_cons, List.count_nil] at named ⊢
    omega
  · intro other
    have placed := fair.placed other
    simp only [List.count_append]
    omega
  · rw [← fair.order, List.filter_append, List.filter_cons_of_neg (by simp), List.filter_nil, List.append_nil]
    refine List.filter_congr fun other member => ?_
    have different : other ≠ waiter := by
      rintro rfl
      exact apart member
    simp [different]

theorem fair_enqueue (state : Handoff α) (fair : state.Fair) (front : List α) (waiter : α) (back : List α)
    (starts : state.starting = front ++ waiter :: back) (busy : state.leased = true) :
    Fair
      { state with
        starting := front ++ back
        arrivals := state.arrivals ++ [waiter]
        waiting := state.waiting ++ [waiter] } := by
  refine ⟨fair.lock, (fun idle => nomatch busy.symm.trans idle), ?_, fair.once, ?_, ?_⟩
  · intro other
    have named := fair.named other
    simp only [starts, List.count_append, List.count_cons, List.count_nil] at named ⊢
    omega
  · intro other
    have placed := fair.placed other
    simp only [List.count_append]
    omega
  · rw [← List.append_assoc]
    exact order_comes state fair front waiter back starts

theorem fair_cancel (state : Handoff α) (fair : state.Fair) (front : List α) (waiter : α) (back : List α)
    (waits : state.waiting = front ++ waiter :: back) :
    Fair { state with waiting := front ++ back, aborting := state.aborting ++ [waiter] } := by
  have once := arrivals_once state fair waiter
  have placed := fair.placed waiter
  rw [waits, List.count_append, List.count_cons_self] at placed
  refine ⟨fair.lock, ?_, fair.named, fair.once, ?_, ?_⟩
  · intro idle
    have none_ := fair.idle idle
    rw [waits] at none_
    simp at none_
  · intro other
    have here := fair.placed other
    simp only [waits, List.count_append, List.count_cons, List.count_nil] at here ⊢
    omega
  · rw [← List.append_assoc]
    refine filter_without state.arrivals (state.aborting ++ state.aborted) _ _ waiter back ?_ ?_ ?_
    · rw [fair.order, waits, List.append_assoc _ front]
    · refine List.count_eq_zero.mp ?_
      simp only [List.count_append]
      omega
    · intro other
      simp only [List.mem_append, List.mem_singleton]
      grind

theorem fair_grant (state : Handoff α) (fair : state.Fair) (front : List α) (waiter : α) (back : List α)
    (granting : state.granting = front ++ waiter :: back) :
    Fair { state with holders := state.holders + 1, granting := front ++ back, granted := state.granted ++ [waiter] } := by
  have lock := fair.lock
  rw [granting, List.length_append, List.length_cons] at lock
  have alone : front = [] ∧ back = [] := by
    split at lock
    · exact ⟨List.eq_nil_of_length_eq_zero (by omega), List.eq_nil_of_length_eq_zero (by omega)⟩
    · omega
  obtain ⟨rfl, rfl⟩ := alone
  refine ⟨?_, fair.idle, fair.named, fair.once, ?_, ?_⟩
  · simpa [Nat.add_assoc] using lock
  · intro other
    have placed := fair.placed other
    simp only [granting, List.count_append, List.count_cons, List.count_nil] at placed ⊢
    omega
  · simpa [granting] using fair.order

theorem fair_abort (state : Handoff α) (fair : state.Fair) (front : List α) (waiter : α) (back : List α)
    (aborting : state.aborting = front ++ waiter :: back) :
    Fair { state with aborting := front ++ back, aborted := state.aborted ++ [waiter] } := by
  refine ⟨fair.lock, fair.idle, fair.named, fair.once, ?_, ?_⟩
  · intro other
    have placed := fair.placed other
    simp only [aborting, List.count_append, List.count_cons, List.count_nil] at placed ⊢
    omega
  · rw [← fair.order]
    refine List.filter_congr fun other _ => ?_
    simp only [aborting, List.mem_append, List.mem_cons, List.not_mem_nil, or_false]
    grind

theorem fair_drop (state : Handoff α) (fair : state.Fair) (holders : Nat) (held : state.holders = holders + 1) :
    Fair { state with holders := holders, releasing := state.releasing + 1 } := by
  refine ⟨?_, fair.idle, fair.named, fair.once, fair.placed, fair.order⟩
  have lock := fair.lock
  rw [held] at lock
  dsimp only
  omega

theorem fair_pass (state : Handoff α) (fair : state.Fair) (releasing : Nat) (waiter : α) (rest : List α)
    (returned : state.releasing = releasing + 1) (waits : state.waiting = waiter :: rest) :
    Fair { state with releasing := releasing, waiting := rest, granting := state.granting ++ [waiter] } := by
  obtain ⟨leased, alone, holders, granting⟩ := returning_alone state fair releasing returned
  refine ⟨?_, (fun idle => nomatch leased.symm.trans idle), fair.named, fair.once, ?_, ?_⟩
  · simp [leased, alone, holders, granting]
  · intro other
    have placed := fair.placed other
    simp only [waits, List.count_append, List.count_cons, List.count_nil] at placed ⊢
    omega
  · simpa [waits] using fair.order

theorem fair_free (state : Handoff α) (fair : state.Fair) (releasing : Nat) (returned : state.releasing = releasing + 1)
    (none_ : state.waiting = []) : Fair { state with releasing := releasing, leased := false } := by
  obtain ⟨_, alone, holders, granting⟩ := returning_alone state fair releasing returned
  exact ⟨by simp [alone, holders, granting], fun _ => none_, fair.named, fair.once, fair.placed, fair.order⟩

theorem fair_move (state after : Handoff α) (fair : state.Fair) (move : Move state after) : after.Fair := by
  cases move with
  | call waiter fresh => exact fair_call state fair waiter fresh
  | take front waiter back starts idle => exact fair_take state fair front waiter back starts idle
  | refuse front waiter back starts => exact fair_refuse state fair front waiter back starts
  | enqueue front waiter back starts busy => exact fair_enqueue state fair front waiter back starts busy
  | cancel front waiter back waits => exact fair_cancel state fair front waiter back waits
  | grant front waiter back granting => exact fair_grant state fair front waiter back granting
  | abort front waiter back aborting => exact fair_abort state fair front waiter back aborting
  | drop holders held => exact fair_drop state fair holders held
  | pass releasing waiter rest returned waits => exact fair_pass state fair releasing waiter rest returned waits
  | free releasing returned none_ => exact fair_free state fair releasing returned none_

end Handoff

end Library
