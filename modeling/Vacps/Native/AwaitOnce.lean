import Vacps.Native.PromiseAwait

/- What await_value makes of a promise: the first terminal transition, and nothing after it. -/
set_option autoImplicit false

namespace Vacps.Native

open Library

section claim

variable {Value : Type}

-- What is asked of every state: the status is still that of the first transition, the outcome is the first
-- transition's, and a coroutine that waits when the status is terminal is woken.
structure Once (await : Await Value) : Prop where
  kept : (∀ result, await.pc ≠ .done result) → ∀ first ∈ await.applied.head?, await.state.terminal = some first
  outcome : ∀ result, await.pc = .done result →
    (await.called = true → await.applied ≠ []) ∧ ∀ first ∈ await.applied.head?, result = first.outcome
  woken : await.pc = .waiting → await.applied ≠ [] → await.timer ≠ .outstanding
  resumes : await.pc = .waiting → await.timer ≠ .outstanding → await.converting = 0 →
    ∀ answer, ∃ result, (await.perform (.step answer)).pc = .done result

-- And of the run: an outcome stays, and the coroutine suspends only while the status is pending.
structure AwaitedOnce (start : Await Value) (events : List (AwaitEvent Value)) : Prop where
  once : Once (runFrom Await.perform start events)
  stays : ∀ result, (runFrom Await.perform start events).pc = .done result →
    ∀ later, (runFrom Await.perform start (events ++ later)).pc = .done result
  suspends : ∀ event, (runFrom Await.perform start events).pc ≠ .waiting →
    (runFrom Await.perform start (events ++ [event])).pc = .waiting →
    (runFrom Await.perform start (events ++ [event])).state.status = .pending

-- No reaction is called while the argument of a rejection is converted to a text.
def reactsAlone (await : Await Value) (event : AwaitEvent Value) : Prop :=
  match event with
  | .fulfil _ => await.converting = 0
  | .reject => await.converting = 0
  | _ => True

instance (await : Await Value) (event : AwaitEvent Value) : Decidable (reactsAlone await event) :=
  match event with
  | .fulfil _ => inferInstanceAs (Decidable (await.converting = 0))
  | .reject => inferInstanceAs (Decidable (await.converting = 0))
  | .stop _ => .isTrue trivial
  | .cancel => .isTrue trivial
  | .converted _ => .isTrue trivial
  | .expire => .isTrue trivial
  | .step _ => .isTrue trivial

end claim

section settles

variable {Value : Type}

def AwaitPc.early : AwaitPc Value → Bool
  | .entry _ => true
  | .lookup _ => true
  | .caller_stop => true
  | .runtime_stop => true
  | .race => true
  | .on_fulfill => true
  | .on_reject => true
  | _ => false

def AwaitPc.ended : AwaitPc Value → Bool
  | .done _ => true
  | _ => false

structure Settles (await : Await Value) : Prop where
  status : await.pc.ended = false → await.applied = await.state.terminal.toList
  early : await.pc.early = true → await.called = false ∧ await.applied = [] ∧ await.timer = .idle
  late : await.pc.early = false → await.pc.ended = false → await.called = true
  converting : 0 < await.converting → await.converting = 1 ∧ await.state.status = .pending ∧ await.locked = true
  outstanding : await.timer = .outstanding → await.pc = .waiting ∧ await.applied = []
  aborted : await.timer = .completed .operation_aborted → await.applied ≠ []
  known : ∀ message, await.timer ≠ .completed (.other message)
  armed : await.pc = .waiting → await.timer ≠ .idle
  ended : ∀ result, await.pc = .done result →
    (await.called = true → await.applied ≠ []) ∧ ∀ first ∈ await.applied.head?, result = first.outcome

theorem terminal_none (await : Await Value) : await.state.terminal = none ↔ await.state.status = .pending := by
  unfold AwaitState.terminal
  cases await.state.status <;> simp

theorem cancel_quiet (wait : TimerWait) : wait.cancel ≠ .outstanding := by cases wait <;> simp [TimerWait.cancel]

theorem cancel_known (wait : TimerWait) (known : ∀ message, wait ≠ .completed (.other message)) (message : String) :
    wait.cancel ≠ .completed (.other message) := by
  cases wait with
  | idle => simp [TimerWait.cancel]
  | outstanding => simp [TimerWait.cancel]
  | completed ec => exact known message

theorem cancel_armed (wait : TimerWait) (armed : wait ≠ .idle) : wait.cancel ≠ .idle := by
  cases wait <;> simp_all [TimerWait.cancel]

-- Nothing has been settled before then is called.
theorem settles_before (next : Await Value) (early : next.pc.early = true) (called : next.called = false)
    (applied : next.applied = []) (pending : next.state.status = .pending) (timer : next.timer = .idle)
    (idle : next.converting = 0) : Settles next where
  status := by
    intro live
    rw [applied, (terminal_none next).mpr pending, Option.toList_none]
  early := fun _ => ⟨called, applied, timer⟩
  late := by
    intro late
    rw [early] at late
    cases late
  converting := fun busy => absurd idle (Nat.ne_of_gt busy)
  outstanding := fun out => by rw [timer] at out; cases out
  aborted := fun out => by rw [timer] at out; cases out
  known := fun message out => by rw [timer] at out; cases out
  armed := by
    intro waiting
    rw [waiting] at early
    cases early
  ended := by
    intro result done
    rw [done] at early
    cases early

theorem settles_done (next : Await Value) (result : AwaitResult Value) (done : next.pc = .done result) (idle : next.converting = 0)
    (still : next.timer ≠ .outstanding) (aborted : next.timer = .completed .operation_aborted → next.applied ≠ [])
    (known : ∀ message, next.timer ≠ .completed (.other message)) (applied : next.called = true → next.applied ≠ [])
    (agrees : ∀ first ∈ next.applied.head?, result = first.outcome) : Settles next where
  status := fun live => by rw [done] at live; cases live
  early := fun early => by rw [done] at early; cases early
  late := fun _ live => by rw [done] at live; cases live
  converting := fun busy => absurd idle (Nat.ne_of_gt busy)
  outstanding := fun out => absurd out still
  aborted := aborted
  known := known
  armed := fun waiting => by rw [done] at waiting; cases waiting
  ended := by
    intro other same
    rw [done] at same
    cases same
    exact ⟨applied, agrees⟩

variable (await : Await Value) (ready : Settles await)

include ready

theorem early_pending (early : await.pc.early = true) : await.state.status = .pending := by
  have live : await.pc.ended = false := by
    cases here : await.pc <;> rw [here] at early <;> first | rfl | cases early
  have applied := ready.status live
  rw [(ready.early early).2.1] at applied
  exact (terminal_none await).mp (Option.toList_eq_nil_iff.mp applied.symm)

theorem settles_early_return (early : await.pc.early = true) (idle : await.converting = 0) (result : AwaitResult Value) :
    Settles (await.co_return result) := by
  obtain ⟨called, applied, timer⟩ := ready.early early
  refine settles_done _ result rfl idle ?_ ready.aborted ready.known ?_ ?_
  · simp [Await.co_return, timer]
  · intro late
    rw [show await.called = true from late] at called
    cases called
  · intro first member
    rw [show (await.co_return result).applied = [] from applied] at member
    cases member

-- From one part to the next, with no wait of the timer.
theorem settles_later (later : AwaitPc Value) (called : Bool) (late : later.early = false) (live : later.ended = false)
    (running : later ≠ .waiting) (called_ : called = true) (here : await.pc.ended = false) (unarmed : await.pc ≠ .waiting)
    (idle : await.converting = 0) : Settles { await with pc := later, called := called } where
  status := fun _ => ready.status here
  early := fun early => by rw [show later.early = true from early] at late; cases late
  late := fun _ _ => called_
  converting := fun busy => absurd idle (Nat.ne_of_gt busy)
  outstanding := fun out => absurd (ready.outstanding out).1 unarmed
  aborted := ready.aborted
  known := ready.known
  armed := fun waiting => absurd waiting running
  ended := by
    intro result done
    rw [show later = .done result from done] at live
    cases live

-- A transition from a pending status, with the timer's wait ended.
theorem settles_applied (called : await.called = true) (live : await.pc.ended = false) (idle : await.converting = 0)
    (pending : await.state.status = .pending) (terminal : Terminal Value) (state : AwaitState Value)
    (agrees : state.terminal = some terminal) (timer : TimerWait) (quiet : timer ≠ .outstanding)
    (known : ∀ message, timer ≠ .completed (.other message)) (armed : await.pc = .waiting → timer ≠ .idle) :
    Settles { await with state := state, applied := await.applied ++ [terminal], timer := timer } where
  status := by
    intro live
    rw [ready.status live, (terminal_none await).mpr pending, agrees]
    rfl
  early := by
    intro early
    have before := (ready.early early).1
    rw [called] at before
    cases before
  late := fun _ _ => called
  converting := fun busy => absurd idle (Nat.ne_of_gt busy)
  outstanding := fun out => absurd out quiet
  aborted := fun _ => by simp
  known := known
  armed := armed
  ended := by
    intro result done
    rw [show await.pc = .done result from done] at live
    cases live

-- The same with the wait cancelled, as it is on every settlement.
theorem settles_cancelled (called : await.called = true) (live : await.pc.ended = false) (idle : await.converting = 0)
    (pending : await.state.status = .pending) (terminal : Terminal Value) (state : AwaitState Value)
    (agrees : state.terminal = some terminal) : Settles (await.transition terminal state).cancel_timer :=
  settles_applied await ready called live idle pending terminal state agrees await.timer.cancel (cancel_quiet _)
    (cancel_known _ ready.known) fun waiting => cancel_armed _ (ready.armed waiting)

theorem settles_consume (live : await.pc.ended = false) (idle : await.converting = 0) (next : Await Value)
    (otherwise : await.state.status = .pending → Settles next) : Settles (await.try_consume_terminal next) := by
  unfold Await.try_consume_terminal
  cases reached : await.state.terminal with
  | none => exact otherwise ((terminal_none await).mp reached)
  | some terminal =>
      have applied : await.applied = [terminal] := by rw [ready.status live, reached, Option.toList_some]
      refine settles_done _ terminal.outcome rfl idle ?_ ready.aborted ready.known ?_ ?_
      · intro out
        have none_ := (ready.outstanding out).2
        rw [applied] at none_
        cases none_
      · intro _ none_
        rw [show (await.co_return terminal.outcome).applied = [terminal] from applied] at none_
        cases none_
      · intro first member
        rw [show (await.co_return terminal.outcome).applied = [terminal] from applied] at member
        cases member
        rfl

theorem settles_resumed (here : await.pc = .waiting) (idle : await.converting = 0) (ec : TimerError)
    (completed : await.timer = .completed ec) (pending : await.state.status = .pending) : Settles (await.resumed ec) := by
  have live : await.pc.ended = false := by rw [here]; rfl
  have called : await.called = true := ready.late (by rw [here]; rfl) live
  cases ec with
  | success =>
      have expired : Settles (await.transition .timed_out { await.state with status := .timed_out, fulfilled := none }) :=
        settles_applied await ready called live idle pending .timed_out _ rfl await.timer (by rw [completed]; simp) ready.known
          ready.armed
      exact settles_consume _ expired live idle _ fun _ => expired
  | operation_aborted =>
      have applied := ready.aborted completed
      rw [ready.status live, (terminal_none await).mpr pending] at applied
      exact absurd rfl applied
  | other message => exact absurd completed (ready.known message)

theorem settles_race (here : await.pc = .race) (idle : await.converting = 0) :
    Settles (await.apply_cancel_on_owner.try_consume_terminal await.apply_cancel_on_owner) := by
  have early : await.pc.early = true := by rw [here]; rfl
  obtain ⟨called, applied, timer⟩ := ready.early early
  have cancelled : await.apply_cancel_on_owner = (await.transition .cancelled
      { await.state with status := .cancelled, input := none, fulfilled := none }).cancel_timer :=
    if_neg (not_not_intro (early_pending await ready early))
  rw [cancelled]
  refine settles_done _ (Terminal.cancelled.outcome) rfl idle ?_ ?_ ?_ ?_ ?_
  · exact cancel_quiet _
  · intro _ none_
    exact absurd none_ (by simp [Await.try_consume_terminal, Await.cancel_timer, Await.transition, AwaitState.terminal, Await.co_return])
  · exact cancel_known _ ready.known
  · intro late
    rw [show await.called = true from late] at called
    cases called
  · intro first member
    rw [show ((await.transition .cancelled _).cancel_timer.try_consume_terminal _).applied = await.applied ++ [.cancelled] from rfl,
      applied] at member
    cases member
    rfl

-- The timer is waited for only while the status is pending.
theorem settles_suspend (live : await.pc.ended = false) (late : await.pc.early = false) (idle : await.converting = 0)
    (pending : await.state.status = .pending) : Settles { await with pc := .waiting, timer := .outstanding } where
  status := fun _ => ready.status live
  early := fun early => by cases early
  late := fun _ _ => ready.late late live
  converting := fun busy => absurd idle (Nat.ne_of_gt busy)
  outstanding := by
    intro _
    have applied := ready.status live
    rw [(terminal_none await).mpr pending] at applied
    exact ⟨rfl, applied⟩
  aborted := fun out => by cases out
  known := fun message out => by cases out
  armed := fun _ out => by cases out
  ended := fun result done => by cases done

-- A part that stands before the call of then, and the state it leaves for the next such part.
theorem settles_earlier (early : await.pc.early = true) (idle : await.converting = 0) (next : Await Value)
    (early_ : next.pc.early = true) (pending : next.state.status = .pending) (called : next.called = await.called)
    (applied : next.applied = await.applied) (timer : next.timer = await.timer) (converting : next.converting = await.converting) :
    Settles next := by
  obtain ⟨called_, applied_, timer_⟩ := ready.early early
  exact settles_before next early_ (called.trans called_) (applied.trans applied_) pending (timer.trans timer_)
    (converting.trans idle)

theorem settles_await_value (idle : await.converting = 0) (answer : EngineAnswer) : Settles (await.await_value answer) := by
  have between : ∀ (pc later : AwaitPc Value), await.pc = pc → pc.early = false → pc.ended = false → pc ≠ .waiting →
      later.early = false → later.ended = false → later ≠ .waiting → Settles { await with pc := later } := by
    intro pc later here late running unarmed late_ live_ armed
    subst here
    exact settles_later await ready later await.called late_ live_ armed (ready.late late running) running unarmed idle
  have pending := early_pending await ready
  unfold Await.await_value
  split
  case h_1 here => exact settles_early_return await ready (by rw [here]; rfl) idle _
  case h_2 here => split <;> exact settles_early_return await ready (by rw [here]; rfl) idle _
  case h_3 here =>
    have early : await.pc.early = true := by rw [here]; rfl
    split
    · exact settles_early_return await ready early idle _
    · exact settles_earlier await ready early idle _ rfl (pending early) rfl rfl rfl rfl
  case h_4 here => exact settles_early_return await ready (by rw [here]; rfl) idle _
  case h_5 here => exact settles_early_return await ready (by rw [here]; rfl) idle _
  case h_6 here => exact settles_earlier await ready (by rw [here]; rfl) idle _ rfl rfl rfl rfl rfl rfl
  case h_7 here =>
    have early : await.pc.early = true := by rw [here]; rfl
    unfold Await.install_caller
    split <;> exact settles_earlier await ready early idle _ rfl (pending early) rfl rfl rfl rfl
  case h_8 here =>
    have early : await.pc.early = true := by rw [here]; rfl
    unfold Await.install_runtime
    split <;> exact settles_earlier await ready early idle _ rfl (pending early) rfl rfl rfl rfl
  case h_9 here =>
    have early : await.pc.early = true := by rw [here]; rfl
    split
    · exact settles_race await ready here idle
    · exact settles_earlier await ready early idle _ rfl (pending early) rfl rfl rfl rfl
  case h_10 here => exact settles_early_return await ready (by rw [here]; rfl) idle _
  case h_11 here =>
    have early : await.pc.early = true := by rw [here]; rfl
    exact settles_earlier await ready early idle _ rfl (pending early) rfl rfl rfl rfl
  case h_12 here => exact settles_early_return await ready (by rw [here]; rfl) idle _
  case h_13 here =>
    exact settles_later await ready .calling true rfl rfl (by simp) rfl (by rw [here]; rfl) (by simp [here]) idle
  case h_14 text here => exact between .calling (.thrown text) here rfl rfl (by simp) rfl rfl (by simp)
  case h_15 here => exact between .calling .attached here rfl rfl (by simp) rfl rfl (by simp)
  case h_16 text here =>
    split
    · rename_i unsettled
      have called : await.called = true := ready.late (by rw [here]; rfl) (by rw [here]; rfl)
      have live : await.pc.ended = false := by rw [here]; rfl
      have failed : Settles (await.rejectWith (take_current_exception "await_value then call" text)) :=
        settles_cancelled await ready called live idle unsettled _ _ rfl
      exact settles_consume _ failed live idle _ fun _ => failed
    · exact between (.thrown text) .attached here rfl rfl (by simp) rfl rfl (by simp)
  case h_17 here =>
    exact settles_consume await ready (by rw [here]; rfl) idle _ fun _ =>
      between .attached .pumped here rfl rfl (by simp) rfl rfl (by simp)
  case h_18 here =>
    exact settles_consume await ready (by rw [here]; rfl) idle _ fun _ =>
      between .pumped .armed here rfl rfl (by simp) rfl rfl (by simp)
  case h_19 here =>
    have live : await.pc.ended = false := by rw [here]; rfl
    exact settles_consume await ready live idle _ (settles_suspend await ready live (by rw [here]; rfl) idle)
  case h_20 here =>
    split
    · rename_i ec completed
      exact settles_consume await ready (by rw [here]; rfl) idle _ (settles_resumed await ready here idle ec completed)
    · exact ready
  case h_21 => exact ready

-- Requests and posted handlers concern neither the status nor the wait.
theorem settles_posted (caller_stop runtime_stop : AwaitToken) (posted : Nat) :
    Settles { await with caller_stop := caller_stop, runtime_stop := runtime_stop, posted := posted } :=
  ⟨ready.status, ready.early, ready.late, ready.converting, ready.outstanding, ready.aborted, ready.known, ready.armed, ready.ended⟩

omit ready in
theorem locked_running (locked : await.locked = true) : await.called = true ∧ await.pc.ended = false := by
  unfold Await.locked at locked
  split at locked
  · cases locked
  · rename_i running
    refine ⟨locked, ?_⟩
    cases here : await.pc with
    | done result => exact absurd here (running result)
    | _ => rfl

theorem settles_request (source : StopSource) : Settles (await.request_stop source) := by
  cases source with
  | caller =>
      rw [Await.request_stop]
      split
      · exact settles_posted await ready _ _ _
      · exact ready
  | runtime =>
      rw [Await.request_stop]
      split
      · exact settles_posted await ready _ _ _
      · exact ready

theorem settles_cancel (idle : await.converting = 0) (locked : await.locked = true) :
    Settles await.apply_cancel_on_owner := by
  obtain ⟨called, live⟩ := locked_running await locked
  unfold Await.apply_cancel_on_owner
  split
  · exact ready
  · rename_i pending
    exact settles_cancelled await ready called live idle (not_not.mp pending) .cancelled _ rfl

theorem settles_callback (idle : await.converting = 0) (value : Option (OwnedValue Value)) :
    Settles (await.await_callback_entry value) := by
  unfold Await.await_callback_entry
  split
  · exact ready
  · rename_i taken
    simp only [Bool.or_eq_true, Bool.not_eq_true', decide_eq_true_eq, not_or, Bool.not_eq_false, not_not] at taken
    obtain ⟨called, live⟩ := locked_running await taken.1
    cases value with
    | some value => exact settles_cancelled await ready called live idle taken.2 (.fulfilled value) _ rfl
    | none =>
        exact ⟨ready.status, ready.early, ready.late, fun _ => ⟨by rw [idle], taken.2, taken.1⟩, ready.outstanding, ready.aborted,
          ready.known, ready.armed, ready.ended⟩

-- The end of the one conversion there can be, its status still pending.
theorem settles_converted (busy : 0 < await.converting) (text : Option String) :
    Settles ({ await with converting := await.converting - 1 }.rejectWith (error_from_js_value text)) := by
  obtain ⟨one, pending, locked⟩ := ready.converting busy
  obtain ⟨called, live⟩ := locked_running await locked
  have idle : await.converting - 1 = 0 := by rw [one]
  have left : Settles { await with converting := await.converting - 1 } :=
    ⟨ready.status, ready.early, ready.late, fun busy => absurd idle (Nat.ne_of_gt busy), ready.outstanding, ready.aborted,
      ready.known, ready.armed, ready.ended⟩
  exact settles_cancelled _ left called live idle pending (.rejected (error_from_js_value text)) _ rfl

theorem settles_expire (out : await.timer = .outstanding) : Settles { await with timer := .completed .success } := by
  have here := (ready.outstanding out).1
  refine ⟨ready.status, ?_, ready.late, ready.converting, (fun out => by cases out), (fun out => by cases out),
    (fun message out => by cases out), (fun _ out => by cases out), ready.ended⟩
  intro early
  rw [show await.pc = .waiting from here] at early
  cases early

theorem settles_perform (event : AwaitEvent Value) (alone : reactsAlone await event) : Settles (await.perform event) := by
  cases event with
  | stop source => exact settles_request await ready source
  | cancel =>
      rw [Await.perform]
      split
      · rename_i runs
        exact settles_cancel _ (settles_posted await ready _ _ _) runs.2.1 runs.2.2
      · exact ready
  | fulfil value => exact settles_callback await ready alone (some value)
  | reject => exact settles_callback await ready alone none
  | converted text =>
      rw [Await.perform]
      split
      · rename_i busy
        exact settles_converted await ready busy text
      · exact ready
  | expire =>
      rw [Await.perform]
      split
      · rename_i passed
        exact settles_expire await ready passed.2
      · exact ready
  | step answer =>
      rw [Await.perform]
      split
      · rename_i idle
        exact settles_await_value await ready idle answer
      · exact ready

theorem settles_resumes (here : await.pc = .waiting) (quiet : await.timer ≠ .outstanding) (idle : await.converting = 0)
    (answer : EngineAnswer) : ∃ result, (await.perform (.step answer)).pc = .done result := by
  have performed : await.perform (.step answer) = await.await_value answer := if_pos idle
  rw [performed]
  unfold Await.await_value
  rw [here]
  cases waited : await.timer with
  | idle => exact absurd waited (ready.armed here)
  | outstanding => exact absurd waited quiet
  | completed ec =>
      dsimp only
      unfold Await.try_consume_terminal
      cases await.state.terminal with
      | some terminal => exact ⟨terminal.outcome, rfl⟩
      | none =>
          cases ec with
          | success => exact ⟨Terminal.timed_out.outcome, rfl⟩
          | operation_aborted => exact ⟨_, rfl⟩
          | other message => exact ⟨_, rfl⟩

theorem settles_once : Once await where
  kept := by
    intro running first member
    have live : await.pc.ended = false := by
      cases here : await.pc with
      | done result => exact absurd here (running result)
      | _ => rfl
    rw [ready.status live] at member
    cases reached : await.state.terminal with
    | none =>
        rw [reached] at member
        cases member
    | some terminal =>
        rw [reached] at member
        exact congrArg some (Option.some.inj member)
  outcome := ready.ended
  woken := fun _ applied out => applied (ready.outstanding out).2
  resumes := settles_resumes await ready

end settles

section whole

variable {Value : Type}

theorem settles_new (value : InputValue Value) (timeout : Int) (caller_stop runtime_stop : AwaitToken) :
    Settles (newAwait value timeout caller_stop runtime_stop) :=
  settles_before _ rfl rfl rfl rfl rfl rfl

theorem done_stays (await : Await Value) (result : AwaitResult Value) (done : await.pc = .done result) (event : AwaitEvent Value) :
    (await.perform event).pc = .done result := by
  have unlocked : await.locked = false := by rw [Await.locked, done]
  cases event with
  | stop source => cases source <;> (rw [Await.perform, Await.request_stop]; split <;> exact done)
  | cancel => simp [Await.perform, unlocked, done]
  | fulfil value => simp [Await.perform, Await.await_callback_entry, unlocked, done]
  | reject => simp [Await.perform, Await.await_callback_entry, unlocked, done]
  | converted text =>
      rw [Await.perform]
      split <;> exact done
  | expire =>
      rw [Await.perform]
      split <;> exact done
  | step answer =>
      rw [Await.perform]
      split
      · unfold Await.await_value
        rw [done]
        exact done
      · exact done

-- Handlers and reactions leave the coroutine where it stands.
theorem pc_kept (await : Await Value) (event : AwaitEvent Value) (other : ∀ answer, event ≠ .step answer) :
    (await.perform event).pc = await.pc := by
  cases event with
  | stop source => cases source <;> (rw [Await.perform, Await.request_stop]; split <;> rfl)
  | cancel =>
      rw [Await.perform, Await.apply_cancel_on_owner]
      split
      · split <;> rfl
      · rfl
  | fulfil value =>
      rw [Await.perform, Await.await_callback_entry]
      split <;> rfl
  | reject =>
      rw [Await.perform, Await.await_callback_entry]
      split <;> rfl
  | converted text =>
      rw [Await.perform]
      split <;> rfl
  | expire =>
      rw [Await.perform]
      split <;> rfl
  | step answer => exact absurd rfl (other answer)

theorem consume_waiting (await next : Await Value) (waits : (await.try_consume_terminal next).pc = .waiting) :
    await.state.status = .pending ∧ await.try_consume_terminal next = next := by
  unfold Await.try_consume_terminal at waits ⊢
  cases reached : await.state.terminal with
  | some terminal =>
      rw [reached] at waits
      cases waits
  | none => exact ⟨(terminal_none await).mp reached, rfl⟩

theorem consume_elsewhere (await next : Await Value) (unarmed : next.pc ≠ .waiting) :
    (await.try_consume_terminal next).pc ≠ .waiting := by
  intro waits
  rw [(consume_waiting await next waits).2] at waits
  exact unarmed waits

-- The one way into the wait.
theorem value_waits (await : Await Value) (answer : EngineAnswer) (before : await.pc ≠ .waiting)
    (after : (await.await_value answer).pc = .waiting) : (await.await_value answer).state.status = .pending := by
  unfold Await.await_value at after ⊢
  split at after
  case h_9 here =>
    split at after
    · have kept : await.apply_cancel_on_owner.pc ≠ .waiting := by
        rw [Await.apply_cancel_on_owner]
        split <;> exact before
      exact absurd after (consume_elsewhere _ _ kept)
    · cases after
  case h_16 here =>
    split at after
    · exact absurd after (consume_elsewhere _ _ before)
    · cases after
  case h_17 here => exact absurd after (consume_elsewhere _ _ (by simp))
  case h_18 here => exact absurd after (consume_elsewhere _ _ (by simp))
  case h_19 here =>
    obtain ⟨pending, same⟩ := consume_waiting _ _ after
    rw [same]
    exact pending
  case h_20 here => exact absurd here before
  case h_21 => exact absurd after before
  case h_2 => split at after <;> cases after
  case h_3 => split at after <;> cases after
  all_goals cases after

theorem suspends_pending (await : Await Value) (event : AwaitEvent Value) (before : await.pc ≠ .waiting)
    (after : (await.perform event).pc = .waiting) : (await.perform event).state.status = .pending := by
  by_cases step : ∃ answer, event = .step answer
  · obtain ⟨answer, rfl⟩ := step
    rw [Await.perform] at after ⊢
    split at after
    · rename_i idle
      rw [if_pos idle]
      exact value_waits await answer before after
    · exact absurd after before
  · rw [pc_kept await event fun answer same => step ⟨answer, same⟩] at after
    exact absurd after before

end whole

def attachedEvents : List (AwaitEvent Nat) :=
  [.step .returned, .step .returned, .step .returned, .step .returned, .step .returned, .step .returned, .step .returned]

def idleToken : AwaitToken := ⟨true, false⟩

-- then calls its reject with an object whose toString calls its fulfil.
def nestedEvents : List (AwaitEvent Nat) :=
  attachedEvents ++ [.reject, .fulfil (some 1), .converted (some "no"), .step .returned, .step .returned]

end Vacps.Native
