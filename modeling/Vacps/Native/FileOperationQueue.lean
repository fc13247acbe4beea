import Mathlib.Data.List.Nodup
import Vacps.Library.Handoff
import Vacps.Library.Runs

/- vacps-native/src/modules/detail/file_operation_queue.hpp: the queue of one file handle on its executor. What
   is posted or dispatched may run in any order, one piece at a time; a stop may be requested at any time. -/
set_option autoImplicit false

namespace Vacps.Native

open Library

abbrev StopToken : Type := Nat

-- The completion is the one of the waiter's call of async_acquire.
structure Entry where
  id : UInt64
  waiter : Nat
  stop_cb : Option StopToken

inductive Work where
  | initiate (waiter : Nat) (stop : Option StopToken)
  -- The handler gets a lease, or operation_aborted and none.
  | complete (waiter : Nat) (granted : Bool)
  | cancel_waiter (id : UInt64)
  | release

-- Registering a waiter, between the points that a stop from another thread can fall on.
inductive Registering where
  | emplace (entry : Entry) (stop : Option StopToken)
  | check (entry : Entry) (stop : Option StopToken)
  | push (entry : Entry)

def Registering.entry : Registering → Entry
  | .emplace entry _ => entry
  | .check entry _ => entry
  | .push entry => entry

structure FileOperationQueue where
  leased_ : Bool
  next_id_ : UInt64
  waiters_ : List Entry

-- The queue, its executor and its clients. arrivals has the waiters in the order their initiation ran, holders
-- the leases that are out, completed the completions that have run.
structure QueueRun where
  queue : FileOperationQueue
  posted : List Work
  registering : Option Registering
  stopped : List StopToken
  calls : Nat
  arrivals : List Nat
  holders : List Nat
  completed : List (Nat × Bool)

def stop_requested (stopped : List StopToken) (stop : Option StopToken) : Bool :=
  match stop with
  | some token => stopped.contains token
  | none => false

def QueueRun.post (run : QueueRun) (work : Work) : QueueRun := { run with posted := run.posted ++ [work] }

-- What async_acquire dispatches.
def QueueRun.initiate (run : QueueRun) (waiter : Nat) (stop : Option StopToken) : QueueRun :=
  let arrived := { run with arrivals := run.arrivals ++ [waiter] }
  if !run.queue.leased_ then
    if stop_requested run.stopped stop then arrived.post (.complete waiter false)
    else { arrived with queue := { run.queue with leased_ := true } }.post (.complete waiter true)
  else
    let id := run.queue.next_id_ + 1
    { arrived with
      queue := { run.queue with next_id_ := id }
      registering := some (.emplace ⟨id, waiter, none⟩ stop) }

-- A stop_callback on a token that is stopped already calls at once.
def QueueRun.register (run : QueueRun) : Registering → QueueRun
  | .emplace entry none => { run with registering := some (.check entry none) }
  | .emplace entry (some token) =>
      let armed := { run with registering := some (.check { entry with stop_cb := some token } (some token)) }
      if run.stopped.contains token then armed.post (.cancel_waiter entry.id) else armed
  | .check entry stop =>
      if stop_requested run.stopped stop then { run with registering := none }.post (.complete entry.waiter false)
      else { run with registering := some (.push entry) }
  | .push entry => { run with registering := none, queue := { run.queue with waiters_ := run.queue.waiters_ ++ [entry] } }

def QueueRun.release (run : QueueRun) : QueueRun :=
  match run.queue.waiters_ with
  | next :: rest => { run with queue := { run.queue with waiters_ := rest } }.post (.complete next.waiter true)
  | [] => { run with queue := { run.queue with leased_ := false } }

def QueueRun.cancel_waiter (run : QueueRun) (id : UInt64) : QueueRun :=
  match run.queue.waiters_.find? (·.id == id) with
  | some entry =>
      { run with queue := { run.queue with waiters_ := run.queue.waiters_.eraseP (·.id == id) } }.post
        (.complete entry.waiter false)
  | none => run

def QueueRun.perform (run : QueueRun) : Work → QueueRun
  | .initiate waiter stop => run.initiate waiter stop
  | .complete waiter granted =>
      { run with
        completed := run.completed ++ [(waiter, granted)]
        holders := if granted then run.holders ++ [waiter] else run.holders }
  | .cancel_waiter id => run.cancel_waiter id
  | .release => run.release

-- The entries a stop_callback on the token is registered for.
def QueueRun.listeners (run : QueueRun) (token : StopToken) : List Entry :=
  (run.queue.waiters_ ++ (run.registering.map Registering.entry).toList).filter (·.stop_cb == some token)

inductive QueueEvent where
  | async_acquire (stop : Option StopToken)
  | request_stop (token : StopToken)
  -- The executor runs a piece of posted work, or goes on with a registration.
  | runs (i : Nat)
  | registers
  -- The client drops the lease it got for the waiter.
  | drop (waiter : Nat)

def QueueRun.next (run : QueueRun) : QueueEvent → QueueRun
  | .async_acquire stop => { run.post (.initiate run.calls stop) with calls := run.calls + 1 }
  | .request_stop token =>
      if run.stopped.contains token then run
      else
        { run with
          stopped := token :: run.stopped
          posted := run.posted ++ (run.listeners token).map fun entry => .cancel_waiter entry.id }
  | .runs i =>
      match run.registering, run.posted[i]? with
      | none, some work => { run with posted := run.posted.eraseIdx i }.perform work
      | _, _ => run
  | .registers =>
      match run.registering with
      | some registering => run.register registering
      | none => run
  | .drop waiter =>
      if waiter ∈ run.holders then { run with holders := run.holders.erase waiter }.post .release else run

def newQueue : QueueRun := ⟨⟨false, 0, []⟩, [], none, [], 0, [], [], []⟩

section places

-- What a piece of posted work still does for a waiter.
def Work.starts : Work → Option Nat
  | .initiate waiter _ => some waiter
  | _ => none

def Work.grants : Work → Option Nat
  | .complete waiter true => some waiter
  | _ => none

def Work.aborts : Work → Option Nat
  | .complete waiter false => some waiter
  | _ => none

def Work.releases : Work → Bool
  | .release => true
  | _ => false

variable (run : QueueRun)

def QueueRun.granted : List Nat := (run.completed.filter fun completion => completion.2).map Prod.fst

def QueueRun.aborted : List Nat := (run.completed.filter fun completion => !completion.2).map Prod.fst

-- The lease and the waiters, by where they are.
def QueueRun.handoff : Handoff Nat where
  leased := run.queue.leased_
  holders := run.holders.length
  releasing := run.posted.countP Work.releases
  called := List.range run.calls
  starting := run.posted.filterMap Work.starts
  arrivals := run.arrivals
  waiting := run.queue.waiters_.map Entry.waiter ++ (run.registering.map fun registering => registering.entry.waiter).toList
  granting := run.posted.filterMap Work.grants
  aborting := run.posted.filterMap Work.aborts
  granted := run.granted
  aborted := run.aborted

end places

section steps

variable (run : QueueRun)

-- The step keeps everyone's place, or makes one move of the handover.
def Moves (after : QueueRun) : Prop := after.handoff = run.handoff ∨ Handoff.Move run.handoff after.handoff

theorem handoff_post (work : Work) :
    (run.post work).handoff =
      { run.handoff with
        releasing := run.handoff.releasing + if work.releases then 1 else 0
        starting := run.handoff.starting ++ work.starts.toList
        granting := run.handoff.granting ++ work.grants.toList
        aborting := run.handoff.aborting ++ work.aborts.toList } := by
  have last : ∀ read : Work → Option Nat, (run.posted ++ [work]).filterMap read = run.posted.filterMap read ++ (read work).toList := by
    intro read
    rw [List.filterMap_append, List.filterMap_cons, List.filterMap_nil]
    cases read work <;> rfl
  simp [QueueRun.post, QueueRun.handoff, QueueRun.granted, QueueRun.aborted, last, List.countP_append, List.countP_singleton]

theorem acquire_moves (stop : Option StopToken) : Moves run (run.next (.async_acquire stop)) := by
  have fresh : run.calls ∉ run.handoff.called := by simp [QueueRun.handoff]
  have same : (run.next (.async_acquire stop)).handoff =
      { run.handoff with
        called := run.handoff.called ++ [run.calls]
        starting := run.handoff.starting ++ [run.calls] } := by
    simp [QueueRun.next, QueueRun.post, QueueRun.handoff, QueueRun.granted, QueueRun.aborted, Work.starts, Work.grants,
      Work.aborts, Work.releases, List.range_succ]
  exact Or.inr (same ▸ Handoff.Move.call run.handoff run.calls fresh)

theorem stop_moves (token : StopToken) : Moves run (run.next (.request_stop token)) := by
  refine Or.inl ?_
  have quiet : ∀ read : Work → Option Nat, (∀ id, read (.cancel_waiter id) = none) →
      ((run.listeners token).map fun entry => Work.cancel_waiter entry.id).filterMap read = [] := by
    intro read nothing
    rw [List.filterMap_map]
    exact List.filterMap_eq_nil_iff.mpr fun entry _ => nothing entry.id
  have none_ : ((run.listeners token).map fun entry => Work.cancel_waiter entry.id).countP Work.releases = 0 := by
    simp [Work.releases]
  simp only [QueueRun.next]
  split
  · rfl
  · simp only [QueueRun.handoff, QueueRun.granted, QueueRun.aborted, List.filterMap_append, List.countP_append, none_,
      quiet Work.starts fun _ => rfl, quiet Work.grants fun _ => rfl, quiet Work.aborts fun _ => rfl, List.append_nil,
      Nat.add_zero]

theorem drop_moves (waiter : Nat) : Moves run (run.next (.drop waiter)) := by
  simp only [QueueRun.next]
  split
  · rename_i held
    have shorter := List.length_erase_of_mem held
    have some_ := List.length_pos_of_mem held
    have same : ({ run with holders := run.holders.erase waiter }.post .release).handoff =
        { run.handoff with holders := run.holders.length - 1, releasing := run.handoff.releasing + 1 } := by
      rw [handoff_post]
      simp [QueueRun.handoff, QueueRun.granted, QueueRun.aborted, Work.releases, Work.starts, Work.grants, Work.aborts, shorter]
    exact Or.inr (same ▸ Handoff.Move.drop run.handoff (run.holders.length - 1) (by simp only [QueueRun.handoff]; omega))
  · exact Or.inl rfl

theorem registers_moves : Moves run (run.next .registers) := by
  simp only [QueueRun.next]
  cases registering : run.registering with
  | none => exact Or.inl rfl
  | some phase =>
      cases phase with
      | emplace entry stop =>
          refine Or.inl ?_
          cases stop with
          | none => simp [QueueRun.register, QueueRun.handoff, QueueRun.granted, QueueRun.aborted, registering, Registering.entry]
          | some token =>
              simp only [QueueRun.register]
              split
              · rw [handoff_post]
                simp [QueueRun.handoff, QueueRun.granted, QueueRun.aborted, registering, Registering.entry, Work.starts,
                  Work.grants, Work.aborts, Work.releases]
              · simp [QueueRun.handoff, QueueRun.granted, QueueRun.aborted, registering, Registering.entry]
      | check entry stop =>
          simp only [QueueRun.register]
          split
          · have waits : run.handoff.waiting = run.queue.waiters_.map Entry.waiter ++ entry.waiter :: [] := by
              simp [QueueRun.handoff, registering, Registering.entry]
            have same : ({ run with registering := none }.post (.complete entry.waiter false)).handoff =
                { run.handoff with
                  waiting := run.queue.waiters_.map Entry.waiter ++ []
                  aborting := run.handoff.aborting ++ [entry.waiter] } := by
              rw [handoff_post]
              simp [QueueRun.handoff, QueueRun.granted, QueueRun.aborted, Work.starts, Work.grants, Work.aborts, Work.releases]
            exact Or.inr (same ▸ Handoff.Move.cancel run.handoff _ entry.waiter [] waits)
          · refine Or.inl ?_
            simp [QueueRun.handoff, QueueRun.granted, QueueRun.aborted, registering, Registering.entry]
      | push entry =>
          refine Or.inl ?_
          simp [QueueRun.register, QueueRun.handoff, QueueRun.granted, QueueRun.aborted, registering, Registering.entry]

end steps

section works

variable (run : QueueRun) (front back : List Work)

-- The executor has taken a piece of work out of what is posted.
def QueueRun.without (run : QueueRun) (front back : List Work) : QueueRun := { run with posted := front ++ back }

theorem initiate_moves (waiter : Nat) (stop : Option StopToken) (posted : run.posted = front ++ .initiate waiter stop :: back)
    (idle : run.registering = none) : Moves run ((run.without front back).initiate waiter stop) := by
  have starts : run.handoff.starting = front.filterMap Work.starts ++ waiter :: back.filterMap Work.starts := by
    simp [QueueRun.handoff, posted, Work.starts]
  simp only [QueueRun.initiate]
  by_cases leased : run.queue.leased_ = true
  · have same : ({ run.without front back with
          arrivals := run.arrivals ++ [waiter]
          queue := { run.queue with next_id_ := run.queue.next_id_ + 1 }
          registering := some (.emplace ⟨run.queue.next_id_ + 1, waiter, none⟩ stop) } : QueueRun).handoff =
        { run.handoff with
          starting := front.filterMap Work.starts ++ back.filterMap Work.starts
          arrivals := run.handoff.arrivals ++ [waiter]
          waiting := run.handoff.waiting ++ [waiter] } := by
      simp [QueueRun.without, QueueRun.handoff, QueueRun.granted, QueueRun.aborted, posted, idle, Registering.entry,
        List.filterMap_cons, Work.starts, Work.grants, Work.aborts, Work.releases]
    have move := Handoff.Move.enqueue run.handoff _ waiter _ starts leased
    rw [if_neg (show ¬(!(run.without front back).queue.leased_) = true by simp [QueueRun.without, leased])]
    exact Or.inr (same ▸ move)
  · rw [Bool.not_eq_true] at leased
    have chosen : (!(run.without front back).queue.leased_) = true := by simp [QueueRun.without, leased]
    rw [if_pos chosen]
    by_cases stopped : stop_requested run.stopped stop = true
    · have same : ({ run.without front back with arrivals := run.arrivals ++ [waiter] }.post (.complete waiter false)).handoff =
          { run.handoff with
            starting := front.filterMap Work.starts ++ back.filterMap Work.starts
            arrivals := run.handoff.arrivals ++ [waiter]
            aborting := run.handoff.aborting ++ [waiter] } := by
        rw [handoff_post]
        simp [QueueRun.without, QueueRun.handoff, QueueRun.granted, QueueRun.aborted, posted, List.filterMap_cons,
          Work.starts, Work.grants, Work.aborts, Work.releases]
      have move := Handoff.Move.refuse run.handoff _ waiter _ starts
      rw [if_pos (show stop_requested (run.without front back).stopped stop = true from stopped)]
      exact Or.inr (same ▸ move)
    · have same : ({ run.without front back with
            arrivals := run.arrivals ++ [waiter]
            queue := { run.queue with leased_ := true } }.post (.complete waiter true)).handoff =
          { run.handoff with
            leased := true
            starting := front.filterMap Work.starts ++ back.filterMap Work.starts
            arrivals := run.handoff.arrivals ++ [waiter]
            granting := run.handoff.granting ++ [waiter] } := by
        rw [handoff_post]
        simp [QueueRun.without, QueueRun.handoff, QueueRun.granted, QueueRun.aborted, posted, List.filterMap_cons,
          Work.starts, Work.grants, Work.aborts, Work.releases]
      have move := Handoff.Move.take run.handoff _ waiter _ starts leased
      rw [if_neg (show ¬stop_requested (run.without front back).stopped stop = true from stopped)]
      exact Or.inr (same ▸ move)

theorem complete_moves (waiter : Nat) (granted : Bool) (posted : run.posted = front ++ .complete waiter granted :: back) :
    Moves run ((run.without front back).perform (.complete waiter granted)) := by
  cases granted with
  | true =>
      have granting : run.handoff.granting = front.filterMap Work.grants ++ waiter :: back.filterMap Work.grants := by
        simp [QueueRun.handoff, posted, Work.grants]
      have same : ((run.without front back).perform (.complete waiter true)).handoff =
          { run.handoff with
            holders := run.handoff.holders + 1
            granting := front.filterMap Work.grants ++ back.filterMap Work.grants
            granted := run.handoff.granted ++ [waiter] } := by
        simp [QueueRun.perform, QueueRun.without, QueueRun.handoff, QueueRun.granted, QueueRun.aborted, posted,
          List.filterMap_cons, Work.starts, Work.aborts, Work.releases]
      exact Or.inr (same ▸ Handoff.Move.grant run.handoff _ waiter _ granting)
  | false =>
      have aborting : run.handoff.aborting = front.filterMap Work.aborts ++ waiter :: back.filterMap Work.aborts := by
        simp [QueueRun.handoff, posted, Work.aborts]
      have same : ((run.without front back).perform (.complete waiter false)).handoff =
          { run.handoff with
            aborting := front.filterMap Work.aborts ++ back.filterMap Work.aborts
            aborted := run.handoff.aborted ++ [waiter] } := by
        simp [QueueRun.perform, QueueRun.without, QueueRun.handoff, QueueRun.granted, QueueRun.aborted, posted,
          List.filterMap_cons, Work.starts, Work.grants, Work.releases]
      exact Or.inr (same ▸ Handoff.Move.abort run.handoff _ waiter _ aborting)

theorem cancel_moves (id : UInt64) (posted : run.posted = front ++ .cancel_waiter id :: back) (idle : run.registering = none) :
    Moves run ((run.without front back).cancel_waiter id) := by
  have calm : (run.without front back).handoff = run.handoff := by
    simp [QueueRun.without, QueueRun.handoff, QueueRun.granted, QueueRun.aborted, posted, List.filterMap_cons, Work.starts,
      Work.grants, Work.aborts, Work.releases]
  unfold QueueRun.cancel_waiter
  cases found : (run.without front back).queue.waiters_.find? (·.id == id) with
  | none => exact Or.inl calm
  | some entry =>
      obtain ⟨named, first, rest, split, others⟩ := List.find?_eq_some_iff_append.mp found
      have left : (run.without front back).queue.waiters_.eraseP (·.id == id) = first ++ rest := by
        rw [split, List.eraseP_append_right _ (fun other member => by simpa using others other member)]
        simp [named]
      have waits : run.handoff.waiting = first.map Entry.waiter ++ entry.waiter :: rest.map Entry.waiter := by
        have here : run.queue.waiters_ = first ++ entry :: rest := split
        simp [QueueRun.handoff, here, idle]
      have same : (({ run.without front back with
            queue := { run.queue with waiters_ := first ++ rest } } : QueueRun).post (.complete entry.waiter false)).handoff =
          { run.handoff with
            waiting := first.map Entry.waiter ++ rest.map Entry.waiter
            aborting := run.handoff.aborting ++ [entry.waiter] } := by
        rw [handoff_post]
        simp [QueueRun.without, QueueRun.handoff, QueueRun.granted, QueueRun.aborted, posted, idle, List.filterMap_cons,
          Work.starts, Work.grants, Work.aborts, Work.releases]
      simp only [left]
      exact Or.inr (same ▸ Handoff.Move.cancel run.handoff _ entry.waiter _ waits)

theorem release_moves (posted : run.posted = front ++ .release :: back) (idle : run.registering = none) :
    Moves run (run.without front back).release := by
  have returned : run.handoff.releasing = front.countP Work.releases + back.countP Work.releases + 1 := by
    have last : (Work.release :: back).countP Work.releases = back.countP Work.releases + 1 := List.countP_cons_of_pos rfl
    simp only [QueueRun.handoff, posted, List.countP_append, last, Nat.add_assoc]
  unfold QueueRun.release
  cases waiters : (run.without front back).queue.waiters_ with
  | nil =>
      have here : run.queue.waiters_ = [] := waiters
      have none_ : run.handoff.waiting = [] := by simp [QueueRun.handoff, here, idle]
      have same : ({ run.without front back with queue := { run.queue with leased_ := false } } : QueueRun).handoff =
          { run.handoff with
            releasing := front.countP Work.releases + back.countP Work.releases
            leased := false } := by
        simp [QueueRun.without, QueueRun.handoff, QueueRun.granted, QueueRun.aborted, posted, List.filterMap_cons,
          Work.starts, Work.grants, Work.aborts]
      exact Or.inr (same ▸ Handoff.Move.free run.handoff _ returned none_)
  | cons next rest =>
      have here : run.queue.waiters_ = next :: rest := waiters
      have waits : run.handoff.waiting = next.waiter :: rest.map Entry.waiter := by simp [QueueRun.handoff, here, idle]
      have same : (({ run.without front back with queue := { run.queue with waiters_ := rest } } : QueueRun).post
            (.complete next.waiter true)).handoff =
          { run.handoff with
            releasing := front.countP Work.releases + back.countP Work.releases
            waiting := rest.map Entry.waiter
            granting := run.handoff.granting ++ [next.waiter] } := by
        rw [handoff_post]
        simp [QueueRun.without, QueueRun.handoff, QueueRun.granted, QueueRun.aborted, posted, idle, List.filterMap_cons,
          Work.starts, Work.grants, Work.aborts, Work.releases]
      exact Or.inr (same ▸ Handoff.Move.pass run.handoff _ next.waiter _ returned waits)

theorem runs_moves (i : Nat) : Moves run (run.next (.runs i)) := by
  simp only [QueueRun.next]
  cases idle : run.registering with
  | some registering => exact Or.inl rfl
  | none =>
      cases found : run.posted[i]? with
      | none => exact Or.inl rfl
      | some work =>
          obtain ⟨bound, here⟩ := List.getElem?_eq_some_iff.mp found
          have taken : ({ run with posted := run.posted.eraseIdx i, registering := none } : QueueRun) =
              run.without (run.posted.take i) (run.posted.drop (i + 1)) := by
            rw [QueueRun.without, List.eraseIdx_eq_take_drop_succ, idle]
          have posted : run.posted = run.posted.take i ++ work :: run.posted.drop (i + 1) := by
            rw [← here, List.getElem_cons_drop, List.take_append_drop]
          dsimp only
          rw [taken]
          cases work with
          | initiate waiter stop => exact initiate_moves run _ _ waiter stop posted idle
          | complete waiter granted => exact complete_moves run _ _ waiter granted posted
          | cancel_waiter id => exact cancel_moves run _ _ id posted idle
          | release => exact release_moves run _ _ posted idle

theorem next_moves (event : QueueEvent) : Moves run (run.next event) := by
  cases event with
  | async_acquire stop => exact acquire_moves run stop
  | request_stop token => exact stop_moves run token
  | runs i => exact runs_moves run i
  | registers => exact registers_moves run
  | drop waiter => exact drop_moves run waiter

end works

section mutex

theorem fair_run (events : List QueueEvent) : (runFrom QueueRun.next newQueue events).handoff.Fair := by
  refine run_holds QueueRun.next (fun run => run.handoff.Fair) ?_ newQueue events ?_
  · intro run event fair
    rcases next_moves run event with same | move
    · rwa [same]
    · exact Handoff.fair_move _ _ fair move
  · exact ⟨rfl, fun _ => rfl, fun _ => rfl, fun _ => Nat.zero_le _, fun _ => rfl, rfl⟩

def QueueRun.completions (run : QueueRun) (waiter : Nat) : Nat := (run.completed.map Prod.fst).count waiter

theorem completions_split (run : QueueRun) (waiter : Nat) :
    run.completions waiter = run.granted.count waiter + run.aborted.count waiter := by
  unfold QueueRun.completions QueueRun.granted QueueRun.aborted
  induction run.completed with
  | nil => rfl
  | cons completion rest ih =>
      obtain ⟨other, granted⟩ := completion
      cases granted <;> simp [List.count_cons, ih] <;> omega

-- The waiters are numbered by their calls of async_acquire.
structure ExactMutex (run : QueueRun) : Prop where
  -- A lease is out, on its way to a waiter, or on its way back.
  one_lease : run.holders.length + run.handoff.granting.length + run.handoff.releasing ≤ 1
  once : ∀ waiter, run.completions waiter ≤ 1
  -- Nobody is lost, and nobody is in two places.
  kept : ∀ waiter < run.calls,
    run.handoff.starting.count waiter + run.handoff.waiting.count waiter + run.handoff.granting.count waiter +
      run.handoff.aborting.count waiter + run.completions waiter = 1
  in_order : run.arrivals.filter (fun waiter => waiter ∉ run.handoff.aborting ++ run.aborted) =
    run.granted ++ run.handoff.granting ++ run.handoff.waiting
  none_left : run.holders = [] → run.handoff.granting = [] → run.handoff.releasing = 0 → run.queue.waiters_ = []
  settled : run.posted = [] → run.registering = none → run.holders = [] → ∀ waiter < run.calls, run.completions waiter = 1

theorem idle_empty (run : QueueRun) (fair : run.handoff.Fair) (holders : run.holders = []) (granting : run.handoff.granting = [])
    (releasing : run.handoff.releasing = 0) : run.handoff.waiting = [] := by
  refine fair.idle ?_
  have lock := fair.lock
  have held : run.handoff.holders = 0 := by simp [QueueRun.handoff, holders]
  rw [held, granting, releasing] at lock
  cases leased : run.handoff.leased with
  | false => rfl
  | true =>
      rw [leased] at lock
      simp at lock

theorem kept_once (run : QueueRun) (fair : run.handoff.Fair) (waiter : Nat) :
    run.handoff.starting.count waiter + run.handoff.waiting.count waiter + run.handoff.granting.count waiter +
      run.handoff.aborting.count waiter + run.completions waiter = (List.range run.calls).count waiter := by
  have named := fair.named waiter
  have placed := fair.placed waiter
  have completions := completions_split run waiter
  change _ = (List.range run.calls).count waiter at named
  change _ = _ + run.granted.count waiter + run.aborted.count waiter at placed
  omega

-- The queue is a mutex with first come, first served, whatever stops fall where.
theorem exact_mutex (events : List QueueEvent) : ExactMutex (runFrom QueueRun.next newQueue events) := by
  generalize reached : runFrom QueueRun.next newQueue events = run
  have fair : run.handoff.Fair := reached ▸ fair_run events
  have kept : ∀ waiter < run.calls, _ := fun waiter bound =>
    (kept_once run fair waiter).trans (List.count_eq_one_of_mem List.nodup_range (List.mem_range.mpr bound))
  have once := fun waiter => fair.once waiter
  refine ⟨?_, ?_, kept, fair.order, ?_, ?_⟩
  · have lock := fair.lock
    change run.holders.length + _ + _ = _ at lock
    split at lock <;> omega
  · intro waiter
    have places := kept_once run fair waiter
    have single : (List.range run.calls).count waiter ≤ 1 := once waiter
    omega
  · intro holders granting releasing
    have empty := idle_empty run fair holders granting releasing
    exact List.map_eq_nil_iff.mp (List.append_eq_nil_iff.mp empty).1
  · intro posted registering holders waiter bound
    have granting : run.handoff.granting = [] := by simp [QueueRun.handoff, posted]
    have releasing : run.handoff.releasing = 0 := by simp [QueueRun.handoff, posted]
    have starting : run.handoff.starting = [] := by simp [QueueRun.handoff, posted]
    have aborting : run.handoff.aborting = [] := by simp [QueueRun.handoff, posted]
    have here := kept waiter bound
    rw [starting, aborting, granting, idle_empty run fair holders granting releasing] at here
    simpa using here

-- Two waiters behind a lease; the first is stopped while it waits, so the second gets the lease.
example :
    (runFrom QueueRun.next newQueue
      [.async_acquire none, .async_acquire (some 7), .async_acquire none, .runs 0, .runs 0, .registers, .registers, .registers,
        .runs 0, .registers, .registers, .registers, .runs 0, .request_stop 7, .runs 0, .runs 0, .drop 0, .runs 0,
        .runs 0]).completed = [(0, true), (1, false), (2, true)] := by
  decide

end mutex

end Vacps.Native
