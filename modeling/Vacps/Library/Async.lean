import Mathlib.Data.List.Induction

/- Programs whose effects are calls on a shared state, and pools of threads that run them. A call
   is atomic; between two calls of one thread any other thread may take its own. -/
set_option autoImplicit false

namespace Library

inductive Async (Op : Type) (Res : Op → Type) (ε α : Type) where
  | ret (value : α)
  | fail (error : ε)
  | call (op : Op) (rest : Except ε (Res op) → Async Op Res ε α)

namespace Async

variable {Op : Type} {Res : Op → Type} {ε α β : Type}

def bind (first : Async Op Res ε α) (next : α → Async Op Res ε β) : Async Op Res ε β :=
  match first with
  | .ret value => next value
  | .fail error => .fail error
  | .call op rest => .call op fun result => (rest result).bind next

instance : Monad (Async Op Res ε) where
  pure := .ret
  bind := bind

def perform (op : Op) : Async Op Res ε (Res op) :=
  .call op fun result =>
    match result with
    | .ok value => .ret value
    | .error error => .fail error

def attempt (body : Async Op Res ε α) : Async Op Res ε (Except ε α) :=
  match body with
  | .ret value => .ret (.ok value)
  | .fail error => .ret (.error error)
  | .call op rest => .call op fun result => (rest result).attempt

-- The cleanup runs on both ways out; what it fails with replaces the body's own result.
def finally_ (body : Async Op Res ε α) (cleanup : Async Op Res ε Unit) : Async Op Res ε α :=
  match body with
  | .ret value => cleanup.bind fun _ => .ret value
  | .fail error => cleanup.bind fun _ => .fail error
  | .call op rest => .call op fun result => (rest result).finally_ cleanup

def forEach (items : List β) (body : β → Async Op Res ε Unit) : Async Op Res ε Unit :=
  match items with
  | [] => .ret ()
  | item :: rest => (body item).bind fun _ => forEach rest body

-- The program run alone: nothing happens between its calls.
def runIn {State : Type} (exec : (op : Op) → State → Except ε (Res op) × State) :
    Async Op Res ε α → State → Except ε α × State
  | .ret value, state => (.ok value, state)
  | .fail error, state => (.error error, state)
  | .call op rest, state => runIn exec (rest (exec op state).1) (exec op state).2

theorem bind_assoc {γ : Type} (first : Async Op Res ε α) (next : α → Async Op Res ε β) (last : β → Async Op Res ε γ) :
    (first.bind next).bind last = first.bind fun value => (next value).bind last := by
  induction first with
  | ret value => rfl
  | fail error => rfl
  | call op rest ih => exact congrArg (Async.call op) (funext ih)

section alone

variable {State : Type} (exec : (op : Op) → State → Except ε (Res op) × State) (state : State)

@[simp] theorem run_in_pure (value : α) : (pure value : Async Op Res ε α).runIn exec state = (.ok value, state) := rfl

@[simp] theorem run_in_fail (error : ε) : (.fail error : Async Op Res ε α).runIn exec state = (.error error, state) := rfl

@[simp] theorem run_in_perform (op : Op) : (perform op).runIn exec state = exec op state := by
  rw [perform, runIn]
  cases outcome : exec op state with
  | mk result after => cases result <;> rfl

@[simp] theorem run_in_bind (first : Async Op Res ε α) (next : α → Async Op Res ε β) :
    (first >>= next).runIn exec state =
      match first.runIn exec state with
      | (.ok value, after) => (next value).runIn exec after
      | (.error error, after) => (.error error, after) := by
  induction first generalizing state with
  | ret value => rfl
  | fail error => rfl
  | call op rest ih => exact ih (exec op state).1 (exec op state).2

@[simp] theorem run_in_attempt (body : Async Op Res ε α) :
    body.attempt.runIn exec state = (.ok (body.runIn exec state).1, (body.runIn exec state).2) := by
  induction body generalizing state with
  | ret value => rfl
  | fail error => rfl
  | call op rest ih => exact ih (exec op state).1 (exec op state).2

end alone

end Async

structure Thread (Op : Type) (Res : Op → Type) (ε α Call : Type) where
  call : Call
  rest : Async Op Res ε α

structure Pool (Op : Type) (Res : Op → Type) (ε α Call State : Type) where
  state : State
  threads : List (Thread Op Res ε α Call)

inductive PoolEvent (Call : Type) where
  | start (call : Call)
  | step (i : Nat)

section run

variable {Op : Type} {Res : Op → Type} {ε α Call State : Type} (exec : (op : Op) → State → Except ε (Res op) × State)
  (body : Call → Async Op Res ε α)

def Pool.advance (pool : Pool Op Res ε α Call State) (i : Nat) : Pool Op Res ε α Call State :=
  match pool.threads[i]? with
  | some ⟨call, .call op rest⟩ =>
      ⟨(exec op pool.state).2, pool.threads.set i ⟨call, rest (exec op pool.state).1⟩⟩
  | _ => pool

def Pool.spawn (pool : Pool Op Res ε α Call State) (call : Call) : Pool Op Res ε α Call State :=
  ⟨pool.state, pool.threads ++ [⟨call, body call⟩]⟩

def Pool.perform (pool : Pool Op Res ε α Call State) : PoolEvent Call → Pool Op Res ε α Call State
  | .start call => pool.spawn body call
  | .step i => pool.advance exec i

def Pool.run (pool : Pool Op Res ε α Call State) (events : List (PoolEvent Call)) : Pool Op Res ε α Call State :=
  events.foldl (Pool.perform exec body) pool

theorem advance_taken (pool : Pool Op Res ε α Call State) (i : Nat) (call : Call) (op : Op)
    (rest : Except ε (Res op) → Async Op Res ε α) (found : pool.threads[i]? = some ⟨call, .call op rest⟩) :
    pool.advance exec i = ⟨(exec op pool.state).2, pool.threads.set i ⟨call, rest (exec op pool.state).1⟩⟩ := by
  simp only [Pool.advance, found]

theorem advance_lost (pool : Pool Op Res ε α Call State) (i : Nat)
    (idle : ∀ call op rest, pool.threads[i]? ≠ some ⟨call, .call op rest⟩) : pool.advance exec i = pool := by
  unfold Pool.advance
  split
  · rename_i call op rest found
    exact absurd found (idle call op rest)
  · rfl

-- A step takes the next call of a thread that has one, and is lost on the others.
theorem advance_cases (pool : Pool Op Res ε α Call State) (i : Nat) :
    pool.advance exec i = pool ∨ ∃ call op rest, pool.threads[i]? = some ⟨call, .call op rest⟩ ∧
      pool.advance exec i = ⟨(exec op pool.state).2, pool.threads.set i ⟨call, rest (exec op pool.state).1⟩⟩ := by
  by_cases pending : ∃ call op rest, pool.threads[i]? = some ⟨call, .call op rest⟩
  · obtain ⟨call, op, rest, found⟩ := pending
    exact Or.inr ⟨call, op, rest, found, advance_taken exec pool i call op rest found⟩
  · exact Or.inl (advance_lost exec pool i fun call op rest found => pending ⟨call, op, rest, found⟩)

-- Every event of the run happens in a pool that the guard accepts it in.
def Pool.Guarded (guard : Pool Op Res ε α Call State → PoolEvent Call → Prop) (pool : Pool Op Res ε α Call State)
    (events : List (PoolEvent Call)) : Prop :=
  ∀ before event after, events = before ++ event :: after → guard (pool.run exec body before) event

theorem guarded_nil (guard : Pool Op Res ε α Call State → PoolEvent Call → Prop) (pool : Pool Op Res ε α Call State) :
    pool.Guarded exec body guard [] := by
  intro before event after split
  simp at split

theorem guarded_cons (guard : Pool Op Res ε α Call State → PoolEvent Call → Prop) (pool : Pool Op Res ε α Call State)
    (first : PoolEvent Call) (rest : List (PoolEvent Call)) (allowed : guard pool first)
    (later : (pool.perform exec body first).Guarded exec body guard rest) :
    pool.Guarded exec body guard (first :: rest) := by
  intro before event after split
  cases before with
  | nil =>
      cases split
      exact allowed
  | cons head front =>
      cases split
      exact later front event after rfl

theorem guarded_concat (guard : Pool Op Res ε α Call State → PoolEvent Call → Prop) (pool : Pool Op Res ε α Call State)
    (front : List (PoolEvent Call)) (last : PoolEvent Call) :
    pool.Guarded exec body guard (front ++ [last]) ↔
      pool.Guarded exec body guard front ∧ guard (pool.run exec body front) last := by
  refine ⟨?_, ?_⟩
  · intro guarded
    refine ⟨?_, guarded front last [] rfl⟩
    intro before event after split
    exact guarded before event (after ++ [last]) (by rw [split]; simp)
  · intro ⟨guarded, allowed⟩ before event after split
    rcases List.eq_nil_or_concat after with rfl | ⟨rest, final, rfl⟩
    · obtain ⟨rfl, same⟩ := List.append_inj' split rfl
      cases same
      exact allowed
    · rw [List.concat_eq_append, ← List.cons_append, ← List.append_assoc] at split
      exact guarded before event rest (List.append_inj' split rfl).1

-- A check of every step taken, for runs that are computed.
def Pool.passes (check : Pool Op Res ε α Call State → PoolEvent Call → Bool) :
    Pool Op Res ε α Call State → List (PoolEvent Call) → Bool
  | _, [] => true
  | pool, event :: rest => check pool event && Pool.passes check (pool.perform exec body event) rest

theorem guarded_passes (guard : Pool Op Res ε α Call State → PoolEvent Call → Prop)
    (check : Pool Op Res ε α Call State → PoolEvent Call → Bool)
    (implies : ∀ pool event, check pool event = true → guard pool event) (pool : Pool Op Res ε α Call State)
    (events : List (PoolEvent Call)) (passed : pool.passes exec body check events = true) :
    pool.Guarded exec body guard events := by
  induction events generalizing pool with
  | nil => exact guarded_nil exec body guard pool
  | cons event rest ih =>
      rw [Pool.passes, Bool.and_eq_true] at passed
      exact guarded_cons exec body guard pool event rest (implies pool event passed.1) (ih _ passed.2)

theorem run_append (pool : Pool Op Res ε α Call State) (first later : List (PoolEvent Call)) :
    pool.run exec body (first ++ later) = (pool.run exec body first).run exec body later :=
  List.foldl_append

theorem returned_kept (pool : Pool Op Res ε α Call State) (event : PoolEvent Call) (i : Nat) (call : Call) (value : α)
    (ended : pool.threads[i]? = some ⟨call, .ret value⟩) :
    (pool.perform exec body event).threads[i]? = some ⟨call, .ret value⟩ := by
  cases event with
  | start other =>
      rw [Pool.perform, Pool.spawn, List.getElem?_append_left (List.getElem?_eq_some_iff.mp ended).1]
      exact ended
  | step j =>
      rcases advance_cases exec pool j with lost | ⟨other, op, rest, found, taken⟩
      · rwa [Pool.perform, lost]
      · have different : j ≠ i := by
          intro same
          subst same
          rw [ended] at found
          cases found
        rw [Pool.perform, taken, List.getElem?_set_ne different]
        exact ended

-- A call that has returned stays so.
theorem returned_stays (pool : Pool Op Res ε α Call State) (events : List (PoolEvent Call)) (i : Nat) (call : Call) (value : α)
    (ended : pool.threads[i]? = some ⟨call, .ret value⟩) :
    (pool.run exec body events).threads[i]? = some ⟨call, .ret value⟩ := by
  induction events generalizing pool with
  | nil => exact ended
  | cons event rest ih => exact ih (pool.perform exec body event) (returned_kept exec body pool event i call value ended)

theorem run_keeps (guard : Pool Op Res ε α Call State → PoolEvent Call → Prop)
    (inv : Pool Op Res ε α Call State → Prop) (start : Pool Op Res ε α Call State) (initial : inv start)
    (step : ∀ pool event, inv pool → guard pool event → inv (pool.perform exec body event))
    (events : List (PoolEvent Call)) (guarded : start.Guarded exec body guard events) :
    inv (start.run exec body events) := by
  induction events using List.reverseRecOn with
  | nil => exact initial
  | append_singleton front last ih =>
      obtain ⟨earlier, allowed⟩ := (guarded_concat exec body guard start front last).mp guarded
      rw [run_append]
      exact step _ last (ih earlier) allowed

end run

section follows

variable {Op : Type} {Res : Op → Type} {ε α β State Place : Type}
  (exec : (op : Op) → State → Except ε (Res op) × State) (next : Place → Op → State → Option Place)

-- The program keeps to the places: whatever state a call meets, the next place allows the call, and
-- the program goes on from there. What it ends with satisfies `final` at the last place.
def Async.Follows : Place → Async Op Res ε α → (Place → Except ε α → Prop) → Prop
  | place, .ret value, final => final place (.ok value)
  | place, .fail error, final => final place (.error error)
  | place, .call op rest, final =>
      ∀ state, ∃ there, next place op state = some there ∧ Async.Follows there (rest (exec op state).1) final

theorem follows_mono (place : Place) (program : Async Op Res ε α) (weak strong : Place → Except ε α → Prop)
    (implies : ∀ place result, strong place result → weak place result)
    (follows : program.Follows exec next place strong) : program.Follows exec next place weak := by
  induction program generalizing place with
  | ret value => exact implies place _ follows
  | fail error => exact implies place _ follows
  | call op rest ih =>
      intro state
      obtain ⟨there, allowed, later⟩ := follows state
      exact ⟨there, allowed, ih _ there later⟩

-- What no step changes of its place is the same at the end.
theorem follows_kept {Part : Type} (part : Place → Part)
    (kept : ∀ place op state there, next place op state = some there → part there = part place) (place : Place)
    (program : Async Op Res ε α) (final : Place → Except ε α → Prop) (follows : program.Follows exec next place final) :
    program.Follows exec next place fun there result => final there result ∧ part there = part place := by
  induction program generalizing place with
  | ret value => exact ⟨follows, rfl⟩
  | fail error => exact ⟨follows, rfl⟩
  | call op rest ih =>
      intro state
      obtain ⟨there, moved, later⟩ := follows state
      refine ⟨there, moved, ?_⟩
      rw [← kept place op state there moved]
      exact ih _ there later

-- A part of the place that the end names is named at every place before.
theorem follows_names {Part : Type} (part : Place → Part) (named : Part)
    (kept : ∀ place op state there, next place op state = some there → part there = part place) (state : State) (place : Place)
    (program : Async Op Res ε α) (follows : program.Follows exec next place fun there _ => part there = named) :
    part place = named := by
  induction program generalizing place with
  | ret value => exact follows
  | fail error => exact follows
  | call op rest ih =>
      obtain ⟨there, moved, later⟩ := follows state
      rw [← kept place op state there moved]
      exact ih _ there later

theorem follows_bind (place : Place) (program : Async Op Res ε α) (continue_ : α → Async Op Res ε β)
    (middle : Place → Except ε α → Prop) (final : Place → Except ε β → Prop)
    (follows : program.Follows exec next place middle)
    (success : ∀ there value, middle there (.ok value) → (continue_ value).Follows exec next there final)
    (failure : ∀ there error, middle there (.error error) → final there (.error error)) :
    (program.bind continue_).Follows exec next place final := by
  induction program generalizing place with
  | ret value => exact success place value follows
  | fail error => exact failure place error follows
  | call op rest ih =>
      intro state
      obtain ⟨there, allowed, later⟩ := follows state
      exact ⟨there, allowed, ih _ there later⟩

-- One call and what comes after it, by what the call answers.
theorem follows_call (place : Place) (op : Op) (continue_ : Res op → Async Op Res ε β) (final : Place → Except ε β → Prop)
    (step : ∀ state, ∃ there, next place op state = some there ∧
      (∀ value, (exec op state).1 = .ok value → (continue_ value).Follows exec next there final) ∧
      ∀ error, (exec op state).1 = .error error → final there (.error error)) :
    (Async.perform op >>= continue_).Follows exec next place final := by
  intro state
  obtain ⟨there, allowed, success, failure⟩ := step state
  refine ⟨there, allowed, ?_⟩
  cases result : (exec op state).1 with
  | ok value => exact success value result
  | error error => exact failure error result

theorem follows_attempt (place : Place) (program : Async Op Res ε α) (middle : Place → Except ε α → Prop)
    (final : Place → Except ε (Except ε α) → Prop) (follows : program.Follows exec next place middle)
    (ends : ∀ there result, middle there result → final there (.ok result)) :
    program.attempt.Follows exec next place final := by
  induction program generalizing place with
  | ret value => exact ends place _ follows
  | fail error => exact ends place _ follows
  | call op rest ih =>
      intro state
      obtain ⟨there, allowed, later⟩ := follows state
      exact ⟨there, allowed, ih _ there later⟩

theorem follows_finally (place : Place) (program : Async Op Res ε α) (cleanup : Async Op Res ε Unit)
    (middle : Place → Except ε α → Prop) (final : Place → Except ε α → Prop)
    (follows : program.Follows exec next place middle)
    (cleans : ∀ there result, middle there result →
      cleanup.Follows exec next there fun last outcome =>
        match outcome with
        | .ok _ => final last result
        | .error error => final last (.error error)) :
    (program.finally_ cleanup).Follows exec next place final := by
  induction program generalizing place with
  | ret value => exact follows_bind exec next place cleanup _ _ final (cleans place _ follows) (fun _ _ ok => ok) fun _ _ no => no
  | fail error => exact follows_bind exec next place cleanup _ _ final (cleans place _ follows) (fun _ _ ok => ok) fun _ _ no => no
  | call op rest ih =>
      intro state
      obtain ⟨there, allowed, later⟩ := follows state
      exact ⟨there, allowed, ih _ there later⟩

end follows

section uses

variable {Op : Type} {Res : Op → Type} {ε α β : Type} (allowed : Op → Prop)

-- Whatever its calls answer, the program makes allowed calls only.
def Async.Uses : Async Op Res ε α → Prop
  | .ret _ => True
  | .fail _ => True
  | .call op rest => allowed op ∧ ∀ result, (rest result).Uses

theorem uses_perform (op : Op) (here : allowed op) : (Async.perform op : Async Op Res ε (Res op)).Uses allowed := by
  refine ⟨here, fun result => ?_⟩
  cases result <;> exact trivial

theorem uses_bind (program : Async Op Res ε α) (continue_ : α → Async Op Res ε β) (first : program.Uses allowed)
    (later : ∀ value, (continue_ value).Uses allowed) : (program >>= continue_).Uses allowed := by
  induction program with
  | ret value => exact later value
  | fail error => exact trivial
  | call op rest ih => exact ⟨first.1, fun result => ih result (first.2 result)⟩

theorem uses_attempt (program : Async Op Res ε α) (uses : program.Uses allowed) : program.attempt.Uses allowed := by
  induction program with
  | ret value => exact trivial
  | fail error => exact trivial
  | call op rest ih => exact ⟨uses.1, fun result => ih result (uses.2 result)⟩

theorem uses_for_each (items : List β) (body : β → Async Op Res ε Unit) (each : ∀ item, (body item).Uses allowed) :
    (Async.forEach items body).Uses allowed := by
  induction items with
  | nil => exact trivial
  | cons item rest ih => exact uses_bind allowed (body item) _ (each item) fun _ => ih

theorem uses_mono (wider : Op → Prop) (implies : ∀ op, allowed op → wider op) (program : Async Op Res ε α)
    (uses : program.Uses allowed) : program.Uses wider := by
  induction program with
  | ret value => exact trivial
  | fail error => exact trivial
  | call op rest ih => exact ⟨implies op uses.1, fun result => ih result (uses.2 result)⟩

-- The same, with what the program ends with.
def Async.UsesThen (final : Except ε α → Prop) : Async Op Res ε α → Prop
  | .ret value => final (.ok value)
  | .fail error => final (.error error)
  | .call op rest => allowed op ∧ ∀ result, (rest result).UsesThen final

theorem uses_then_uses (final : Except ε α → Prop) (program : Async Op Res ε α)
    (uses : program.UsesThen allowed final) : program.Uses allowed := by
  induction program with
  | ret value => exact trivial
  | fail error => exact trivial
  | call op rest ih => exact ⟨uses.1, fun result => ih result (uses.2 result)⟩

theorem uses_then_bind (middle : Except ε α → Prop) (final : Except ε β → Prop) (program : Async Op Res ε α)
    (continue_ : α → Async Op Res ε β) (first : program.UsesThen allowed middle)
    (later : ∀ value, middle (.ok value) → (continue_ value).UsesThen allowed final)
    (failed : ∀ error, middle (.error error) → final (.error error)) :
    (program >>= continue_).UsesThen allowed final := by
  induction program with
  | ret value => exact later value first
  | fail error => exact failed error first
  | call op rest ih => exact ⟨first.1, fun result => ih result (first.2 result)⟩

theorem uses_then_asked (op : Op) (here : allowed op) (final : Except ε (Except ε (Res op)) → Prop)
    (ends : ∀ answer, final (.ok answer)) : (Async.perform op).attempt.UsesThen allowed final := by
  refine ⟨here, fun result => ?_⟩
  cases result with
  | ok value => exact ends (.ok value)
  | error error => exact ends (.error error)

-- What every allowed call keeps, the program run alone keeps.
theorem run_in_keeps {State : Type} (exec : (op : Op) → State → Except ε (Res op) × State) (inv : State → Prop)
    (step : ∀ op state, allowed op → inv state → inv (exec op state).2) (program : Async Op Res ε α)
    (uses : program.Uses allowed) (state : State) (here : inv state) : inv (program.runIn exec state).2 := by
  induction program generalizing state with
  | ret value => exact here
  | fail error => exact here
  | call op rest ih => exact ih _ (uses.2 _) _ (step op state uses.1 here)

-- Calls that keep to some of the places keep the whole program on them.
theorem follows_within {State Place : Type} (exec : (op : Op) → State → Except ε (Res op) × State)
    (next : Place → Op → State → Option Place) (within : Place → Prop)
    (stays : ∀ place op state, within place → allowed op → ∃ there, next place op state = some there ∧ within there)
    (program : Async Op Res ε α) (uses : program.Uses allowed) (place : Place) (here : within place) :
    program.Follows exec next place fun there _ => within there := by
  induction program generalizing place with
  | ret value => exact here
  | fail error => exact here
  | call op rest ih =>
      intro state
      obtain ⟨there, moved, kept⟩ := stays place op state here uses.1
      exact ⟨there, moved, ih _ (uses.2 _) there kept⟩

end uses

section outline

variable {Op : Type} {Res : Op → Type} {ε α Call State Place : Type}
  (exec : (op : Op) → State → Except ε (Res op) × State) (next : Call → Place → Op → State → Option Place)

-- Thread by thread, where the pool's programs stand.
structure Aligned (final : Call → Place → Except ε α → Prop) (threads : List (Thread Op Res ε α Call))
    (places : List Place) : Prop where
  size : places.length = threads.length
  follows : ∀ (i : Nat) (thread : Thread Op Res ε α Call) (place : Place), threads[i]? = some thread → places[i]? = some place →
    thread.rest.Follows exec (next thread.call) place (final thread.call)

theorem aligned_set (final : Call → Place → Except ε α → Prop) (threads : List (Thread Op Res ε α Call))
    (places : List Place) (aligned : Aligned exec next final threads places) (i : Nat)
    (thread : Thread Op Res ε α Call) (place : Place)
    (follows : thread.rest.Follows exec (next thread.call) place (final thread.call)) :
    Aligned exec next final (threads.set i thread) (places.set i place) := by
  refine ⟨by simp [aligned.size], ?_⟩
  intro j other there found located
  by_cases same : i = j
  · subst same
    rw [List.getElem?_set_self' ] at found located
    obtain ⟨_, _, rfl⟩ := Option.map_eq_some_iff.mp found
    obtain ⟨_, _, rfl⟩ := Option.map_eq_some_iff.mp located
    exact follows
  · rw [List.getElem?_set_ne same] at found located
    exact aligned.follows j other there found located

theorem aligned_append (final : Call → Place → Except ε α → Prop) (threads : List (Thread Op Res ε α Call))
    (places : List Place) (aligned : Aligned exec next final threads places)
    (thread : Thread Op Res ε α Call) (place : Place)
    (follows : thread.rest.Follows exec (next thread.call) place (final thread.call)) :
    Aligned exec next final (threads ++ [thread]) (places ++ [place]) := by
  refine ⟨by simp [aligned.size], ?_⟩
  intro j other there found located
  by_cases old : j < threads.length
  · rw [List.getElem?_append_left old] at found
    rw [List.getElem?_append_left (aligned.size ▸ old)] at located
    exact aligned.follows j other there found located
  · have same : j = threads.length := by
      have bound := (List.getElem?_eq_some_iff.mp found).1
      rw [List.length_append, List.length_singleton] at bound
      omega
    subst same
    rw [List.getElem?_concat_length] at found
    rw [← aligned.size, List.getElem?_concat_length] at located
    cases found
    cases located
    exact follows

theorem aligned_place (final : Call → Place → Except ε α → Prop) (threads : List (Thread Op Res ε α Call))
    (places : List Place) (aligned : Aligned exec next final threads places) (i : Nat)
    (thread : Thread Op Res ε α Call) (found : threads[i]? = some thread) :
    ∃ place, places[i]? = some place ∧ thread.rest.Follows exec (next thread.call) place (final thread.call) := by
  have bound := (List.getElem?_eq_some_iff.mp found).1
  have located := List.getElem?_eq_getElem (aligned.size.symm ▸ bound)
  exact ⟨_, located, aligned.follows i thread _ found located⟩

theorem located_set {α : Type} (places : List α) (i j : Nat) (place there other : α) (here : places[i]? = some place) :
    (places.set i there)[j]? = some other ↔ (j = i ∧ other = there) ∨ (j ≠ i ∧ places[j]? = some other) := by
  have bound := (List.getElem?_eq_some_iff.mp here).1
  by_cases same : j = i
  · subst same
    rw [List.getElem?_set_self bound]
    simp [eq_comm]
  · rw [List.getElem?_set_ne (Ne.symm same)]
    simp [same]

theorem set_here {α : Type} (places : List α) (i : Nat) (place : α) (here : places[i]? = some place) :
    places.set i place = places := by
  obtain ⟨bound, rfl⟩ := List.getElem?_eq_some_iff.mp here
  exact List.set_getElem_self bound

theorem located_append {α : Type} (places : List α) (j : Nat) (last other : α)
    (found : (places ++ [last])[j]? = some other) : other = last ∨ places[j]? = some other := by
  by_cases old : j < places.length
  · rw [List.getElem?_append_left old] at found
    exact Or.inr found
  · rw [List.getElem?_append_right (Nat.le_of_not_lt old)] at found
    exact Or.inl (List.mem_singleton.mp (List.mem_of_getElem? found))

-- The pool's programs keep to their places, and the invariant holds of the state and the places.
def Outlined (final : Call → Place → Except ε α → Prop) (inv : State → List Place → Prop)
    (pool : Pool Op Res ε α Call State) : Prop :=
  ∃ places, Aligned exec next final pool.threads places ∧ inv pool.state places

section rule

variable (body : Call → Async Op Res ε α) (entry : Call → Place) (final : Call → Place → Except ε α → Prop)
  (bodies : ∀ call, (body call).Follows exec (next call) (entry call) (final call)) (inv : State → List Place → Prop)

include bodies

theorem outlined_start (pool : Pool Op Res ε α Call State) (call : Call) (here : Outlined exec next final inv pool)
    (spawned : ∀ places, inv pool.state places → inv pool.state (places ++ [entry call])) :
    Outlined exec next final inv (pool.perform exec body (.start call)) := by
  obtain ⟨places, aligned, holds⟩ := here
  exact ⟨places ++ [entry call], aligned_append exec next final _ _ aligned _ _ (bodies call), spawned places holds⟩

omit bodies in
theorem outlined_step (pool : Pool Op Res ε α Call State) (i : Nat) (here : Outlined exec next final inv pool)
    (stepped : ∀ places call op rest place there, Aligned exec next final pool.threads places → inv pool.state places →
      pool.threads[i]? = some ⟨call, .call op rest⟩ → places[i]? = some place → next call place op pool.state = some there →
      inv (exec op pool.state).2 (places.set i there)) :
    Outlined exec next final inv (pool.perform exec body (.step i)) := by
  obtain ⟨places, aligned, holds⟩ := here
  rcases advance_cases exec pool i with lost | ⟨call, op, rest, found, taken⟩
  · exact ⟨places, by rwa [Pool.perform, lost], by rwa [Pool.perform, lost]⟩
  · obtain ⟨place, located, follows⟩ := aligned_place exec next final _ _ aligned i _ found
    obtain ⟨there, moved, later⟩ := follows pool.state
    rw [Pool.perform, taken]
    exact ⟨places.set i there, aligned_set exec next final _ _ aligned i ⟨call, rest (exec op pool.state).1⟩ there later,
      stepped places call op rest place there aligned holds found located moved⟩

-- The rule for interleaved runs. The bodies keep to their places; what a step may do is then read
-- off the place its thread stands at, and an invariant of the state and the places is carried along.
theorem run_outline (guard : Pool Op Res ε α Call State → PoolEvent Call → Prop) (start : State) (initial : inv start [])
    (spawned : ∀ pool places call, inv pool.state places → guard pool (.start call) →
      inv pool.state (places ++ [entry call]))
    (stepped : ∀ pool places i call op rest place there, Aligned exec next final pool.threads places →
      inv pool.state places → guard pool (.step i) → pool.threads[i]? = some ⟨call, .call op rest⟩ →
      places[i]? = some place → next call place op pool.state = some there →
      inv (exec op pool.state).2 (places.set i there))
    (events : List (PoolEvent Call)) (guarded : Pool.Guarded exec body guard ⟨start, []⟩ events) :
    Outlined exec next final inv (Pool.run exec body ⟨start, []⟩ events) := by
  refine run_keeps exec body guard (Outlined exec next final inv) ⟨start, []⟩ ?_ ?_ events guarded
  · refine ⟨[], ⟨rfl, ?_⟩, initial⟩
    intro i thread place found
    cases found
  · intro pool event here allowed
    cases event with
    | start call =>
        exact outlined_start exec next body entry final bodies inv pool call here
          (fun places holds => spawned pool places call holds allowed)
    | step i =>
        refine outlined_step exec next body final inv pool i here ?_
        intro places call op rest place there aligned holds
        exact stepped pool places i call op rest place there aligned holds allowed

end rule

end outline

end Library
