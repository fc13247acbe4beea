import Vacps.ControlPlane.KeyHeld

/- TaskService.create under one backend and idempotency key: over every careful run one task goes to the agent, and the
   creates answer with it. -/
set_option autoImplicit false

namespace Vacps.Tasks

open Library

section conditions

variable (hashOpaque : Hashed → String) (backendId key : String)

-- No statement of a create fails between its INSERT and the dispatch, and the agent takes the task. The key's row is
-- not deleted while a create that found the ledger empty has its INSERT ahead, and when it is gone the ledger can be
-- read. The key's entry does not expire.
def keyCareful (pool : KeyedPool) : PoolEvent KeyedCall → Prop
  | .start asked => asked.asks backendId key
  | .step i => ∀ asked op rest, pool.threads[i]? = some ⟨asked, .call op rest⟩ →
      (∀ id, Dispatches id (.call op rest) → pool.state.failing op = false ∧
        ∀ other task, op = .createTask other task → accepts pool.state.base = true) ∧
      match op with
      | .deleteTask id => (∃ row ∈ pool.state.base.tasks.rows, row.under backendId key ∧ row.id = id) →
          ∀ thread ∈ pool.threads, thread.call.creates = true → ¬ thread.rest.Aims (inserts backendId key) (consults backendId key) ()
      | .selectTombstone other otherKey now => other = backendId → otherKey = key →
          (pool.state.failing op = true → ledger backendId key pool.state.base = none ∨
            ∃ row ∈ pool.state.base.tasks.rows, row.under backendId key) ∧
          ∀ tomb, ledger backendId key pool.state.base = some tomb → now < tomb.expires_at
      | .deleteExpiredTombstones now => ∀ tomb, ledger backendId key pool.state.base = some tomb → now < tomb.expires_at
      | _ => True

def answer (thread : Thread TaskOp TaskOp.Result Thrown (Option Created) KeyedCall) (input : CreateTaskInput) (id : String) : Prop :=
  ∃ source scheduleId created, thread = ⟨.create input source scheduleId, .ret (some created)⟩ ∧ created.task.id = id

-- One task goes to the agent; the creates that succeed answer with it, once it has gone or is about to; and one whose
-- arguments have another hash is rejected.
structure KeyIdempotent (pool : KeyedPool) : Prop where
  once : ∀ first ∈ pool.state.dispatched, ∀ second ∈ pool.state.dispatched, first.task_id = second.task_id
  same : ∀ first ∈ pool.threads, ∀ second ∈ pool.threads, ∀ input other id otherId, answer first input id →
    answer second other otherId → id = otherId
  gone : ∀ thread ∈ pool.threads, ∀ input id, answer thread input id →
    (∃ task ∈ pool.state.dispatched, task.task_id = id) ∨ ∃ other ∈ pool.threads, Dispatches id other.rest
  agreed : ∀ thread ∈ pool.threads, ∀ input id, answer thread input id → ∀ task ∈ pool.state.dispatched, task.task_id = id
  rejected : ∀ thread ∈ pool.threads, ∀ input source scheduleId result, thread = ⟨.create input source scheduleId, result⟩ →
    ∀ other, requestHashOf hashOpaque other ≠ requestHashOf hashOpaque input → ((∃ first ∈ pool.threads, ∃ id, answer first other id) ∨
      ∃ task ∈ pool.state.dispatched, task.toCreateTaskInput = other) →
    (∀ created, result ≠ .ret created) ∧
      ∀ error, result = .fail error → ownFailure error = true ∨ ∃ details, error = idempotencyConflict details

end conditions

section runs

variable (platform : Platform) (hashOpaque : Hashed → String) (backendId key : String)

instance : DecidablePred (KeyedCall.asks backendId key) := fun asked => by
  cases asked <;> unfold KeyedCall.asks <;> infer_instance

-- The calls of other keys are kept out by the guard.
def KeyedCall.enters (asked : KeyedCall) : KeyedPlace := if asked.asks backendId key then asked.entry else .stray

theorem enters_follows (asked : KeyedCall) : (asked.body platform hashOpaque).Follows (KeyedState.exec backendId key)
    (keyedNext hashOpaque backendId key asked) (asked.enters backendId key) (asked.ends hashOpaque) := by
  rw [KeyedCall.enters]
  split
  · rename_i asks
    exact body_follows platform hashOpaque backendId key asked asks
  · exact stray_follows hashOpaque backendId key asked _ _ fun _ => trivial

-- A key nothing is known of, in a database no id of which is drawn again.
structure KeyFresh (start : TasksState) : Prop where
  named : key ≠ ""
  unclaimed : ∀ row ∈ start.tasks.rows, ¬ row.under backendId key
  unfiled : ledger backendId key start = none
  drawn : ∀ n, start.uuids n ≠ "" ∧ ∀ row ∈ start.tasks.rows, row.id ≠ start.uuids n

abbrev KeyedAligned : List (Thread TaskOp TaskOp.Result Thrown (Option Created) KeyedCall) → List KeyedPlace → Prop :=
  Aligned (KeyedState.exec backendId key) (keyedNext hashOpaque backendId key) (KeyedCall.ends hashOpaque)

theorem place_thread (threads : List (Thread TaskOp TaskOp.Result Thrown (Option Created) KeyedCall)) (places : List KeyedPlace)
    (aligned : KeyedAligned hashOpaque backendId key threads places) (place : KeyedPlace) (member : place ∈ places) :
    ∃ thread ∈ threads, thread.rest.Follows (KeyedState.exec backendId key) (keyedNext hashOpaque backendId key thread.call) place
      (thread.call.ends hashOpaque) := by
  obtain ⟨j, located⟩ := List.getElem?_of_mem member
  have bound := (List.getElem?_eq_some_iff.mp located).1
  rw [aligned.size] at bound
  exact ⟨threads[j], List.getElem_mem bound, aligned.follows j _ _ (List.getElem?_eq_getElem bound) located⟩

theorem held_spawned (uuids : Nat → String) (holder : Holder) (state : KeyedState) (places : List KeyedPlace)
    (ready : KeyHeld hashOpaque backendId key uuids holder state places) (asked : KeyedCall) (asks : asked.asks backendId key) :
    KeyHeld hashOpaque backendId key uuids holder state (places ++ [asked.enters backendId key]) := by
  refine { ready with onWay := ?_, stands := ?_ }
  · intro id hash held
    exact (ready.onWay id hash held).imp (fun gone => gone) fun owns => List.mem_append_left _ owns
  · intro place member
    rcases List.mem_append.mp member with old | new
    · exact ready.stands place old
    · rw [List.mem_singleton.mp new, KeyedCall.enters, if_pos asks]
      cases asked with
      | create input source scheduleId => exact trivial
      | _ =>
          refine ⟨?_, ?_, ?_⟩
          · exact fun _ member => absurd member List.not_mem_nil
          · exact fun _ member => absurd member List.not_mem_nil
          · exact fun _ same => by cases same

theorem held_step (uuids : Nat → String) (hashes : ∀ input, requestHashOf hashOpaque input ≠ "") (named : key ≠ "")
    (drawn : ∀ n, uuids n ≠ "") (pool : KeyedPool) (places : List KeyedPlace) (i : Nat) (asked : KeyedCall) (op : TaskOp)
    (rest : Except Thrown op.Result → Service (Option Created)) (place there : KeyedPlace)
    (aligned : KeyedAligned hashOpaque backendId key pool.threads places) (holder : Holder)
    (ready : KeyHeld hashOpaque backendId key uuids holder pool.state places) (careful : keyCareful backendId key pool (.step i))
    (found : pool.threads[i]? = some ⟨asked, .call op rest⟩) (located : places[i]? = some place)
    (moved : keyedNext hashOpaque backendId key asked place op pool.state = some there) :
    ∃ holder, KeyHeld hashOpaque backendId key uuids holder (KeyedState.exec backendId key op pool.state).2 (places.set i there) := by
  obtain ⟨owned, limits⟩ := careful asked op rest found
  cases place with
  | looking again =>
      refine ⟨holder, looking_step hashOpaque backendId key uuids asked holder pool.state places i ready again op there located moved ?_⟩
      rintro now rfl
      exact limits rfl rfl
  | missed again =>
      exact ⟨holder, missed_step hashOpaque backendId key uuids asked holder pool.state places i ready again op there located moved⟩
  | finding tomb id =>
      exact ⟨holder, finding_step hashOpaque backendId key uuids asked holder pool.state places i ready tomb id op there located moved⟩
  | unknown =>
      exact ⟨holder, unknown_step hashOpaque backendId key uuids asked holder pool.state places i ready op there located moved⟩
  | inserting id =>
      exact inserting_step hashOpaque backendId key uuids asked holder pool.state places i ready id ⟨hashes, drawn⟩ op there located moved
  | owning id hash =>
      have dispatches := owning_dispatches hashOpaque backendId key asked id hash _ (aligned.follows i _ _ found located)
      obtain ⟨went, taken⟩ := owned id dispatches
      exact ⟨holder, owning_step hashOpaque backendId key uuids asked holder pool.state places i ready id hash op there located moved
        went taken⟩
  | sent id hash =>
      exact ⟨holder, sent_step hashOpaque backendId key uuids asked holder pool.state places i ready id hash op there located moved⟩
  | removing known filed =>
      refine ⟨holder, removing_step hashOpaque backendId key uuids asked holder pool.state places i ready named known filed op there
        located moved ?_ ?_⟩
      · rintro now rfl
        exact limits
      · rintro id rfl stored other member
        obtain ⟨thread, among, follows⟩ := place_thread hashOpaque backendId key _ _ aligned other member
        rw [Bool.eq_false_iff]
        intro waits
        obtain ⟨creates, aims⟩ := pending_aims hashOpaque backendId key thread.call other waits _ follows
        exact limits stored thread among creates aims
  | stray => exact False.elim (ready.stands _ (List.mem_of_getElem? located))
  | answered id hash => cases op <;> cases moved
  | conflicted => cases op <;> cases moved
  | refused => cases op <;> cases moved

-- What a create has come to, by where it stands.
theorem ended_answer (uuids : Nat → String) (holder : Holder) (state : KeyedState) (places : List KeyedPlace)
    (ready : KeyHeld hashOpaque backendId key uuids holder state places)
    (threads : List (Thread TaskOp TaskOp.Result Thrown (Option Created) KeyedCall))
    (aligned : KeyedAligned hashOpaque backendId key threads places)
    (thread : Thread TaskOp TaskOp.Result Thrown (Option Created) KeyedCall) (member : thread ∈ threads) (input : CreateTaskInput)
    (id : String) (answered : answer thread input id) : holder = some (id, requestHashOf hashOpaque input) := by
  obtain ⟨source, scheduleId, created, rfl, named⟩ := answered
  obtain ⟨j, found⟩ := List.getElem?_of_mem member
  obtain ⟨place, located, follows⟩ := aligned_place _ _ _ _ _ aligned j _ found
  have stands := ready.stands place (List.mem_of_getElem? located)
  have ends : (KeyedCall.create input source scheduleId).ends hashOpaque place (.ok (some created)) := follows
  cases place with
  | answered other hash =>
      obtain ⟨rfl, rfl⟩ := ends
      rw [← named]
      exact stands
  | stray => exact False.elim stands
  | _ => exact False.elim ends

theorem other_rejected (uuids : Nat → String) (holder : Holder) (state : KeyedState) (places : List KeyedPlace)
    (ready : KeyHeld hashOpaque backendId key uuids holder state places)
    (threads : List (Thread TaskOp TaskOp.Result Thrown (Option Created) KeyedCall))
    (aligned : KeyedAligned hashOpaque backendId key threads places) (input : CreateTaskInput) (source : TaskSource)
    (scheduleId : Option String) (result : Service (Option Created)) (member : ⟨.create input source scheduleId, result⟩ ∈ threads)
    (held : ∃ id hash, holder = some (id, hash) ∧ hash ≠ requestHashOf hashOpaque input) :
    (∀ created, result ≠ .ret created) ∧
      ∀ error, result = .fail error → ownFailure error = true ∨ ∃ details, error = idempotencyConflict details := by
  obtain ⟨id, hash, held, apart⟩ := held
  obtain ⟨j, found⟩ := List.getElem?_of_mem member
  obtain ⟨place, located, follows⟩ := aligned_place _ _ _ _ _ aligned j _ found
  have stands := ready.stands place (List.mem_of_getElem? located)
  have mine : ∀ other, holder ≠ some (other, requestHashOf hashOpaque input) := by
    intro other same
    rw [held] at same
    cases same
    exact apart rfl
  refine ⟨?_, ?_⟩
  · rintro created rfl
    have ends : (KeyedCall.create input source scheduleId).ends hashOpaque place (.ok created) := follows
    cases created with
    | some created =>
        exact mine created.task.id (ended_answer hashOpaque backendId key uuids holder state places ready threads aligned _ member input _
          ⟨source, scheduleId, created, rfl, rfl⟩)
    | none =>
        cases place with
        | stray => exact stands
        | removing known filed => cases ends
        | _ => exact ends
  · rintro error rfl
    have ends : (KeyedCall.create input source scheduleId).ends hashOpaque place (.error error) := follows
    cases place with
    | conflicted => exact Or.inr ends
    | looking again => exact Or.inl ends
    | refused => exact Or.inl ends
    | sent other otherHash =>
        obtain rfl : otherHash = requestHashOf hashOpaque input := ends
        exact absurd stands (mine other)
    | removing known filed => cases ends
    | stray => exact False.elim stands
    | _ => exact False.elim ends

-- A key stands for one task over every run that is careful with it.
theorem create_key_idempotent (start : TasksState) (fails : Nat → Bool) (fresh : KeyFresh backendId key start)
    (hashes : ∀ input, requestHashOf hashOpaque input ≠ "") (events : List (PoolEvent KeyedCall))
    (guarded : Pool.Guarded (KeyedState.exec backendId key) (KeyedCall.body platform hashOpaque) (keyCareful backendId key)
      ⟨⟨start, fails, 0, []⟩, []⟩ events) :
    KeyIdempotent hashOpaque (Pool.run (KeyedState.exec backendId key) (KeyedCall.body platform hashOpaque)
      ⟨⟨start, fails, 0, []⟩, []⟩ events) := by
  have outlined := run_outline (KeyedState.exec backendId key) (keyedNext hashOpaque backendId key) (KeyedCall.body platform hashOpaque)
    (KeyedCall.enters backendId key) (KeyedCall.ends hashOpaque) (enters_follows platform hashOpaque backendId key)
    (fun state places => ∃ holder, KeyHeld hashOpaque backendId key start.uuids holder state places) (keyCareful backendId key)
    ⟨start, fails, 0, []⟩ ?_ ?_ ?_ events guarded
  · obtain ⟨places, aligned, holder, ready⟩ := outlined
    generalize Pool.run _ _ _ _ = pool at aligned ready
    have answered := ended_answer hashOpaque backendId key _ holder pool.state places ready pool.threads aligned
    have one : ∀ id hash other otherHash, holder = some (id, hash) → holder = some (other, otherHash) → id = other := by
      intro id hash other otherHash first second
      rw [first] at second
      cases second
      rfl
    refine ⟨?_, ?_, ?_, ?_, ?_⟩
    · exact fun first gone second sent => one _ _ _ _ (ready.took first gone) (ready.took second sent)
    · intro first member second later input other id otherId here there
      exact one _ _ _ _ (answered first member input id here) (answered second later other otherId there)
    · intro thread member input id here
      refine (ready.onWay id _ (answered thread member input id here)).imp (fun gone => gone) fun owns => ?_
      obtain ⟨other, among, follows⟩ := place_thread hashOpaque backendId key _ _ aligned _ owns
      exact ⟨other, among, owning_dispatches hashOpaque backendId key other.call id _ _ follows⟩
    · exact fun thread member input id here task gone => one _ _ _ _ (ready.took task gone) (answered thread member input id here)
    · rintro thread member input source scheduleId result rfl other apart known
      refine other_rejected hashOpaque backendId key _ holder pool.state places ready pool.threads aligned input source scheduleId result
        member ?_
      rcases known with ⟨first, among, id, here⟩ | ⟨task, gone, rfl⟩
      · exact ⟨id, _, answered first among other id here, apart⟩
      · exact ⟨task.task_id, _, ready.took task gone, apart⟩
  · refine ⟨none, rfl, ?_, ?_, ?_, ?_, ?_, ?_, ?_, ?_⟩
    · exact fun row member under => absurd under (fresh.unclaimed row member)
    · exact fun row member _ n => (fresh.drawn n).2 row member
    · intro tomb found
      rw [fresh.unfiled] at found
      cases found
    · exact fun id hash held => by cases held
    · exact fun id hash held => by cases held
    · exact fun task gone => absurd gone List.not_mem_nil
    · exact fun id hash held => by cases held
    · exact fun place member => absurd member List.not_mem_nil
  · rintro pool places asked ⟨holder, ready⟩ asks
    exact ⟨holder, held_spawned hashOpaque backendId key start.uuids holder pool.state places ready asked asks⟩
  · rintro pool places i asked op rest place there aligned ⟨holder, ready⟩ careful found located moved
    exact held_step hashOpaque backendId key start.uuids hashes fresh.named (fun n => (fresh.drawn n).1) pool places i asked op rest
      place there aligned holder ready careful found located moved

end runs

section concrete

def keyedInput (command : String) : CreateTaskInput where
  backend_id := "b"
  kind := .command command []
  profile := "default"
  timeout_seconds := 60
  verify := none
  retry := none
  environment := none
  idempotency_key := some "key"
  output := ⟨true, true, 86400, 1048576⟩

def commandHash : Hashed → String
  | .create input =>
      match input.kind with
      | .command command _ => "command " ++ command
      | _ => "other"
  | _ => "other"

def keyedStart : TasksState := { (calm 0).base with uuids := fun n => "task-" ++ toString n, clock := fun n => n }

def keyedRun (fails : Nat → Bool) (events : List (PoolEvent KeyedCall)) : KeyedPool :=
  Pool.run (KeyedState.exec "b" "key") (KeyedCall.body utcMinutes commandHash) ⟨⟨keyedStart, fails, 0, []⟩, []⟩ events

def creating (command : String) : PoolEvent KeyedCall := .start (.create (keyedInput command) .mcp none)

def settled (thread : Thread TaskOp TaskOp.Result Thrown (Option Created) KeyedCall) : Bool :=
  match thread.rest with
  | .call _ _ => !thread.call.creates
  | _ => true

-- Nothing fails, the ledger's entry is fresh, and a row is deleted while no create is under way.
def keyCarefulNow (pool : KeyedPool) : PoolEvent KeyedCall → Bool
  | .start asked => decide (asked.asks "b" "key")
  | .step i =>
      let fresh := fun now => (ledger "b" "key" pool.state.base).all fun tomb => decide (now < tomb.expires_at)
      match pool.threads[i]? with
      | some ⟨_, .call op _⟩ =>
          !pool.state.failing op &&
            match op with
            | .createTask _ _ => accepts pool.state.base
            | .deleteTask _ => pool.threads.all settled
            | .selectTombstone _ _ now => fresh now
            | .deleteExpiredTombstones now => fresh now
            | _ => true
      | _ => true

theorem careful_now (pool : KeyedPool) (event : PoolEvent KeyedCall) (checked : keyCarefulNow pool event = true) :
    keyCareful "b" "key" pool event := by
  cases event with
  | start asked =>
      have asks : asked.asks "b" "key" := of_decide_eq_true checked
      exact asks
  | step i =>
      intro asked op rest found
      have fresh : ∀ now, ((ledger "b" "key" pool.state.base).all fun tomb => decide (now < tomb.expires_at)) = true →
          ∀ tomb, ledger "b" "key" pool.state.base = some tomb → now < tomb.expires_at := by
        intro now all tomb stored
        rw [stored] at all
        exact of_decide_eq_true all
      rw [keyCarefulNow, found, Bool.and_eq_true, Bool.not_eq_true'] at checked
      obtain ⟨went, own⟩ := checked
      refine ⟨fun id _ => ⟨went, ?_⟩, ?_⟩
      · rintro other task rfl
        exact own
      · cases op with
        | deleteTask id =>
            intro _ thread member creates aims
            have ended := List.all_eq_true.mp own thread member
            obtain ⟨held, program⟩ := thread
            cases program with
            | ret value => exact aims
            | fail error => exact aims
            | call op rest =>
                simp only [settled, creates] at ended
                cases ended
        | selectTombstone other otherKey now =>
            intro _ _
            refine ⟨fun failed => ?_, fresh now own⟩
            rw [went] at failed
            cases failed
        | deleteExpiredTombstones now => exact fresh now own
        | _ => exact trivial

-- Two creates overlap and the second is answered from the row of the first; the task ends, is refreshed and is deleted;
-- a third create is answered from the ledger, and one with another command is rejected.
def keyedCreates : List (PoolEvent KeyedCall) :=
  [creating "a", creating "a", .step 0, .step 0, .step 0, .step 0, .step 1, .step 1, .step 1, .step 1, .step 0, .step 0, .step 0] ++
    List.replicate 14 (.step 1) ++ List.replicate 12 (.step 0) ++
    [.start (.agent "task-0" .succeeded), .step 2, .start (.detail "task-0")] ++ List.replicate 12 (.step 3) ++
    [.start (.delete "task-0" (some .hard) none none none)] ++ List.replicate 8 (.step 4) ++ [creating "a", creating "b"] ++
    List.replicate 8 (.step 5) ++ List.replicate 8 (.step 6)

def createdIds (pool : KeyedPool) : List (Option String) :=
  (pool.threads.filter fun thread => thread.call.creates).map fun thread =>
    match thread.rest with
    | .ret (some created) => some created.task.id
    | _ => none

theorem create_key_idempotent_overlapping :
    let pool := keyedRun (fun _ => false) keyedCreates
    createdIds pool = [some "task-0", some "task-0", some "task-0", none] ∧ pool.state.base.tasks.rows.isEmpty ∧
      KeyIdempotent commandHash pool := by
  intro pool
  refine ⟨by decide +kernel, by decide +kernel, ?_⟩
  refine create_key_idempotent utcMinutes commandHash "b" "key" keyedStart (fun _ => false) ?_ ?_ keyedCreates ?_
  · refine ⟨by decide, ?_, rfl, ?_⟩
    · exact fun row member => absurd member List.not_mem_nil
    · refine fun n => ⟨?_, fun row member => absurd member List.not_mem_nil⟩
      simp [keyedStart]
  · intro input
    cases kind : input.kind <;> simp [requestHashOf, commandHash, kind]
  · exact guarded_passes _ _ (keyCareful "b" "key") keyCarefulNow careful_now _ _ (by decide +kernel)

-- Without the care: the ledger's INSERT fails behind the row's, and the create that then finds its own row answers with a
-- task no agent has or will have. And a row is deleted while a create that found neither it nor an entry has its INSERT
-- ahead: two tasks go to the agent.
theorem create_key_careless :
    let failed := keyedRun (fun n => n == 7) (creating "a" :: List.replicate 12 (.step 0))
    let deleted := keyedRun (fun _ => false) ([creating "a", creating "a"] ++ List.replicate 4 (.step 1) ++ List.replicate 20 (.step 0) ++
      [.start (.agent "task-0" .succeeded), .step 2, .start (.detail "task-0")] ++ List.replicate 12 (.step 3) ++
      [.start (.delete "task-0" (some .hard) none none none)] ++ List.replicate 8 (.step 4) ++ List.replicate 20 (.step 1))
    createdIds failed = [some "task-0"] ∧ failed.state.dispatched = [] ∧ failed.threads.all settled ∧
      createdIds deleted = [some "task-0", some "task-1"] ∧
      deleted.state.dispatched.map (·.task_id) = ["task-1", "task-0"] := by
  decide +kernel

end concrete

end Vacps.Tasks
