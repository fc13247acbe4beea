import Vacps.ControlPlane.TaskService

/- TaskService.create under one backend and idempotency key, with what deletes and refreshes the task in between: the
   statements that fail, the tasks the agent takes under the key, and where each call stands. -/
set_option autoImplicit false

namespace Vacps.Tasks

open Library

-- D1 and the agents, the statements that fail, and what the agents took under the key.
structure KeyedState where
  base : TasksState
  fails : Nat → Bool
  performed : Nat
  dispatched : List TaskDispatch

def isStatement : TaskOp → Bool
  | .readClock => false
  | .randomUUID => false
  | .getCapabilities _ => false
  | .createTask _ _ => false
  | .getTask _ _ => false
  | .cancelTask _ _ => false
  | .retryTask _ _ => false
  | .agentMoves _ _ => false
  | _ => true

def KeyedState.failing (state : KeyedState) (op : TaskOp) : Bool := isStatement op && state.fails state.performed

inductive KeyedCall where
  | create (input : CreateTaskInput) (source : TaskSource) (scheduleId : Option String)
  | delete (id : String) (mode : Option DeleteMode) (reason deletedBy idempotencyKey : Option String)
  | purgeExpired
  | detail (id : String)
  -- The agent's worker.
  | agent (id : String) (status : TaskStatus)

-- Where a create stands, and what a call that deletes has read and has put into the ledger just now.
inductive KeyedPlace where
  | looking (again : Bool)
  | missed (again : Bool)
  | finding (tomb : Tombstone) (id : String)
  | unknown
  | inserting (id : String)
  | owning (id hash : String)
  | sent (id hash : String)
  | answered (id hash : String)
  | conflicted
  | refused
  | removing (known : List TaskRow) (filed : Option String)
  -- A statement failed, or the agent refused the task, between the INSERT and the dispatch.
  | stray

def KeyedCall.creates : KeyedCall → Bool
  | .create _ _ _ => true
  | _ => false

section calls

variable (platform : Platform) (hashOpaque : Hashed → String)

def requestHashOf (input : CreateTaskInput) : String := hashOpaque (.create { input with idempotency_key := none })

def KeyedCall.hash : KeyedCall → String
  | .create input _ _ => requestHashOf hashOpaque input
  | _ => ""

def KeyedCall.body : KeyedCall → Service (Option Created)
  | .create input source scheduleId => do
      let created ← Tasks.create platform hashOpaque input source scheduleId
      pure (some created)
  | .delete id mode reason deletedBy idempotencyKey => do
      let _ ← Tasks.delete platform hashOpaque id mode reason deletedBy idempotencyKey
      pure none
  | .purgeExpired => do
      let _ ← Tasks.purgeExpired platform
      pure none
  | .detail id => do
      let _ ← Tasks.detail platform id
      pure none
  | .agent id status => do
      call (.agentMoves id status)
      pure none

end calls

abbrev KeyedPool : Type := Pool TaskOp TaskOp.Result Thrown (Option Created) KeyedCall KeyedState

section places

variable (platform : Platform) (hashOpaque : Hashed → String) (backendId key : String)

-- The agent takes a task whose request reaches it.
def taken_ (op : TaskOp) (state : TasksState) : Option TaskDispatch :=
  match op with
  | .createTask other task =>
      if other = backendId ∧ task.idempotency_key = some key ∧ (state.exchanges state.requests).refused.isNone then some task else none
  | _ => none

def KeyedState.exec (op : TaskOp) (state : KeyedState) : Except Thrown op.Result × KeyedState :=
  if state.failing op then (.error (.d1 "D1_ERROR"), { state with performed := state.performed + 1 })
  else
    ((op.exec state.base).1,
      { state with
        base := (op.exec state.base).2
        performed := state.performed + 1
        dispatched := (taken_ backendId key op state.base).toList ++ state.dispatched })

def reusedPlace (own : String) (existing : TaskIndex) : KeyedPlace :=
  match existing.requestHash with
  | some hash => if hash ≠ own then .conflicted else .answered existing.id own
  | none => .answered existing.id own

-- The entry a look at the ledger finds.
def entryAt (now : String) (state : TasksState) : Option (Tombstone × String) :=
  ((state.tombstones.find? (backendId, key)).filter fun tombstone => decide (now < tombstone.expires_at)).bind fun tomb =>
    (truthy tomb.task_id).map fun taskId => (tomb, taskId)

def rowAt (state : TasksState) : Option TaskRow :=
  state.tasks.rows.find? fun row => decide (row.backend_id = backendId ∧ row.idempotency_key = some key)

-- The entry a hard delete puts into the ledger for a row.
def files (row : TaskRow) (tomb : Tombstone) : Bool :=
  (truthy row.idempotency_key).any (fun key => decide (tomb.key = (row.backend_id, key))) &&
    decide (tomb.request_hash = row.request_hash.getD "" ∧ tomb.task_id = some row.id)

-- What touches neither the rows' keys nor the ledger.
def aside : TaskOp → Bool
  | .readClock => true
  | .selectBackend _ => true
  | .selectRetention _ => true
  | .updateTask _ _ => true
  | .loadOpIdempotency _ _ => true
  | .storeOpIdempotency _ _ => true
  | .getTask _ _ => true
  | .agentMoves _ _ => true
  | _ => false

def isCapabilityReply (error : Option AppError) : Bool := error.any fun error => isCapability (.app error)

def keyedNext (call : KeyedCall) : KeyedPlace → TaskOp → KeyedState → Option KeyedPlace
  | .looking again, .selectTombstone other otherKey now, state =>
      if other = backendId ∧ otherKey = key then
        some (if state.failing (.selectTombstone other otherKey now) then .missed again
          else match entryAt backendId key now state.base with
            | some (tomb, id) =>
                if tomb.task_deleted then reusedPlace (call.hash hashOpaque) (tombstoneIndex tomb id (some tomb.created_at))
                else .finding tomb id
            | none => .missed again)
      else none
  | .looking again, .selectBackend _, _ => some (.looking again)
  | .looking again, .getCapabilities _, _ => some (.looking again)
  | .looking again, .readClock, _ => some (.looking again)
  | .missed again, .selectTaskByIdempotency other otherKey, state =>
      if other = backendId ∧ otherKey = key then
        some (if state.failing (.selectTaskByIdempotency other otherKey) then .refused
          else match rowAt backendId key state.base with
            | some row => reusedPlace (call.hash hashOpaque) (toTaskIndex row)
            | none => if again then .refused else .unknown)
      else none
  | .finding tomb id, .selectTask other, state =>
      if other = id then
        some (if state.failing (.selectTask other) then .refused
          else match state.base.tasks.find? id with
            | some live => reusedPlace (call.hash hashOpaque) (toTaskIndex live)
            | none => reusedPlace (call.hash hashOpaque) (tombstoneIndex tomb id none))
      else none
  | .unknown, .randomUUID, state => some (.inserting (state.base.uuids state.base.drawn))
  | .inserting id, .readClock, _ => some (.inserting id)
  | .inserting id, .insertTask row, state =>
      if call.creates ∧ row.id = id ∧ row.backend_id = backendId ∧ row.idempotency_key = some key ∧
          row.request_hash = some (call.hash hashOpaque) then
        some (if state.failing (.insertTask row) || taken state.base.tasks row then .looking true
          else .owning id (call.hash hashOpaque))
      else none
  | .owning id hash, .upsertTombstone tomb, state =>
      if tomb.key = (backendId, key) ∧ tomb.task_id = some id ∧ tomb.request_hash = hash ∧ tomb.task_deleted = false then
        some (if state.failing (.upsertTombstone tomb) then .stray else .owning id hash)
      else none
  | .owning id hash, .readClock, _ => some (.owning id hash)
  | .owning id hash, .updateTask (.setStatus .dispatching now) other, state =>
      some (if state.failing (.updateTask (.setStatus .dispatching now) other) then .stray else .owning id hash)
  | .owning id hash, .createTask other task, state =>
      if other = backendId ∧ task.idempotency_key = some key ∧ task.task_id = id ∧
          requestHashOf hashOpaque task.toCreateTaskInput = hash then
        some (if (state.base.exchanges state.base.requests).refused.isNone &&
            !isCapabilityReply (state.base.exchanges state.base.requests).lost then .sent id hash else .stray)
      else none
  | .sent id hash, .selectTask other, state =>
      if other = id then
        some (match (KeyedState.exec backendId key (.selectTask other) state).1 with
          | .ok (some row) => if row.deleted_at.isSome then .sent id hash else .answered row.id hash
          | _ => .sent id hash)
      else none
  | .sent id hash, .readClock, _ => some (.sent id hash)
  | .sent id hash, .selectRetention _, _ => some (.sent id hash)
  | .sent id hash, .updateTask _ _, _ => some (.sent id hash)
  | .removing _ _, .selectTask id, state =>
      some (.removing (if state.failing (.selectTask id) then [] else (state.base.tasks.find? id).toList) none)
  | .removing _ _, .selectTasks query, state =>
      some (.removing (match (KeyedState.exec backendId key (.selectTasks query) state).1 with | .ok rows => rows | .error _ => []) none)
  | .removing known _, .upsertTombstone tomb, state =>
      if known.any fun row => files row tomb then
        some (.removing known (if state.failing (.upsertTombstone tomb) then none else tomb.task_id))
      else none
  | .removing known filed, .deleteTask id, _ =>
      if filed = some id ∨ known.any (fun row => decide (row.id = id) && (truthy row.idempotency_key).isNone) = true then
        some (.removing known none)
      else none
  | .removing known _, .deleteExpiredTombstones _, _ => some (.removing known none)
  | .removing known _, op, _ => if aside op then some (.removing known none) else none
  | .stray, _, _ => some .stray
  | _, _, _ => none

-- A create's own failure: its backend, its agent, or one of its statements.
def ownFailure : Thrown → Bool
  | .d1 _ => true
  | .app error => ["backend_not_found", "backend_disabled", "capability_unavailable", "internal_error"].contains error.code

def KeyedCall.ends (call : KeyedCall) : KeyedPlace → Except Thrown (Option Created) → Prop
  | .answered id hash, .ok (some created) => created.task.id = id ∧ hash = call.hash hashOpaque
  | .conflicted, .error error => ∃ details, error = idempotencyConflict details
  | .sent _ hash, .error _ => hash = call.hash hashOpaque
  | .looking _, .error error => ownFailure error = true
  | .refused, .error error => ownFailure error = true
  | .removing _ _, .ok none => call.creates = false
  | .removing _ _, .error _ => call.creates = false
  | .stray, _ => True
  | _, _ => False

-- What create makes of its look at the ledger and the rows.
def looked (own : String) (again : Bool) : KeyedPlace → Except Thrown (Option TaskIndex) → Prop
  | place, .ok (some existing) => place = reusedPlace own existing
  | place, .ok none => place = if again then .refused else .unknown
  | place, .error error => place = .refused ∧ ownFailure error = true

def createEnds (call : KeyedCall) (place : KeyedPlace) (result : Except Thrown Created) : Prop :=
  call.ends hashOpaque place (result.map some)

theorem keyed_failing (op : TaskOp) (state : KeyedState) (failed : state.failing op = true) :
    (KeyedState.exec backendId key op state).1 = .error (.d1 "D1_ERROR") := by
  rw [KeyedState.exec, if_pos failed]

theorem keyed_performed (op : TaskOp) (state : KeyedState) (went : state.failing op = false) :
    (KeyedState.exec backendId key op state).1 = (op.exec state.base).1 := by
  rw [KeyedState.exec, if_neg (by rw [went]; decide)]

theorem stray_follows {α : Type} (call : KeyedCall) (program : Service α) (final : KeyedPlace → Except Thrown α → Prop)
    (ends : ∀ result, final .stray result) :
    program.Follows (KeyedState.exec backendId key) (keyedNext hashOpaque backendId key call) .stray final := by
  induction program with
  | ret value => exact ends _
  | fail error => exact ends _
  | call op rest ih =>
      intro state
      exact ⟨.stray, by cases op <;> rfl, ih _⟩

theorem find_follows (call : KeyedCall) (again : Bool) :
    (findByIdempotency backendId key).Follows (KeyedState.exec backendId key) (keyedNext hashOpaque backendId key call)
      (.looking again) (looked (call.hash hashOpaque) again) := by
  have missing : (do
      let row ← Tasks.call (.selectTaskByIdempotency backendId key)
      pure (row.map toTaskIndex) : Service (Option TaskIndex)).Follows (KeyedState.exec backendId key)
        (keyedNext hashOpaque backendId key call) (.missed again) (looked (call.hash hashOpaque) again) := by
    refine follows_call _ _ _ _ _ _ fun state => ?_
    refine ⟨_, if_pos ⟨rfl, rfl⟩, ?_⟩
    cases failed : state.failing (.selectTaskByIdempotency backendId key) with
    | true =>
        rw [keyed_failing _ _ _ _ failed, if_pos rfl]
        refine ⟨(fun value same => by cases same), fun error same => ?_⟩
        cases same
        exact ⟨rfl, rfl⟩
    | false =>
        rw [keyed_performed _ _ _ _ failed, if_neg (by decide)]
        have read : (TaskOp.exec (.selectTaskByIdempotency backendId key) state.base).1 = .ok (rowAt backendId key state.base) := rfl
        rw [read]
        refine ⟨fun value same => ?_, fun error same => by cases same⟩
        cases same
        cases rowAt backendId key state.base with
        | none => exact rfl
        | some row => exact rfl
  rw [findByIdempotency]
  refine follows_call _ _ _ _ _ _ fun state => ⟨_, rfl, fun now _ => ?_, fun error failed => ?_⟩
  · intro state
    refine ⟨_, if_pos ⟨rfl, rfl⟩, ?_⟩
    cases failed : state.failing (.selectTombstone backendId key (toISOString now)) with
    | true =>
        rw [keyed_failing _ _ _ _ failed, if_pos rfl]
        exact missing
    | false =>
        have read : (TaskOp.exec (.selectTombstone backendId key (toISOString now)) state.base).1 =
          .ok ((state.base.tombstones.find? (backendId, key)).filter fun tombstone => decide (toISOString now < tombstone.expires_at)) :=
            rfl
        rw [keyed_performed _ _ _ _ failed, if_neg (by decide), read, entryAt]
        generalize Option.filter _ _ = found
        simp only [Async.attempt, Async.bind]
        generalize found.bind _ = entry
        cases entry with
        | none => exact missing
        | some entry =>
            obtain ⟨tomb, id⟩ := entry
            dsimp only
            cases tomb.task_deleted with
            | true => exact rfl
            | false =>
                rw [if_neg (by decide), if_neg (by decide)]
                refine follows_call _ _ _ _ _ _ fun later => ⟨_, if_pos rfl, ?_⟩
                cases lost : later.failing (.selectTask id) with
                | true =>
                    rw [keyed_failing _ _ _ _ lost, if_pos rfl]
                    refine ⟨(fun value same => by cases same), fun error same => ?_⟩
                    cases same
                    exact ⟨rfl, rfl⟩
                | false =>
                    have row : (TaskOp.exec (.selectTask id) later.base).1 = .ok (later.base.tasks.find? id) := rfl
                    rw [keyed_performed _ _ _ _ lost, if_neg (by decide), row]
                    refine ⟨fun value same => ?_, fun error same => by cases same⟩
                    cases same
                    cases later.base.tasks.find? id with
                    | none => exact rfl
                    | some live => exact rfl
  · rw [keyed_performed _ _ _ _ rfl] at failed
    cases failed

theorem reuse_follows (call : KeyedCall) (existing : TaskIndex) :
    (reuse existing (call.hash hashOpaque)).Follows (KeyedState.exec backendId key) (keyedNext hashOpaque backendId key call)
      (reusedPlace (call.hash hashOpaque) existing) (createEnds hashOpaque call) := by
  rw [reuse, reusedPlace]
  cases existing.requestHash with
  | none => exact ⟨rfl, rfl⟩
  | some hash =>
      dsimp only
      split
      · exact ⟨_, rfl⟩
      · exact ⟨rfl, rfl⟩

-- A call that stays where it is: what it answers is as the program goes on, and it fails with D1's error only.
theorem call_stays {α : Type} (asked : KeyedCall) (place : KeyedPlace) (op : TaskOp) (continue_ : op.Result → Service α)
    (final : KeyedPlace → Except Thrown α → Prop) (stays : ∀ state, keyedNext hashOpaque backendId key asked place op state = some place)
    (fails : ∀ state error, (op.exec state).1 = .error error → final place (.error error))
    (failing : isStatement op = true → final place (.error (.d1 "D1_ERROR")))
    (later : ∀ value, (continue_ value).Follows (KeyedState.exec backendId key) (keyedNext hashOpaque backendId key asked) place final) :
    (Tasks.call op >>= continue_).Follows (KeyedState.exec backendId key) (keyedNext hashOpaque backendId key asked) place final := by
  refine follows_call _ _ _ _ _ _ fun state => ⟨place, stays state, fun value _ => later value, fun error failed => ?_⟩
  cases went : state.failing op with
  | true =>
      rw [keyed_failing _ _ _ _ went, Except.error.injEq] at failed
      rw [← failed]
      rw [KeyedState.failing, Bool.and_eq_true] at went
      exact failing went.1
  | false =>
      rw [keyed_performed _ _ _ _ went] at failed
      exact fails _ error failed

-- After the dispatch a create fails with no capability error of its own.
def afterwards_ {α : Type} (id hash : String) (place : KeyedPlace) (result : Except Thrown α) : Prop :=
  place = .sent id hash ∧ ∀ error, result = .error error → isCapability error = false

theorem status_sent (call : KeyedCall) (id hash other : String) (status : TaskStatus) :
    (setStatus platform other status).Follows (KeyedState.exec backendId key) (keyedNext hashOpaque backendId key call)
      (.sent id hash) (afterwards_ id hash) := by
  have lost : afterwards_ (α := Unit) id hash (.sent id hash) (.error (.d1 "D1_ERROR")) := by
    refine ⟨rfl, fun error same => ?_⟩
    cases same
    rfl
  have update : ∀ statement, (Tasks.call (.updateTask statement other) : Service Unit).Follows (KeyedState.exec backendId key)
      (keyedNext hashOpaque backendId key call) (.sent id hash) (afterwards_ id hash) := by
    intro statement state
    refine ⟨_, rfl, ?_⟩
    cases failed : state.failing (.updateTask statement other) with
    | true =>
        rw [keyed_failing _ _ _ _ failed]
        exact lost
    | false =>
        rw [keyed_performed _ _ _ _ failed]
        exact ⟨rfl, fun error same => by cases same⟩
  rw [setStatus]
  refine call_stays hashOpaque backendId key call _ _ _ _ (fun _ => rfl) (fun _ _ failed => by cases failed) (fun _ => lost) fun now => ?_
  split
  · exact update _
  · refine call_stays hashOpaque backendId key call _ _ _ _ (fun _ => rfl) (fun _ _ failed => by cases failed) (fun _ => lost) fun row => ?_
    exact update _

-- Up to the dispatch a failure leaves the task without one.
def beforehand {α : Type} (id hash : String) (place : KeyedPlace) (result : Except Thrown α) : Prop :=
  match result with
  | .ok _ => place = .owning id hash
  | .error _ => place = .stray

theorem status_owning (call : KeyedCall) (id hash : String) :
    (setStatus platform id .dispatching).Follows (KeyedState.exec backendId key) (keyedNext hashOpaque backendId key call)
      (.owning id hash) (beforehand id hash) := by
  rw [setStatus]
  refine follows_call _ _ _ _ _ _ fun state => ⟨_, rfl, fun now _ => ?_, fun error failed => ?_⟩
  · rw [if_pos (by decide)]
    intro later
    refine ⟨_, rfl, ?_⟩
    cases failed : later.failing (.updateTask (.setStatus .dispatching (toISOString now)) id) with
    | true =>
        rw [keyed_failing _ _ _ _ failed, if_pos rfl]
        exact rfl
    | false =>
        rw [keyed_performed _ _ _ _ failed, if_neg (by decide)]
        exact rfl
  · rw [keyed_performed _ _ _ _ rfl] at failed
    cases failed

theorem request_lost {Reply : Type} (serve : TasksState → Except AppError Reply × TasksState) (state : TasksState)
    (error : Thrown) (served : ∀ sent, ∃ reply, (serve sent).1 = .ok reply) (refused : (state.exchanges state.requests).refused = none)
    (failed : (state.request serve).1 = .error error) :
    ∃ reason, (state.exchanges state.requests).lost = some reason ∧ error = .app reason := by
  rw [TasksState.request, refused] at failed
  cases lost : (state.exchanges state.requests).lost with
  | some reason =>
      rw [lost] at failed
      cases failed
      exact ⟨reason, rfl, rfl⟩
  | none =>
      obtain ⟨reply, answered⟩ := served { state with requests := state.requests + 1 }
      rw [lost] at failed
      dsimp only at failed
      rw [answered] at failed
      cases failed

theorem dispatch_follows (asked : KeyedCall) (input : CreateTaskInput) (source : TaskSource) (scheduleId : Option String)
    (backend : input.backend_id = backendId) (named : input.idempotency_key = some key) (id : String)
    (hash : asked.hash hashOpaque = requestHashOf hashOpaque input) :
    (dispatch platform input source scheduleId id (asked.hash hashOpaque)).Follows (KeyedState.exec backendId key)
      (keyedNext hashOpaque backendId key asked) (.owning id (asked.hash hashOpaque)) (createEnds hashOpaque asked) := by
  have gone : ∀ {α : Type} (program : Service α) (final : KeyedPlace → Except Thrown α → Prop), (∀ result, final .stray result) →
      program.Follows (KeyedState.exec backendId key) (keyedNext hashOpaque backendId key asked) .stray final :=
    fun program final ends => stray_follows hashOpaque backendId key asked program final ends
  rw [dispatch]
  refine follows_bind _ _ _ _ _ (beforehand id (asked.hash hashOpaque)) _ (status_owning platform hashOpaque backendId key asked _ _) ?_ ?_
  · rintro there value rfl
    refine follows_bind _ _ _ _ _ (fun there result => there = .stray ∨ ∃ outcome, result = .ok outcome ∧
      afterwards_ id (asked.hash hashOpaque) there outcome) _ ?_ ?_ ?_
    · refine follows_attempt _ _ _ _ (fun there outcome => there = .stray ∨ afterwards_ id (asked.hash hashOpaque) there outcome) _ ?_ ?_
      · refine follows_call _ _ _ _ _ _ fun state => ⟨_, if_pos ⟨backend, named, rfl, hash.symm⟩, ?_⟩
        cases taken : (state.base.exchanges state.base.requests).refused.isNone &&
            !isCapabilityReply (state.base.exchanges state.base.requests).lost with
        | false =>
            rw [if_neg (by decide)]
            exact ⟨fun _ _ => gone _ _ fun _ => Or.inl rfl, fun _ _ => Or.inl rfl⟩
        | true =>
            rw [if_pos rfl]
            refine ⟨fun _ _ => ?_, fun error failed => Or.inr ⟨rfl, fun reason same => ?_⟩⟩
            · exact follows_mono _ _ _ _ _ _ (fun _ _ after => Or.inr after)
                (status_sent platform hashOpaque backendId key asked id _ id .queued)
            · cases same
              rw [Bool.and_eq_true, Option.isNone_iff_eq_none] at taken
              rw [keyed_performed _ _ _ _ rfl] at failed
              obtain ⟨reason, lost, rfl⟩ := request_lost _ state.base error (fun _ => ⟨(), rfl⟩) taken.1 failed
              have other := taken.2
              rw [lost] at other
              simpa [isCapabilityReply] using other
      · rintro there result (stray | after)
        · exact Or.inl stray
        · exact Or.inr ⟨result, rfl, after⟩
    · rintro there outcome (rfl | ⟨answer, same, after⟩)
      · exact gone _ _ fun _ => trivial
      · obtain rfl := Except.ok.inj same
        obtain ⟨rfl, mild⟩ := after
        cases outcome with
        | ok value =>
            intro state
            refine ⟨_, if_pos rfl, ?_⟩
            cases (KeyedState.exec backendId key (.selectTask id) state).1 with
            | error error => exact rfl
            | ok found =>
                cases found with
                | none => exact rfl
                | some row =>
                    simp only [Async.bind]
                    cases row.deleted_at.isSome with
                    | true => exact rfl
                    | false => exact ⟨rfl, rfl⟩
        | error error =>
            dsimp only
            rw [mild error rfl, if_neg (by decide)]
            refine follows_bind _ _ _ _ _ (afterwards_ id (asked.hash hashOpaque)) _
              (status_sent platform hashOpaque backendId key asked id _ id .dispatch_failed) ?_ ?_
            · rintro there value ⟨rfl, -⟩
              exact rfl
            · rintro there error ⟨rfl, -⟩
              exact rfl
    · rintro there error (rfl | ⟨answer, same, -⟩)
      · exact trivial
      · cases same
  · rintro there error rfl
    exact trivial

-- A create's own failures are told apart from what the key's other calls make it answer.
theorem backend_follows (asked : KeyedCall) (again : Bool) (id : String) :
    (getBackend id).Follows (KeyedState.exec backendId key) (keyedNext hashOpaque backendId key asked) (.looking again)
      fun place result => place = .looking again ∧ ∀ error, result = .error error → ownFailure error = true := by
  rw [getBackend]
  refine call_stays hashOpaque backendId key asked _ _ _ _ (fun _ => rfl) (fun _ _ failed => by cases failed) (fun _ => ⟨rfl, ?_⟩) ?_
  · intro error same
    cases same
    rfl
  · intro found
    cases found with
    | none =>
        refine ⟨rfl, fun error same => ?_⟩
        cases same
        rfl
    | some enabled => exact ⟨rfl, fun error same => by cases same⟩

theorem preflight_follows (asked : KeyedCall) (again : Bool) (id : String) :
    (preflight id).Follows (KeyedState.exec backendId key) (keyedNext hashOpaque backendId key asked) (.looking again)
      fun place result => place = .looking again ∧ ∀ error, result = .error error → ownFailure error = true := by
  rw [preflight]
  refine follows_bind _ _ _ _ _ (fun place result => place = .looking again ∧ ∃ outcome, result = .ok outcome) _ ?_ ?_ ?_
  · refine follows_attempt _ _ _ _ (fun place _ => place = .looking again) _ ?_ fun there result same => ⟨same, result, rfl⟩
    refine call_stays hashOpaque backendId key asked _ _ _ _ (fun _ => rfl) (fun _ _ _ => rfl) (fun _ => rfl) fun available => ?_
    split
    · exact rfl
    · exact rfl
  · rintro there outcome ⟨rfl, -⟩
    split
    · split
      · rename_i error named
        refine ⟨rfl, fun thrown same => ?_⟩
        cases same
        simp [ownFailure, named]
      · exact ⟨rfl, fun error same => by cases same⟩
    · exact ⟨rfl, fun error same => by cases same⟩
  · rintro there error ⟨_, outcome, same⟩
    cases same

theorem upsert_done (tomb : Tombstone) (state : TasksState) : (TaskOp.exec (.upsertTombstone tomb) state).1 = .ok () := by
  rw [TaskOp.exec]
  split <;> rfl

theorem insert_follows (asked : KeyedCall) (creates : asked.creates = true) (input : CreateTaskInput) (row : TaskRow) (now : Int)
    (given : truthy input.idempotency_key = some key) (backend : input.backend_id = backendId) (rowBackend : row.backend_id = backendId)
    (named : row.idempotency_key = some key) (hashed : row.request_hash = some (asked.hash hashOpaque)) :
    (insertIndex platform input row (asked.hash hashOpaque) now).Follows (KeyedState.exec backendId key)
      (keyedNext hashOpaque backendId key asked) (.inserting row.id) fun place result =>
        place = .stray ∨ (place = .owning row.id (asked.hash hashOpaque) ∧ result = .ok ()) ∨
          (place = .looking true ∧ ∃ error, result = .error error) := by
  have answers : ∀ state value, (KeyedState.exec backendId key (.insertTask row) state).1 = .ok value →
      (state.failing (.insertTask row) || taken state.base.tasks row) = false := by
    intro state value done
    cases failed : state.failing (.insertTask row) with
    | true =>
        rw [keyed_failing _ _ _ _ failed] at done
        cases done
    | false =>
        rw [keyed_performed _ _ _ _ failed, TaskOp.exec] at done
        cases held : taken state.base.tasks row with
        | true =>
            rw [held] at done
            cases done
        | false => rfl
  have refuses : ∀ state error, (KeyedState.exec backendId key (.insertTask row) state).1 = .error error →
      (state.failing (.insertTask row) || taken state.base.tasks row) = true := by
    intro state error lost
    cases failed : state.failing (.insertTask row) with
    | true => rfl
    | false =>
        rw [keyed_performed _ _ _ _ failed, TaskOp.exec] at lost
        cases held : taken state.base.tasks row with
        | true => rfl
        | false =>
            rw [held] at lost
            cases lost
  rw [insertIndex, given]
  refine follows_call _ _ _ _ _ _ fun state => ⟨_, if_pos ⟨creates, rfl, rowBackend, named, hashed⟩, fun value done => ?_, fun error failed => ?_⟩
  · rw [if_neg (by rw [answers state value done]; decide)]
    intro later
    refine ⟨_, if_pos ⟨by rw [backend]; rfl, rfl, rfl, rfl⟩, ?_⟩
    split
    · rename_i failed
      rw [keyed_failing _ _ _ _ failed]
      exact Or.inl rfl
    · rename_i went
      rw [keyed_performed _ _ _ _ (Bool.eq_false_iff.mpr went), upsert_done]
      exact Or.inr (Or.inl ⟨rfl, rfl⟩)
  · rw [if_pos (refuses state error failed)]
    exact Or.inr (Or.inr ⟨rfl, error, rfl⟩)

theorem given_key (input : CreateTaskInput) (given : truthy input.idempotency_key = some key) : input.idempotency_key = some key := by
  rw [truthy, Option.filter_eq_some_iff] at given
  exact given.1

theorem file_follows (asked : KeyedCall) (creates : asked.creates = true) (input : CreateTaskInput) (source : TaskSource) (scheduleId : Option String)
    (backend : input.backend_id = backendId) (given : truthy input.idempotency_key = some key) (id : String) (now : Int)
    (hash : asked.hash hashOpaque = requestHashOf hashOpaque input) :
    (file platform input source scheduleId (asked.hash hashOpaque) id now).Follows (KeyedState.exec backendId key)
      (keyedNext hashOpaque backendId key asked) (.inserting id) (createEnds hashOpaque asked) := by
  have named := given_key key input given
  rw [file]
  refine follows_bind _ _ _ _ _ (fun place result => ∃ outcome, result = .ok outcome ∧ (place = .stray ∨
    (place = .owning id (asked.hash hashOpaque) ∧ outcome = .ok ()) ∨ (place = .looking true ∧ ∃ error, outcome = .error error))) _ ?_ ?_ ?_
  · exact follows_attempt _ _ _ _ _ _ (insert_follows platform hashOpaque backendId key asked creates input
      (createdRow input source scheduleId (asked.hash hashOpaque) id now) now given backend backend named rfl)
      fun there result ends => ⟨result, rfl, ends⟩
  · rintro there outcome ⟨result, same, ends⟩
    obtain rfl := Except.ok.inj same
    rcases ends with rfl | ⟨rfl, rfl⟩ | ⟨rfl, error, rfl⟩
    · exact stray_follows hashOpaque backendId key asked _ _ fun _ => trivial
    · exact dispatch_follows platform hashOpaque backendId key asked input source scheduleId backend named id hash
    · have again := find_follows hashOpaque backendId key asked true
      dsimp only
      rw [findExisting, given, backend]
      refine follows_bind _ _ _ _ _ _ _ again ?_ ?_
      · intro there found ends
        cases found with
        | some existing =>
            obtain rfl : there = reusedPlace (asked.hash hashOpaque) existing := ends
            exact reuse_follows hashOpaque backendId key asked existing
        | none =>
            obtain rfl : there = .refused := ends
            exact rfl
      · rintro there error ⟨rfl, own⟩
        exact own
  · rintro there error ⟨outcome, same, -⟩
    cases same

-- What create does from the look for an earlier one on.
def createLooking (input : CreateTaskInput) (source : TaskSource) (scheduleId : Option String) : Service Created := do
  let existing ← findExisting input
  match existing with
  | some existing => reuse existing (requestHashOf hashOpaque input)
  | none =>
      let taskId ← Tasks.call .randomUUID
      let now ← Tasks.call .readClock
      file platform input source scheduleId (requestHashOf hashOpaque input) taskId now

theorem create_follows (input : CreateTaskInput) (source : TaskSource) (scheduleId : Option String)
    (backend : input.backend_id = backendId) (given : truthy input.idempotency_key = some key) :
    (Tasks.create platform hashOpaque input source scheduleId).Follows (KeyedState.exec backendId key)
      (keyedNext hashOpaque backendId key (.create input source scheduleId)) (.looking false)
      (createEnds hashOpaque (.create input source scheduleId)) := by
  have looks : (createLooking platform hashOpaque input source scheduleId).Follows (KeyedState.exec backendId key)
      (keyedNext hashOpaque backendId key (.create input source scheduleId)) (.looking false)
      (createEnds hashOpaque (.create input source scheduleId)) := by
    rw [createLooking, findExisting, given, backend]
    refine follows_bind _ _ _ _ _ _ _ (find_follows hashOpaque backendId key (.create input source scheduleId) false) ?_ ?_
    · intro there found ends
      cases found with
      | some existing =>
          obtain rfl : there = reusedPlace (requestHashOf hashOpaque input) existing := ends
          exact reuse_follows hashOpaque backendId key (.create input source scheduleId) existing
      | none =>
          obtain rfl : there = .unknown := ends
          refine follows_call _ _ _ _ _ _ fun state => ⟨_, rfl, fun taskId drawn => ?_, fun error failed => ?_⟩
          · cases drawn
            refine call_stays hashOpaque backendId key _ _ _ _ _ (fun _ => rfl) (fun _ _ failed => by cases failed)
              (fun never => by cases never) fun now => ?_
            exact file_follows platform hashOpaque backendId key (.create input source scheduleId) rfl input source scheduleId backend given
              _ now rfl
          · cases failed
    · rintro there error ⟨rfl, own⟩
      exact own
  rw [create]
  refine follows_bind _ _ _ _ _ _ _ (backend_follows hashOpaque backendId key _ false input.backend_id) ?_ ?_
  · rintro there enabled ⟨rfl, -⟩
    split
    · exact rfl
    · split
      · refine follows_bind _ _ _ _ _ _ _ (preflight_follows hashOpaque backendId key _ false input.backend_id) ?_ ?_
        · rintro there done ⟨rfl, -⟩
          exact looks
        · rintro there error ⟨rfl, own⟩
          exact own error rfl
      · exact looks
  · rintro there error ⟨rfl, own⟩
    exact own error rfl

section removals

variable (asked : KeyedCall)

-- A call that removes has these rows read; which of them is in the ledger does not matter afterwards.
def reads {α : Type} (known : List TaskRow) (place : KeyedPlace) (_ : Except Thrown α) : Prop :=
  ∃ filed, place = .removing known filed

def removes {α : Type} (place : KeyedPlace) (_ : Except Thrown α) : Prop := ∃ known filed, place = .removing known filed

theorem reads_removes (known : List TaskRow) (place : KeyedPlace) (reading : ∃ filed, place = .removing known filed) :
    ∃ known filed, place = .removing known filed := ⟨known, reading⟩

theorem aside_next (known : List TaskRow) (filed : Option String) (op : TaskOp) (state : KeyedState) (quiet : aside op = true) :
    keyedNext hashOpaque backendId key asked (.removing known filed) op state = some (.removing known none) := by
  cases op <;> first | rfl | cases quiet

theorem aside_follows {α : Type} (known : List TaskRow) (filed : Option String) (program : Service α)
    (uses : program.Uses fun op => aside op = true) :
    program.Follows (KeyedState.exec backendId key) (keyedNext hashOpaque backendId key asked) (.removing known filed) (reads known) := by
  induction program generalizing filed with
  | ret value => exact ⟨filed, rfl⟩
  | fail error => exact ⟨filed, rfl⟩
  | call op rest ih =>
      intro state
      exact ⟨_, aside_next hashOpaque backendId key asked known filed op state uses.1, ih _ none (uses.2 _)⟩

-- What reads one row or none at a time and touches no key.
def lightly (op : TaskOp) : Prop := aside op = true ∨ ∃ id, op = .selectTask id

theorem lightly_follows {α : Type} (known : List TaskRow) (filed : Option String) (program : Service α) (uses : program.Uses lightly) :
    program.Follows (KeyedState.exec backendId key) (keyedNext hashOpaque backendId key asked) (.removing known filed) removes := by
  induction program generalizing known filed with
  | ret value => exact ⟨known, filed, rfl⟩
  | fail error => exact ⟨known, filed, rfl⟩
  | call op rest ih =>
      intro state
      rcases uses.1 with quiet | ⟨id, rfl⟩
      · exact ⟨_, aside_next hashOpaque backendId key asked known filed op state quiet, ih _ known none (uses.2 _)⟩
      · exact ⟨_, rfl, ih _ _ none (uses.2 _)⟩

theorem call_aside (op : TaskOp) (quiet : aside op = true) : (Tasks.call op).Uses fun op => aside op = true :=
  uses_perform _ op quiet

theorem hard_delete_follows (known : List TaskRow) (filed : Option String) (row : TaskRow) (member : row ∈ known) :
    (hardDeleteTaskRow platform row).Follows (KeyedState.exec backendId key) (keyedNext hashOpaque backendId key asked)
      (.removing known filed) (reads known) := by
  have last : ∀ filed, (filed = some row.id ∨
      known.any (fun row' => decide (row'.id = row.id) && (truthy row'.idempotency_key).isNone) = true) →
        (Tasks.call (.deleteTask row.id) : Service Unit).Follows (KeyedState.exec backendId key)
          (keyedNext hashOpaque backendId key asked) (.removing known filed) (reads known) := by
    intro filed listed state
    refine ⟨_, if_pos listed, ?_⟩
    cases (KeyedState.exec backendId key (.deleteTask row.id) state).1 with
    | ok value => exact ⟨none, rfl⟩
    | error error => exact ⟨none, rfl⟩
  rw [hardDeleteTaskRow]
  cases named : truthy row.idempotency_key with
  | none =>
      refine last filed (Or.inr (List.any_eq_true.mpr ⟨row, member, ?_⟩))
      simp [named]
  | some name =>
      refine follows_call _ _ _ _ _ _ fun state => ⟨_, rfl, fun now _ => ?_, fun error _ => ⟨none, rfl⟩⟩
      refine follows_call _ _ _ _ _ _ fun later => ?_
      refine ⟨_, if_pos (List.any_eq_true.mpr ⟨row, member, ?_⟩), fun done filed_ => ?_, fun error _ => ⟨_, rfl⟩⟩
      · simp [files, named, Tombstone.key]
      · cases failed : later.failing _ with
        | true =>
            rw [keyed_failing _ _ _ _ failed] at filed_
            cases filed_
        | false =>
            rw [if_neg (by decide)]
            exact last _ (Or.inl rfl)

theorem purge_each_follows (known : List TaskRow) (step : TaskRow → Service Unit) (rows : List TaskRow)
    (each : ∀ row ∈ rows, ∀ filed, (step row).Follows (KeyedState.exec backendId key) (keyedNext hashOpaque backendId key asked)
      (.removing known filed) (reads known)) (filed : Option String) :
    (purgeEach step rows).Follows (KeyedState.exec backendId key) (keyedNext hashOpaque backendId key asked) (.removing known filed)
      (reads known) := by
  induction rows generalizing filed with
  | nil => exact ⟨filed, rfl⟩
  | cons row rest ih =>
      have later := ih fun other member => each other (List.mem_cons_of_mem _ member)
      rw [purgeEach]
      split
      · exact later filed
      · refine follows_bind _ _ _ _ _ (reads known) _ ?_ ?_ fun _ _ reading => reading
        · exact follows_attempt _ _ _ _ _ _ (each row List.mem_cons_self filed) fun _ _ reading => reading
        · rintro there purged ⟨moved, rfl⟩
          refine follows_bind _ _ _ _ _ (reads known) _ (later moved) ?_ fun _ _ reading => reading
          intro last count reading
          cases purged with
          | ok value => exact reading
          | error error => exact reading

theorem select_follows {α : Type} (known : List TaskRow) (filed : Option String) (query : TaskQuery)
    (continue_ : List TaskRow → Service α) (later : ∀ rows, (continue_ rows).Follows (KeyedState.exec backendId key)
      (keyedNext hashOpaque backendId key asked) (.removing rows none) removes) :
    (Tasks.call (.selectTasks query) >>= continue_).Follows (KeyedState.exec backendId key) (keyedNext hashOpaque backendId key asked)
      (.removing known filed) removes := by
  refine follows_call _ _ _ _ _ _ fun state => ⟨_, rfl, fun rows read => ?_, fun error _ => ⟨_, _, rfl⟩⟩
  rw [read]
  exact later rows

theorem purge_follows : (Tasks.purgeExpired platform).Follows (KeyedState.exec backendId key)
    (keyedNext hashOpaque backendId key asked) (.removing [] none) removes := by
  rw [purgeExpired]
  refine follows_call _ _ _ _ _ _ fun state => ⟨_, rfl, fun now _ => ?_, fun error _ => ⟨[], none, rfl⟩⟩
  refine select_follows hashOpaque backendId key asked [] none _ _ fun candidates => ?_
  refine follows_bind _ _ _ _ _ (reads candidates) _ ?_ ?_ fun _ _ reading => reads_removes candidates _ reading
  · refine purge_each_follows hashOpaque backendId key asked candidates _ _ (fun row _ filed => ?_) none
    exact aside_follows hashOpaque backendId key asked candidates filed _ (call_aside _ rfl)
  · rintro there soft_deleted ⟨moved, rfl⟩
    refine select_follows hashOpaque backendId key asked candidates moved _ _ fun rows => ?_
    refine follows_bind _ _ _ _ _ (reads rows) _ ?_ ?_ fun _ _ reading => reads_removes rows _ reading
    · exact purge_each_follows hashOpaque backendId key asked rows _ _
        (fun row member filed => hard_delete_follows platform hashOpaque backendId key asked rows filed row member) none
    · rintro there hard_deleted ⟨last, rfl⟩
      intro state
      refine ⟨_, rfl, ?_⟩
      cases (KeyedState.exec backendId key (.deleteExpiredTombstones (toISOString now)) state).1 with
      | ok value => exact ⟨rows, none, rfl⟩
      | error error => exact ⟨rows, none, rfl⟩

theorem delete_follows (id : String) (mode : Option DeleteMode) (reason deletedBy idempotencyKey : Option String) :
    (Tasks.delete platform hashOpaque id mode reason deletedBy idempotencyKey).Follows (KeyedState.exec backendId key)
      (keyedNext hashOpaque backendId key asked) (.removing [] none) removes := by
  have body : ∀ known filed, (deleteBody platform id (mode.getD .soft) (trimmedOr reason "manual_cleanup") (trimmedOr deletedBy "mcp")).Follows
      (KeyedState.exec backendId key) (keyedNext hashOpaque backendId key asked) (.removing known filed) removes := by
    intro known filed
    rw [deleteBody]
    refine follows_call _ _ _ _ _ _ fun state => ⟨_, rfl, fun found read => ?_, fun error _ => ⟨_, _, rfl⟩⟩
    have listed : (if state.failing (.selectTask id) then [] else (state.base.tasks.find? id).toList) = found.toList := by
      cases failed : state.failing (.selectTask id) with
      | true =>
          rw [keyed_failing _ _ _ _ failed] at read
          cases read
      | false =>
          rw [keyed_performed _ _ _ _ failed] at read
          cases read
          rfl
    rw [listed]
    cases found with
    | none => exact ⟨_, _, rfl⟩
    | some row =>
        dsimp only
        split
        · exact ⟨_, _, rfl⟩
        · split
          · exact ⟨_, _, rfl⟩
          · split
            · exact ⟨_, _, rfl⟩
            · split
              · refine follows_bind _ _ _ _ _ _ _ (hard_delete_follows platform hashOpaque backendId key asked [row] none row
                  (List.mem_singleton_self row)) ?_ fun _ _ reading => reads_removes [row] _ reading
                rintro there done ⟨last, rfl⟩
                exact ⟨[row], last, rfl⟩
              · refine lightly_follows hashOpaque backendId key asked [row] none _ ?_
                refine uses_bind _ _ _ (uses_perform _ _ (Or.inl rfl)) fun now => ?_
                refine uses_bind _ _ _ (uses_perform _ _ (Or.inl rfl)) fun _ => ?_
                exact uses_bind _ _ _ (uses_perform _ _ (Or.inr ⟨id, rfl⟩)) fun _ => trivial
  rw [delete, replaying]
  split
  · exact follows_bind _ _ _ _ _ _ _ (body [] none) (fun there value removed => removed) fun _ _ removed => removed
  · refine follows_call _ _ _ _ _ _ fun state => ⟨_, rfl, fun cached _ => ?_, fun error _ => ⟨[], none, rfl⟩⟩
    cases cached with
    | some cached =>
        dsimp only
        split
        · exact ⟨[], none, rfl⟩
        · exact ⟨[], none, rfl⟩
    | none =>
        refine follows_bind _ _ _ _ _ _ _ (body [] none) ?_ fun _ _ removed => removed
        rintro there value ⟨known, filed, rfl⟩
        refine lightly_follows hashOpaque backendId key asked known filed _ ?_
        exact uses_bind _ _ _ (uses_perform _ _ (Or.inl rfl)) fun _ => trivial

theorem detail_light (id : String) : (Tasks.detail platform id).Uses lightly := by
  have found : ∀ includeDeleted, (get id includeDeleted).Uses lightly := by
    intro includeDeleted
    refine uses_bind _ _ _ (uses_perform _ _ (Or.inr ⟨id, rfl⟩)) fun row => ?_
    cases row with
    | none => exact trivial
    | some row =>
        dsimp only
        split <;> exact trivial
  have moves : ∀ status, (setStatus platform id status).Uses lightly := by
    intro status
    refine uses_bind _ _ _ (uses_perform _ _ (Or.inl rfl)) fun now => ?_
    split
    · exact uses_perform _ _ (Or.inl rfl)
    · exact uses_bind _ _ _ (uses_perform _ _ (Or.inl rfl)) fun row => uses_perform _ _ (Or.inl rfl)
  rw [detail]
  refine uses_bind _ _ _ (found false) fun task => uses_bind _ _ _ ?_ fun enabled => uses_bind _ _ _ (uses_attempt _ _ ?_) fun refreshed => ?_
  · refine uses_bind _ _ _ (uses_perform _ _ (Or.inl rfl)) fun enabled => ?_
    cases enabled <;> exact trivial
  · refine uses_bind _ _ _ (uses_perform _ _ (Or.inl rfl)) fun remote => ?_
    cases remote with
    | none => exact found false
    | some status =>
        dsimp only
        split
        · exact uses_bind _ _ _ (moves status) fun _ => found false
        · exact found false
  · cases refreshed <;> exact trivial

end removals

def KeyedCall.entry : KeyedCall → KeyedPlace
  | .create _ _ _ => .looking false
  | _ => .removing [] none

-- The calls of the key: its creates, and what reads and removes its task.
def KeyedCall.asks : KeyedCall → Prop
  | .create input _ _ => input.backend_id = backendId ∧ truthy input.idempotency_key = some key
  | _ => True

theorem removing_follows {α : Type} (asked : KeyedCall) (removes_ : asked.creates = false) (program : Service α)
    (follows : program.Follows (KeyedState.exec backendId key) (keyedNext hashOpaque backendId key asked) (.removing [] none) removes) :
    (program >>= fun _ => pure none).Follows (KeyedState.exec backendId key) (keyedNext hashOpaque backendId key asked)
      (.removing [] none) (asked.ends hashOpaque) := by
  refine follows_bind _ _ _ _ _ _ _ follows ?_ ?_
  · rintro there value ⟨known, filed, rfl⟩
    exact removes_
  · rintro there error ⟨known, filed, rfl⟩
    exact removes_

theorem body_follows (asked : KeyedCall) (asks : asked.asks backendId key) :
    (asked.body platform hashOpaque).Follows (KeyedState.exec backendId key) (keyedNext hashOpaque backendId key asked) asked.entry
      (asked.ends hashOpaque) := by
  cases asked with
  | create input source scheduleId =>
      refine follows_bind _ _ _ _ _ _ _ (create_follows platform hashOpaque backendId key input source scheduleId asks.1 asks.2) ?_ ?_
      · exact fun there created ends => ends
      · exact fun there error ends => ends
  | delete id mode reason deletedBy idempotencyKey =>
      exact removing_follows hashOpaque backendId key _ rfl _
        (delete_follows platform hashOpaque backendId key _ id mode reason deletedBy idempotencyKey)
  | purgeExpired => exact removing_follows hashOpaque backendId key _ rfl _ (purge_follows platform hashOpaque backendId key _)
  | detail id =>
      exact removing_follows hashOpaque backendId key _ rfl _
        (lightly_follows hashOpaque backendId key _ [] none _ (detail_light platform id))
  | agent id status =>
      refine removing_follows hashOpaque backendId key _ rfl _ (lightly_follows hashOpaque backendId key _ [] none _ ?_)
      exact uses_perform _ _ (Or.inl rfl)

end places

end Vacps.Tasks
