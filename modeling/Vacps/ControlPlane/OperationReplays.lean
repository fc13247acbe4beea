import Vacps.ControlPlane.TaskService
import Vacps.Library.Runs

/- operation_idempotency under interleaved calls: who finds no record under a key, who acts, and what the calls
   of one key return. -/
set_option autoImplicit false

namespace Vacps.Tasks

open Library

-- The arguments of the operations that record their results.
inductive Request : Scope → Type where
  | cancel (id : String) : Request .cancel
  | retry (id : String) : Request .retry
  | delete (id : String) (mode : Option DeleteMode) (reason deletedBy : Option String) : Request .delete
  | cleanupRun (filters : CleanupFilters) (mode : Option DeleteMode) (reason deletedBy : Option String)
      (expectedMatchedCount : Option Nat) (limit : Option Int) : Request .cleanup

-- A statement or request that has nothing to do with operation_idempotency.
def plain : TaskOp → Prop
  | .loadOpIdempotency _ _ => False
  | .storeOpIdempotency _ _ => False
  | _ => True

structure Answer where
  scope : Scope
  body : scope.Body
  idempotency : Option Idempotency

inductive OperationCall where
  | request (scope : Scope) (request : Request scope) (idempotencyKey : Option String)
  -- Whatever else goes on.
  | other (program : Service Unit) (uses : program.Uses plain)

def OperationCall.asks (scope : Scope) (key : String) : OperationCall → Bool
  | .request asked _ idempotencyKey => decide (asked = scope) && truthy idempotencyKey == some key
  | .other _ _ => false

section calls

variable (platform : Platform) (hashOpaque : Hashed → String)

def Request.perform : {scope : Scope} → Request scope → Option String → Service (scope.Body × Option Idempotency)
  | _, .cancel id, key => Tasks.cancel platform hashOpaque id key
  | _, .retry id, key => Tasks.retry platform hashOpaque id key
  | _, .delete id mode reason deletedBy, key => Tasks.delete platform hashOpaque id mode reason deletedBy key
  | _, .cleanupRun filters mode reason deletedBy expectedMatchedCount limit, key =>
      Tasks.cleanupRun platform hashOpaque filters mode reason deletedBy expectedMatchedCount limit key

def OperationCall.body : OperationCall → Service (Option Answer)
  | .request scope asked idempotencyKey => do
      let reply ← asked.perform platform hashOpaque idempotencyKey
      pure (some ⟨scope, reply.1, reply.2⟩)
  | .other program _ => do
      program
      pure none

end calls

abbrev OperationPool : Type := Pool TaskOp TaskOp.Result Thrown (Option Answer) OperationCall TasksState

-- The request reaches the agent, and the agent does it.
def served {Reply : Type} (state : TasksState) (serve : TasksState → Except AppError Reply × TasksState) : Bool :=
  (state.exchanges state.requests).refused.isNone && (serve { state with requests := state.requests + 1 }).1.isOk

-- What changes the tasks, their keys or the agents.
def acts : TaskOp → TasksState → Bool
  | .insertTask _, _ => true
  | .insertTaskOrIgnore _, _ => true
  | .updateTask _ _, _ => true
  | .deleteTask _, _ => true
  | .upsertTombstone _, _ => true
  | .deleteTombstone _ _, _ => true
  | .deleteExpiredTombstones _, _ => true
  | .createTask _ task, state => served state (serveCreate task.task_id)
  | .cancelTask _ id, state => served state (serveCancel id)
  | .retryTask _ id, state => served state (serveRetry id (state.exchanges state.requests).newId)
  | .agentMoves _ _, _ => true
  | _, _ => false

-- The calls of one scope and key that found no record, and those that have acted, beside the pool.
structure ReplayHistory where
  pool : OperationPool
  missed : List Nat
  acted : List Nat

section history

variable (platform : Platform) (hashOpaque : Hashed → String) (scope : Scope) (key : String)

def recordOf (state : TasksState) : Option (ControlPlane.Replay scope.Body) := (state.replays scope).find? key

def misses (pool : OperationPool) (i : Nat) : Bool :=
  match pool.threads[i]? with
  | some ⟨_, .call (.loadOpIdempotency other otherKey) _⟩ =>
      decide (other = scope ∧ otherKey = key) && (recordOf scope key pool.state).isNone
  | _ => false

def actsNow (pool : OperationPool) (i : Nat) : Bool :=
  match pool.threads[i]? with
  | some ⟨call, .call op _⟩ => call.asks scope key && acts op pool.state
  | _ => false

def ReplayHistory.next (history : ReplayHistory) : PoolEvent OperationCall → ReplayHistory
  | .start call => { history with pool := history.pool.spawn (OperationCall.body platform hashOpaque) call }
  | .step i =>
      { pool := history.pool.advance TaskOp.exec i
        missed := if misses scope key history.pool i then i :: history.missed else history.missed
        acted := if actsNow scope key history.pool i then i :: history.acted else history.acted }

def replayRun (start : TasksState) (events : List (PoolEvent OperationCall)) : ReplayHistory :=
  runFrom (ReplayHistory.next platform hashOpaque scope key) ⟨⟨start, []⟩, [], []⟩ events

-- A call past an empty look-up is still on its way to the store, or ended before it after it had acted.
def ReplayHistory.pends (history : ReplayHistory) (i : Nat) : Bool :=
  match history.pool.threads[i]? with
  | some ⟨_, .call _ _⟩ => true
  | some ⟨_, .fail _⟩ => history.acted.contains i
  | _ => false

-- The key is looked up only when no call stands between an empty look-up and its store.
def looksUpAlone (history : ReplayHistory) (event : PoolEvent OperationCall) : Prop :=
  ∀ i call rest, event = .step i → history.pool.threads[i]? = some ⟨call, .call (.loadOpIdempotency scope key) rest⟩ →
    ∀ j ∈ history.missed, history.pends j = false

end history

section records

variable (scope : Scope) (key : String)

def avoids (op : TaskOp) : Prop :=
  (op ≠ .loadOpIdempotency scope key) ∧ ∀ replay, op = .storeOpIdempotency scope replay → replay.idempotency_key ≠ key

theorem plain_avoids (op : TaskOp) (clear : plain op) : avoids scope key op := by
  refine ⟨?_, ?_⟩
  · rintro rfl
    exact clear
  · rintro replay rfl
    exact False.elim clear

theorem request_replays {Reply : Type} (serve : TasksState → Except AppError Reply × TasksState) (state : TasksState)
    (kept : ∀ sent, (serve sent).2.replays = sent.replays) : (state.request serve).2.replays = state.replays := by
  unfold TasksState.request
  dsimp only
  split
  · rfl
  · split
    · exact kept _
    · exact kept _

theorem serve_create_replays (id : String) (state : TasksState) : (serveCreate id state).2.replays = state.replays := by
  unfold serveCreate
  split <;> rfl

theorem insert_replays (state : TasksState) (row : TaskRow) : (state.insert row).replays = state.replays := by
  unfold TasksState.insert
  split <;> rfl

theorem plain_replays (op : TaskOp) (clear : plain op) (state : TasksState) : (TaskOp.exec op state).2.replays = state.replays := by
  cases op with
  | loadOpIdempotency other otherKey => exact False.elim clear
  | storeOpIdempotency other replay => exact False.elim clear
  | insertTask row =>
      simp only [TaskOp.exec]
      split
      · rfl
      · exact insert_replays state row
  | insertTaskOrIgnore row =>
      simp only [TaskOp.exec]
      split
      · rfl
      · exact insert_replays state row
  | upsertTombstone tombstone =>
      simp only [TaskOp.exec]
      split <;> rfl
  | getCapabilities backendId => exact request_replays _ state fun _ => rfl
  | createTask backendId task => exact request_replays _ state fun sent => serve_create_replays _ sent
  | getTask backendId id =>
      refine request_replays _ state fun sent => ?_
      unfold serveGet
      split <;> rfl
  | cancelTask backendId id =>
      refine request_replays _ state fun sent => ?_
      unfold serveCancel
      split
      · rfl
      · split
        · rfl
        · dsimp only
          split <;> rfl
  | retryTask backendId id =>
      refine request_replays _ state fun sent => ?_
      unfold serveRetry
      split
      · rfl
      · split
        · exact serve_create_replays _ sent
        · rfl
  | agentMoves id status =>
      simp only [TaskOp.exec]
      split <;> rfl
  | _ => rfl

theorem replaced_find {Result : Type} (table : Table String (ControlPlane.Replay Result) ControlPlane.Replay.idempotency_key)
    (replay : ControlPlane.Replay Result) (other : String) :
    (ControlPlane.insertOrReplace table replay).find? other =
      if replay.idempotency_key = other then some replay else table.find? other := by
  rw [ControlPlane.insertOrReplace, Table.find_insert]
  by_cases same : replay.idempotency_key = other
  · rw [if_pos same, if_pos same]
  · rw [if_neg same, if_neg same, Table.find_delete, if_neg same]

theorem stored_record (state : TasksState) (replay : ControlPlane.Replay scope.Body) (mine : replay.idempotency_key = key) :
    recordOf scope key (TaskOp.exec (.storeOpIdempotency scope replay) state).2 = some replay := by
  simp only [recordOf, TaskOp.exec, Function.update_self]
  rw [replaced_find, if_pos mine]

theorem avoided_record (op : TaskOp) (avoided : avoids scope key op) (state : TasksState) :
    recordOf scope key (TaskOp.exec op state).2 = recordOf scope key state := by
  by_cases clear : plain op
  · rw [recordOf, recordOf, plain_replays op clear state]
  · cases op with
    | loadOpIdempotency other otherKey => rfl
    | storeOpIdempotency other replay =>
        simp only [recordOf, TaskOp.exec]
        by_cases same : scope = other
        · subst same
          rw [Function.update_self, replaced_find, if_neg (avoided.2 replay rfl)]
        · rw [Function.update_of_ne same]
    | _ => exact absurd trivial clear

end records

section bodies

variable (platform : Platform) (hashOpaque : Hashed → String)

theorem call_plain (op : TaskOp) (clear : plain op) : (call op).Uses plain := uses_perform plain op clear

theorem get_plain (id : String) (includeDeleted : Bool) : (get id includeDeleted).Uses plain := by
  refine uses_bind plain _ _ (call_plain _ trivial) fun row => ?_
  cases row with
  | none => exact trivial
  | some row =>
      dsimp only
      split <;> exact trivial

theorem backend_plain (id : String) : (getBackend id).Uses plain := by
  refine uses_bind plain _ _ (call_plain _ trivial) fun enabled => ?_
  cases enabled <;> exact trivial

theorem set_status_plain (id : String) (status : TaskStatus) : (setStatus platform id status).Uses plain := by
  refine uses_bind plain _ _ (call_plain _ trivial) fun now => ?_
  split
  · exact call_plain _ trivial
  · exact uses_bind plain _ _ (call_plain _ trivial) fun row => call_plain _ trivial

theorem cancel_plain (id : String) : (cancelBody platform id).Uses plain := by
  refine uses_bind plain _ _ (get_plain id false) fun task => ?_
  split
  · exact trivial
  · split
    · exact trivial
    · refine uses_bind plain _ _ (backend_plain _) fun _ => uses_bind plain _ _ (call_plain _ trivial) fun result => ?_
      have refreshed : ∀ reply : TaskIndex → CancelBody, (do let task ← get id false; pure (reply task) : Service CancelBody).Uses plain :=
        fun reply => uses_bind plain _ _ (get_plain id false) fun _ => trivial
      dsimp only
      split
      · exact uses_bind plain _ _ (set_status_plain platform id .cancelled) fun _ => refreshed _
      · exact refreshed _

theorem retry_plain (id : String) : (retryBody platform id).Uses plain := by
  refine uses_bind plain _ _ (get_plain id false) fun original => uses_bind plain _ _ (backend_plain _) fun _ => ?_
  refine uses_bind plain _ _ (call_plain _ trivial) fun result => ?_
  split
  · refine uses_bind plain _ _ (call_plain _ trivial) fun now => ?_
    refine uses_bind plain _ _ (uses_attempt plain _ (call_plain _ trivial)) fun _ => ?_
    refine uses_bind plain _ _ (uses_attempt plain _ (get_plain _ false)) fun task => ?_
    cases task <;> exact trivial
  · exact uses_bind plain _ _ (set_status_plain platform id .queued) fun _ =>
      uses_bind plain _ _ (get_plain id false) fun _ => trivial

theorem hard_delete_plain (row : TaskRow) : (hardDeleteTaskRow platform row).Uses plain := by
  rw [hardDeleteTaskRow]
  split
  · exact uses_bind plain _ _ (call_plain _ trivial) fun now => uses_bind plain _ _ (call_plain _ trivial) fun _ =>
      call_plain (.deleteTask row.id) trivial
  · exact call_plain (.deleteTask row.id) trivial

theorem delete_plain (id : String) (mode : DeleteMode) (reason deletedBy : String) :
    (deleteBody platform id mode reason deletedBy).Uses plain := by
  refine uses_bind plain _ _ (call_plain _ trivial) fun row => ?_
  cases row with
  | none => exact trivial
  | some row =>
      dsimp only
      split
      · exact trivial
      · split
        · exact trivial
        · split
          · exact trivial
          · cases mode with
            | hard => exact uses_bind plain _ _ (hard_delete_plain platform row) fun _ => trivial
            | soft =>
                refine uses_bind plain _ _ (call_plain _ trivial) fun now => uses_bind plain _ _ (call_plain _ trivial) fun _ => ?_
                exact uses_bind plain _ _ (call_plain _ trivial) fun _ => trivial

theorem delete_candidates_plain (mode : DeleteMode) (reason deletedBy : String) (now : Int) (rows : List TaskRow) :
    (deleteCandidates platform mode reason deletedBy now rows).Uses plain := by
  induction rows with
  | nil => exact trivial
  | cons row rest ih =>
      refine uses_bind plain _ _ (uses_attempt plain _ ?_) fun deleted => uses_bind plain _ _ ih fun later => ?_
      · cases mode with
        | hard => exact hard_delete_plain platform row
        | soft => exact call_plain _ trivial
      · cases deleted <;> exact trivial

theorem cleanup_plain (filters : CleanupFilters) (mode : DeleteMode) (reason deletedBy : String) (expectedMatchedCount : Option Nat)
    (batchLimit : Nat) :
    (cleanupBody platform filters mode reason deletedBy expectedMatchedCount batchLimit).Uses plain := by
  refine uses_bind plain _ _ ?_ fun clauses => uses_bind plain _ _ (call_plain _ trivial) fun candidates => ?_
  · rw [buildCleanupClauses]
    split
    · exact uses_bind plain _ _ (call_plain _ trivial) fun _ => trivial
    · exact trivial
  · split
    · exact trivial
    · refine uses_bind plain _ _ (call_plain _ trivial) fun now => ?_
      exact uses_bind plain _ _ (delete_candidates_plain platform mode reason deletedBy now candidates) fun _ => trivial

-- The four operations look their key up around a body of their own.
theorem request_replaying (scope : Scope) (request : Request scope) :
    ∃ (requestHash : String) (body : Service scope.Body), body.Uses plain ∧
      ∀ key, request.perform platform hashOpaque key = replaying scope key requestHash body := by
  cases request with
  | cancel id => exact ⟨_, _, cancel_plain platform id, fun _ => rfl⟩
  | retry id => exact ⟨_, _, retry_plain platform id, fun _ => rfl⟩
  | delete id mode reason deletedBy => exact ⟨_, _, delete_plain platform id _ _ _, fun _ => rfl⟩
  | cleanupRun filters mode reason deletedBy expectedMatchedCount limit =>
      exact ⟨_, _, cleanup_plain platform filters _ _ _ expectedMatchedCount _, fun _ => rfl⟩

end bodies

section stages

variable (scope : Scope) (key : String)

def wrapped (program : Service (scope.Body × Option Idempotency)) : Service (Option Answer) := do
  let reply ← program
  pure (some ⟨scope, reply.1, reply.2⟩)

-- What follows an empty look-up, and any look-up.
def recording (requestHash : String) (body : Service scope.Body) : Service (scope.Body × Option Idempotency) := do
  let result ← body
  call (.storeOpIdempotency scope ⟨key, requestHash, result⟩)
  pure (result, some ⟨key, false, requestHash⟩)

def lookedUp (requestHash : String) (body : Service scope.Body) :
    Option (ControlPlane.Replay scope.Body) → Service (scope.Body × Option Idempotency)
  | some cached =>
      if cached.request_hash ≠ requestHash then .fail (idempotencyConflict [])
      else pure (cached.result, some ⟨key, true, requestHash⟩)
  | none => recording scope key requestHash body

def lookingUp (requestHash : String) (body : Service scope.Body) : Service (scope.Body × Option Idempotency) := do
  let cached ← call (.loadOpIdempotency scope key)
  lookedUp scope key requestHash body cached

theorem replaying_keyed (idempotencyKey : Option String) (requestHash : String) (body : Service scope.Body)
    (given : truthy idempotencyKey = some key) :
    replaying scope idempotencyKey requestHash body = lookingUp scope key requestHash body := by
  simp only [replaying, given]
  refine congrArg _ (funext fun cached => ?_)
  cases cached <;> rfl

theorem replaying_avoids (other : Scope) (idempotencyKey : Option String) (requestHash : String) (body : Service other.Body)
    (uses : body.Uses plain) (elsewhere : ¬ (other = scope ∧ truthy idempotencyKey = some key)) :
    (replaying other idempotencyKey requestHash body).Uses (avoids scope key) := by
  have clear := uses_mono plain (avoids scope key) (plain_avoids scope key) body uses
  rw [replaying]
  split
  · exact uses_bind _ _ _ clear fun _ => trivial
  · rename_i otherKey given
    have loads : avoids scope key (.loadOpIdempotency other otherKey) := by
      refine ⟨?_, fun replay same => by cases same⟩
      intro same
      cases same
      exact elsewhere ⟨rfl, given⟩
    have stores : ∀ result, avoids scope key (.storeOpIdempotency other ⟨otherKey, requestHash, result⟩) := by
      intro result
      refine ⟨(fun same => by cases same), fun replay same mine => ?_⟩
      cases same
      exact elsewhere ⟨rfl, given.trans (congrArg some mine)⟩
    refine uses_bind _ _ _ (uses_perform _ _ loads) fun cached => ?_
    cases cached with
    | some cached =>
        dsimp only
        split <;> exact trivial
    | none =>
        refine uses_bind _ _ _ clear fun result => ?_
        exact uses_bind _ _ _ (uses_perform _ _ (stores result)) fun _ => trivial

-- A call of the scope and key before its look-up, past an empty one, answered, and failed.
inductive Stands (record : Option (ControlPlane.Replay scope.Body)) (missed : Prop) : Service (Option Answer) → Prop where
  | looking (requestHash : String) (body : Service scope.Body) (uses : body.Uses plain) :
      Stands record missed (wrapped scope (lookingUp scope key requestHash body))
  | working (requestHash : String) (body : Service scope.Body) (uses : body.Uses plain) (here : missed) :
      Stands record missed (wrapped scope (recording scope key requestHash body))
  | answered (body : scope.Body) (idempotency : Option Idempotency)
      (recorded : record.map ControlPlane.Replay.result = some body) :
      Stands record missed (.ret (some ⟨scope, body, idempotency⟩))
  | failed (error : Thrown) : Stands record missed (.fail error)

-- Without a record no call has been answered.
theorem stands_unrecorded (record : Option (ControlPlane.Replay scope.Body)) (missed later : Prop) (program : Service (Option Answer))
    (implies : missed → later) (stands : Stands scope key none missed program) : Stands scope key record later program := by
  cases stands with
  | looking requestHash body uses => exact .looking requestHash body uses
  | working requestHash body uses here => exact .working requestHash body uses (implies here)
  | answered body idempotency recorded => cases recorded
  | failed error => exact .failed error

-- The calls such a call may take next.
inductive KeyedStep (missed : Prop) : (op : TaskOp) → (Except Thrown op.Result → Service (Option Answer)) → Prop where
  | load (requestHash : String) (body : Service scope.Body) (uses : body.Uses plain)
      (rest : Except Thrown (Option (ControlPlane.Replay scope.Body)) → Service (Option Answer))
      (answers : ∀ cached, rest (.ok cached) = wrapped scope (lookedUp scope key requestHash body cached)) :
      KeyedStep missed (.loadOpIdempotency scope key) rest
  | store (requestHash : String) (result : scope.Body) (here : missed) (rest : Except Thrown Unit → Service (Option Answer))
      (answers : rest (.ok ()) = .ret (some ⟨scope, result, some ⟨key, false, requestHash⟩⟩)) :
      KeyedStep missed (.storeOpIdempotency scope ⟨key, requestHash, result⟩) rest
  | work (op : TaskOp) (rest : Except Thrown op.Result → Service (Option Answer)) (clear : plain op) (here : missed)
      (later : ∀ result, ∃ (requestHash : String) (body : Service scope.Body), body.Uses plain ∧
        rest result = wrapped scope (recording scope key requestHash body)) :
      KeyedStep missed op rest

theorem stands_step (record : Option (ControlPlane.Replay scope.Body)) (missed : Prop) (op : TaskOp)
    (rest : Except Thrown op.Result → Service (Option Answer)) (stands : Stands scope key record missed (.call op rest)) :
    KeyedStep scope key missed op rest := by
  generalize same : (Async.call op rest : Service (Option Answer)) = program at stands
  cases stands with
  | looking requestHash body uses =>
      cases same
      exact .load requestHash body uses _ fun _ => rfl
  | working requestHash body uses here =>
      cases body with
      | ret result =>
          cases same
          exact .store requestHash result here _ rfl
      | fail error => cases same
      | call other later =>
          cases same
          exact .work _ _ uses.1 here fun result => ⟨requestHash, later result, uses.2 result, rfl⟩
  | answered body idempotency recorded => cases same
  | failed error => cases same

end stages

section rule

variable (platform : Platform) (hashOpaque : Hashed → String) (scope : Scope) (key : String)

theorem call_stands (call : OperationCall) (record : Option (ControlPlane.Replay scope.Body)) (missed : Prop)
    (asked : call.asks scope key = true) : Stands scope key record missed (call.body platform hashOpaque) := by
  cases call with
  | other program uses => cases asked
  | request asking request idempotencyKey =>
      rw [OperationCall.asks, Bool.and_eq_true, decide_eq_true_eq, beq_iff_eq] at asked
      obtain ⟨rfl, given⟩ := asked
      obtain ⟨requestHash, body, uses, performs⟩ := request_replaying platform hashOpaque asking request
      rw [OperationCall.body, performs, replaying_keyed asking key idempotencyKey requestHash body given]
      exact .looking requestHash body uses

theorem call_avoids (call : OperationCall) (unasked : call.asks scope key = false) :
    (call.body platform hashOpaque).Uses (avoids scope key) := by
  cases call with
  | other program uses => exact uses_bind _ _ _ (uses_mono plain _ (plain_avoids scope key) program uses) fun _ => trivial
  | request asking request idempotencyKey =>
      obtain ⟨requestHash, body, uses, performs⟩ := request_replaying platform hashOpaque asking request
      rw [OperationCall.body, performs]
      refine uses_bind _ _ _ (replaying_avoids scope key asking idempotencyKey requestHash body uses ?_) fun _ => trivial
      rintro ⟨rfl, given⟩
      rw [OperationCall.asks, given] at unasked
      simp at unasked

-- At most one call is past an empty look-up and short of its store, and there is no record then. A call
-- that has acted is that one, or its result is the record.
structure Recorded (history : ReplayHistory) : Prop where
  keyed : ∀ (i : Nat) (call : OperationCall) (rest : Service (Option Answer)), history.pool.threads[i]? = some ⟨call, rest⟩ →
    call.asks scope key = true → Stands scope key (recordOf scope key history.pool.state) (i ∈ history.missed) rest
  others : ∀ (i : Nat) (call : OperationCall) (rest : Service (Option Answer)), history.pool.threads[i]? = some ⟨call, rest⟩ →
    call.asks scope key = false → rest.Uses (avoids scope key)
  asked : ∀ i ∈ history.missed, ∃ call rest, history.pool.threads[i]? = some ⟨call, rest⟩ ∧ call.asks scope key = true
  alone : ∀ i ∈ history.missed, ∀ j ∈ history.missed, history.pends i = true → history.pends j = true → i = j
  unrecorded : ∀ i ∈ history.missed, history.pends i = true → recordOf scope key history.pool.state = none
  acted : ∀ i ∈ history.acted,
    i ∈ history.missed ∧ (history.pends i = true ∨ (recordOf scope key history.pool.state).isSome = true)
  once : ∀ i ∈ history.acted, ∀ j ∈ history.acted, i = j

theorem recorded_start (history : ReplayHistory) (call : OperationCall) (ready : Recorded scope key history) :
    Recorded scope key (history.next platform hashOpaque scope key (.start call)) := by
  have grown : ∀ (i : Nat) (thread : Thread TaskOp TaskOp.Result Thrown (Option Answer) OperationCall),
      (history.pool.threads ++ [⟨call, call.body platform hashOpaque⟩])[i]? = some thread →
        thread = ⟨call, call.body platform hashOpaque⟩ ∨ history.pool.threads[i]? = some thread :=
    fun i thread => located_append history.pool.threads i _ thread
  have same : ∀ i ∈ history.missed,
      (history.pool.threads ++ [⟨call, call.body platform hashOpaque⟩])[i]? = history.pool.threads[i]? := by
    intro i member
    obtain ⟨old, rest, found, _⟩ := ready.asked i member
    exact List.getElem?_append_left (List.getElem?_eq_some_iff.mp found).1
  have pends : ∀ i ∈ history.missed,
      (history.next platform hashOpaque scope key (.start call)).pends i = history.pends i := by
    intro i member
    have here := same i member
    unfold ReplayHistory.pends ReplayHistory.next Pool.spawn
    dsimp only
    rw [here]
  refine ⟨?_, ?_, ?_, ?_, ?_, ?_, ready.once⟩
  · intro i other rest found asked
    rcases grown i _ found with new | old
    · cases new
      exact call_stands platform hashOpaque scope key call _ _ asked
    · exact ready.keyed i other rest old asked
  · intro i other rest found unasked
    rcases grown i _ found with new | old
    · cases new
      exact call_avoids platform hashOpaque scope key call unasked
    · exact ready.others i other rest old unasked
  · intro i member
    obtain ⟨old, rest, found, asked⟩ := ready.asked i member
    exact ⟨old, rest, (same i member).trans found, asked⟩
  · intro i first j second here there
    rw [pends i first] at here
    rw [pends j second] at there
    exact ready.alone i first j second here there
  · intro i member here
    rw [pends i member] at here
    exact ready.unrecorded i member here
  · intro i member
    obtain ⟨missed, state⟩ := ready.acted i member
    refine ⟨missed, ?_⟩
    rw [pends i missed]
    exact state

section step

variable (history : ReplayHistory) (ready : Recorded scope key history) (i : Nat) (call : OperationCall) (op : TaskOp)
  (rest : Except Thrown op.Result → Service (Option Answer)) (found : history.pool.threads[i]? = some ⟨call, .call op rest⟩)

-- The history a step of the call leaves.
def ReplayHistory.moved (state : TasksState) (after : Service (Option Answer)) (missed acted : List Nat) : ReplayHistory :=
  ⟨⟨state, history.pool.threads.set i ⟨call, after⟩⟩, missed, acted⟩

include found

theorem pending_here : history.pends i = true := by
  unfold ReplayHistory.pends
  rw [found]

omit found in
theorem pends_apart (state : TasksState) (after : Service (Option Answer)) (missed acted : List Nat) (j : Nat) (different : j ≠ i)
    (same : j ∈ acted ↔ j ∈ history.acted) : (history.moved i call state after missed acted).pends j = history.pends j := by
  unfold ReplayHistory.pends ReplayHistory.moved
  dsimp only
  rw [List.getElem?_set_ne (Ne.symm different)]
  have contained : acted.contains j = history.acted.contains j := by
    rw [Bool.eq_iff_iff, List.contains_iff_mem, List.contains_iff_mem, same]
  rw [contained]

theorem moved_here (state : TasksState) (after : Service (Option Answer)) (missed acted : List Nat) :
    (history.moved i call state after missed acted).pool.threads[i]? = some ⟨call, after⟩ :=
  List.getElem?_set_self (List.getElem?_eq_some_iff.mp found).1

theorem moved_threads (state : TasksState) (after : Service (Option Answer)) (missed acted : List Nat) (j : Nat)
    (thread : Thread TaskOp TaskOp.Result Thrown (Option Answer) OperationCall)
    (there : (history.moved i call state after missed acted).pool.threads[j]? = some thread) :
    (j = i ∧ thread = ⟨call, after⟩) ∨ (j ≠ i ∧ history.pool.threads[j]? = some thread) :=
  (located_set history.pool.threads i j _ ⟨call, after⟩ thread found).mp there

theorem moved_asked (state : TasksState) (after : Service (Option Answer)) (missed acted : List Nat) (j : Nat)
    (asked : ∃ other rest, history.pool.threads[j]? = some ⟨other, rest⟩ ∧ other.asks scope key = true) :
    ∃ other rest, (history.moved i call state after missed acted).pool.threads[j]? = some ⟨other, rest⟩ ∧
      other.asks scope key = true := by
  obtain ⟨other, program, there, asks⟩ := asked
  by_cases same : j = i
  · subst same
    rw [found] at there
    cases there
    exact ⟨call, after, moved_here history j call op rest found state after missed acted, asks⟩
  · exact ⟨other, program, (List.getElem?_set_ne (Ne.symm same)).trans there, asks⟩

include ready

-- A step that neither comes from an empty look-up nor writes the record.
theorem recorded_kept (state : TasksState) (after : Service (Option Answer)) (acted : List Nat)
    (record : recordOf scope key state = recordOf scope key history.pool.state)
    (stands : call.asks scope key = true → Stands scope key (recordOf scope key history.pool.state) (i ∈ history.missed) after)
    (uses : call.asks scope key = false → after.Uses (avoids scope key))
    (adds : ∀ j, j ∈ acted → j ∈ history.acted ∨ (j = i ∧ i ∈ history.missed)) (keeps : ∀ j ∈ history.acted, j ∈ acted)
    (remains : i ∈ acted → (history.moved i call state after history.missed acted).pends i = true ∨
      (recordOf scope key history.pool.state).isSome = true) :
    Recorded scope key (history.moved i call state after history.missed acted) := by
  have here := pending_here history i call op rest found
  have apart : ∀ j, j ≠ i → (history.moved i call state after history.missed acted).pends j = history.pends j := by
    intro j different
    refine pends_apart history i call state after history.missed acted j different ⟨?_, keeps j⟩
    intro member
    exact (adds j member).resolve_right fun same => different same.1
  have less : ∀ j, (history.moved i call state after history.missed acted).pends j = true → history.pends j = true := by
    intro j pending
    by_cases same : j = i
    · exact same ▸ here
    · exact apart j same ▸ pending
  refine ⟨?_, ?_, ?_, ?_, ?_, ?_, ?_⟩
  · intro j other program there asked
    rw [show recordOf scope key (history.moved i call state after history.missed acted).pool.state = _ from record]
    rcases moved_threads history i call op rest found state after history.missed acted j _ there with ⟨rfl, new⟩ | ⟨_, old⟩
    · cases new
      exact stands asked
    · exact ready.keyed j other program old asked
  · intro j other program there unasked
    rcases moved_threads history i call op rest found state after history.missed acted j _ there with ⟨rfl, new⟩ | ⟨_, old⟩
    · cases new
      exact uses unasked
    · exact ready.others j other program old unasked
  · intro j member
    exact moved_asked scope key history i call op rest found state after history.missed acted j (ready.asked j member)
  · intro j first k second pendsFirst pendsSecond
    exact ready.alone j first k second (less j pendsFirst) (less k pendsSecond)
  · intro j member pending
    exact record.trans (ready.unrecorded j member (less j pending))
  · intro j member
    rw [show recordOf scope key (history.moved i call state after history.missed acted).pool.state = _ from record]
    rcases adds j member with old | ⟨rfl, missed⟩
    · obtain ⟨missed, stays⟩ := ready.acted j old
      by_cases same : j = i
      · subst same
        exact ⟨missed, remains member⟩
      · exact ⟨missed, by rw [apart j same]; exact stays⟩
    · exact ⟨missed, remains member⟩
  · -- Whoever acted before is still short of its store, so it is the one call that is.
    have mine : ∀ j ∈ acted, i ∈ acted → i ∉ history.acted → j = i := by
      intro j member own fresh
      rcases adds j member with old | ⟨same, _⟩
      · have missed := ((adds i own).resolve_left fresh).2
        obtain ⟨before, stays⟩ := ready.acted j old
        have unrecorded := ready.unrecorded i missed here
        rcases stays with pending | recorded
        · exact ready.alone j before i missed pending here
        · rw [unrecorded] at recorded
          cases recorded
      · exact same
    intro j first k second
    rcases adds j first with old | ⟨rfl, _⟩
    · rcases adds k second with older | ⟨rfl, _⟩
      · exact ready.once j old k older
      · by_cases before : k ∈ history.acted
        · exact ready.once j old k before
        · exact mine j first second before
    · by_cases before : j ∈ history.acted
      · rcases adds k second with older | ⟨rfl, _⟩
        · exact ready.once j before k older
        · rfl
      · exact (mine k second first before).symm

-- An empty look-up, with no other call past one.
theorem recorded_miss (state : TasksState) (after : Service (Option Answer))
    (record : recordOf scope key state = recordOf scope key history.pool.state)
    (empty : recordOf scope key history.pool.state = none) (asked : call.asks scope key = true)
    (stands : Stands scope key none (i ∈ i :: history.missed) after) (alone : ∀ j ∈ history.missed, history.pends j = false) :
    Recorded scope key (history.moved i call state after (i :: history.missed) history.acted) := by
  have idle : history.acted = [] := by
    refine List.eq_nil_iff_forall_not_mem.mpr fun j member => ?_
    obtain ⟨missed, pending | recorded⟩ := ready.acted j member
    · rw [alone j missed] at pending
      cases pending
    · rw [empty] at recorded
      cases recorded
  have pends : ∀ j ∈ i :: history.missed,
      (history.moved i call state after (i :: history.missed) history.acted).pends j = true → j = i := by
    intro j member pending
    rcases List.mem_cons.mp member with same | older
    · exact same
    · by_contra different
      rw [pends_apart history i call state after _ _ j different Iff.rfl, alone j older] at pending
      cases pending
  refine ⟨?_, ?_, ?_, ?_, ?_, ?_, ready.once⟩
  · intro j other program there asks
    rw [show recordOf scope key (history.moved i call state after _ _).pool.state = none from record.trans empty]
    rcases moved_threads history i call op rest found state after _ _ j _ there with ⟨rfl, new⟩ | ⟨_, old⟩
    · cases new
      exact stands
    · have before := ready.keyed j other program old asks
      rw [empty] at before
      exact stands_unrecorded scope key _ _ _ program (List.mem_cons_of_mem i) before
  · intro j other program there unasked
    rcases moved_threads history i call op rest found state after _ _ j _ there with ⟨rfl, new⟩ | ⟨_, old⟩
    · cases new
      rw [asked] at unasked
      cases unasked
    · exact ready.others j other program old unasked
  · intro j member
    refine moved_asked scope key history i call op rest found state after _ _ j ?_
    rcases List.mem_cons.mp member with rfl | older
    · exact ⟨call, _, found, asked⟩
    · exact ready.asked j older
  · intro j first k second pendsFirst pendsSecond
    rw [pends j first pendsFirst, pends k second pendsSecond]
  · intro j _ _
    exact record.trans empty
  · intro j member
    rw [show (history.moved i call state after _ _).acted = [] from idle] at member
    cases member

-- The store ends the one call past an empty look-up.
theorem recorded_store (state : TasksState) (body : scope.Body) (idempotency : Option Idempotency) (requestHash : String)
    (record : recordOf scope key state = some ⟨key, requestHash, body⟩) (asked : call.asks scope key = true)
    (missed : i ∈ history.missed) :
    Recorded scope key (history.moved i call state (.ret (some ⟨scope, body, idempotency⟩)) history.missed history.acted) := by
  have here := pending_here history i call op rest found
  have empty := ready.unrecorded i missed here
  have settled : ∀ j ∈ history.missed,
      (history.moved i call state (.ret (some ⟨scope, body, idempotency⟩)) history.missed history.acted).pends j ≠ true := by
    intro j member pending
    by_cases same : j = i
    · subst same
      unfold ReplayHistory.pends at pending
      rw [moved_here history j call op rest found] at pending
      cases pending
    · rw [pends_apart history i call state _ _ _ j same Iff.rfl] at pending
      exact same (ready.alone j member i missed pending here)
  refine ⟨?_, ?_, ?_, ?_, ?_, ?_, ready.once⟩
  · intro j other program there asks
    rw [show recordOf scope key (history.moved i call state _ _ _).pool.state = _ from record]
    rcases moved_threads history i call op rest found state _ _ _ j _ there with ⟨rfl, new⟩ | ⟨_, old⟩
    · cases new
      exact .answered body idempotency rfl
    · have before := ready.keyed j other program old asks
      rw [empty] at before
      exact stands_unrecorded scope key _ _ _ program id before
  · intro j other program there unasked
    rcases moved_threads history i call op rest found state _ _ _ j _ there with ⟨rfl, new⟩ | ⟨_, old⟩
    · cases new
      rw [asked] at unasked
      cases unasked
    · exact ready.others j other program old unasked
  · intro j member
    exact moved_asked scope key history i call op rest found state _ _ _ j (ready.asked j member)
  · intro j first _ _ pending
    exact absurd pending (settled j first)
  · intro j member pending
    exact absurd pending (settled j member)
  · intro j member
    refine ⟨(ready.acted j member).1, Or.inr ?_⟩
    rw [show recordOf scope key (history.moved i call state _ _ _).pool.state = _ from record]
    rfl

end step

section steps

variable (history : ReplayHistory) (ready : Recorded scope key history) (i : Nat) (call : OperationCall) (op : TaskOp)
  (rest : Except Thrown op.Result → Service (Option Answer)) (found : history.pool.threads[i]? = some ⟨call, .call op rest⟩)

include found

theorem next_moved :
    history.next platform hashOpaque scope key (.step i) =
      history.moved i call (TaskOp.exec op history.pool.state).2 (rest (TaskOp.exec op history.pool.state).1)
        (if misses scope key history.pool i then i :: history.missed else history.missed)
        (if call.asks scope key && acts op history.pool.state then i :: history.acted else history.acted) := by
  have actor : actsNow scope key history.pool i = (call.asks scope key && acts op history.pool.state) := by
    unfold actsNow
    rw [found]
  rw [ReplayHistory.next, advance_taken TaskOp.exec history.pool i call op rest found, actor]
  rfl

theorem misses_only (other : op ≠ .loadOpIdempotency scope key) : misses scope key history.pool i = false := by
  unfold misses
  split
  · rename_i asking asked later there
    rw [found] at there
    cases there
    by_cases same : asking = scope ∧ asked = key
    · obtain ⟨rfl, rfl⟩ := same
      exact absurd rfl other
    · rw [decide_eq_false same, Bool.false_and]
  · rfl

include ready

theorem other_step (unasked : call.asks scope key = false) :
    Recorded scope key (history.next platform hashOpaque scope key (.step i)) := by
  obtain ⟨clear, uses⟩ := ready.others i call _ found unasked
  rw [next_moved platform hashOpaque scope key history i call op rest found,
    misses_only scope key history i call op rest found clear.1, unasked]
  refine recorded_kept scope key history ready i call op rest found _ _ history.acted
    (avoided_record scope key op clear history.pool.state) ?_ (fun _ => uses _) (fun j => Or.inl) (fun j => id) ?_
  · intro asked
    rw [unasked] at asked
    cases asked
  · intro member
    obtain ⟨missed, _⟩ := ready.acted i member
    obtain ⟨other, program, there, asked⟩ := ready.asked i missed
    rw [found] at there
    cases there
    rw [unasked] at asked
    cases asked

theorem work_step (asked : call.asks scope key = true) (clear : plain op) (here : i ∈ history.missed)
    (later : ∀ result, ∃ (requestHash : String) (body : Service scope.Body), body.Uses plain ∧
      rest result = wrapped scope (recording scope key requestHash body)) :
    Recorded scope key (history.next platform hashOpaque scope key (.step i)) := by
  obtain ⟨requestHash, body, uses, after⟩ := later (TaskOp.exec op history.pool.state).1
  have avoided := plain_avoids scope key op clear
  rw [next_moved platform hashOpaque scope key history i call op rest found,
    misses_only scope key history i call op rest found avoided.1, asked, Bool.true_and, after]
  refine recorded_kept scope key history ready i call op rest found _ _ _
    (avoided_record scope key op avoided history.pool.state) (fun _ => .working requestHash body uses here) ?_ ?_ ?_ ?_
  · intro unasked
    rw [asked] at unasked
    cases unasked
  · intro j member
    split at member
    · exact (List.mem_cons.mp member).symm.imp_right fun same => ⟨same, here⟩
    · exact Or.inl member
  · intro j member
    split
    · exact List.mem_cons_of_mem _ member
    · exact member
  · intro member
    refine Or.inl ?_
    unfold ReplayHistory.pends
    rw [moved_here history i call op rest found]
    cases body with
    | ret result => rfl
    | fail error => exact List.contains_iff_mem.mpr member
    | call op rest => rfl

end steps

theorem load_step (history : ReplayHistory) (ready : Recorded scope key history) (i : Nat) (call : OperationCall)
    (rest : Except Thrown (Option (ControlPlane.Replay scope.Body)) → Service (Option Answer))
    (found : history.pool.threads[i]? = some ⟨call, .call (.loadOpIdempotency scope key) rest⟩) (asked : call.asks scope key = true)
    (alone : ∀ j ∈ history.missed, history.pends j = false) (requestHash : String) (body : Service scope.Body)
    (uses : body.Uses plain) (answers : ∀ cached, rest (.ok cached) = wrapped scope (lookedUp scope key requestHash body cached)) :
    Recorded scope key (history.next platform hashOpaque scope key (.step i)) := by
  have after : rest (TaskOp.exec (.loadOpIdempotency scope key) history.pool.state).1 = _ :=
    answers (recordOf scope key history.pool.state)
  rw [next_moved platform hashOpaque scope key history i call (.loadOpIdempotency scope key) rest found, after]
  have quiet : (call.asks scope key && acts (.loadOpIdempotency scope key) history.pool.state) = false := Bool.and_false _
  have missing : misses scope key history.pool i = (recordOf scope key history.pool.state).isNone := by
    unfold misses
    rw [found]
    simp
  rw [quiet, missing]
  cases record : recordOf scope key history.pool.state with
  | none =>
      exact recorded_miss scope key history ready i call (.loadOpIdempotency scope key) rest found _ _ rfl record asked
        (.working requestHash body uses List.mem_cons_self) alone
  | some cached =>
      refine recorded_kept scope key history ready i call (.loadOpIdempotency scope key) rest found _ _ history.acted rfl ?_ ?_ (fun j => Or.inl) (fun j => id) ?_
      · intro _
        rw [record, lookedUp]
        split
        · exact .failed _
        · exact .answered cached.result _ rfl
      · intro unasked
        rw [asked] at unasked
        cases unasked
      · intro _
        rw [record]
        exact Or.inr rfl

theorem store_step (history : ReplayHistory) (ready : Recorded scope key history) (i : Nat) (call : OperationCall)
    (rest : Except Thrown Unit → Service (Option Answer)) (requestHash : String) (result : scope.Body)
    (found : history.pool.threads[i]? = some ⟨call, .call (.storeOpIdempotency scope ⟨key, requestHash, result⟩) rest⟩)
    (asked : call.asks scope key = true) (here : i ∈ history.missed)
    (answers : rest (.ok ()) = .ret (some ⟨scope, result, some ⟨key, false, requestHash⟩⟩)) :
    Recorded scope key (history.next platform hashOpaque scope key (.step i)) := by
  have after : rest (TaskOp.exec (.storeOpIdempotency scope ⟨key, requestHash, result⟩) history.pool.state).1 = _ := answers
  have quiet : (call.asks scope key && acts (.storeOpIdempotency scope ⟨key, requestHash, result⟩) history.pool.state) = false :=
    Bool.and_false _
  rw [next_moved platform hashOpaque scope key history i call (.storeOpIdempotency scope ⟨key, requestHash, result⟩) rest found,
    misses_only scope key history i call (.storeOpIdempotency scope ⟨key, requestHash, result⟩) rest found
      (fun same => nomatch same), quiet, after]
  exact recorded_store scope key history ready i call (.storeOpIdempotency scope ⟨key, requestHash, result⟩) rest found _ result _
    requestHash (stored_record scope key history.pool.state _ rfl) asked here

theorem recorded_step (history : ReplayHistory) (i : Nat) (ready : Recorded scope key history)
    (alone : looksUpAlone scope key history (.step i)) : Recorded scope key (history.next platform hashOpaque scope key (.step i)) := by
  by_cases pending : ∃ call op rest, history.pool.threads[i]? = some ⟨call, .call op rest⟩
  · obtain ⟨call, op, rest, found⟩ := pending
    cases asked : call.asks scope key with
    | false => exact other_step platform hashOpaque scope key history ready i call op rest found asked
    | true =>
        cases stands_step scope key _ _ op rest (ready.keyed i call _ found asked) with
        | load requestHash body uses rest answers =>
            exact load_step platform hashOpaque scope key history ready i call rest found asked (alone i call rest rfl found)
              requestHash body uses answers
        | store requestHash result here rest answers =>
            exact store_step platform hashOpaque scope key history ready i call rest requestHash result found asked here answers
        | work _ _ clear here later =>
            exact work_step platform hashOpaque scope key history ready i call op rest found asked clear here later
  · have idle : ∀ call op rest, history.pool.threads[i]? ≠ some ⟨call, .call op rest⟩ :=
      fun call op rest found => pending ⟨call, op, rest, found⟩
    have lost := advance_lost TaskOp.exec history.pool i idle
    have unmissed : misses scope key history.pool i = false := by
      unfold misses
      split
      · rename_i found
        exact absurd found (idle _ _ _)
      · rfl
    have unacted : actsNow scope key history.pool i = false := by
      unfold actsNow
      split
      · rename_i found
        exact absurd found (idle _ _ _)
      · rfl
    rw [ReplayHistory.next, lost, unmissed, unacted]
    exact ready

theorem run_recorded (start : TasksState) (events : List (PoolEvent OperationCall))
    (along : Along (ReplayHistory.next platform hashOpaque scope key) (looksUpAlone scope key) ⟨⟨start, []⟩, [], []⟩ events) :
    Recorded scope key (replayRun platform hashOpaque scope key start events) := by
  refine along_keeps (ReplayHistory.next platform hashOpaque scope key) (looksUpAlone scope key) (Recorded scope key) ?_ _ events ?_ along
  · intro history event ready alone
    cases event with
    | start call => exact recorded_start platform hashOpaque scope key history call ready
    | step i => exact recorded_step platform hashOpaque scope key history i ready alone
  · refine ⟨?_, ?_, ?_, ?_, ?_, ?_, ?_⟩
    · intro i call rest found
      cases found
    · intro i call rest found
      cases found
    all_goals
      intro i member
      cases member

-- A call of the scope and key has returned this.
def ReplayHistory.Returns (history : ReplayHistory) (body : scope.Body) : Prop :=
  ∃ (i : Nat) (call : OperationCall) (idempotency : Option Idempotency),
    history.pool.threads[i]? = some ⟨call, .ret (some ⟨scope, body, idempotency⟩)⟩ ∧ call.asks scope key = true

theorem returned_recorded (history : ReplayHistory) (ready : Recorded scope key history) (body : scope.Body)
    (returned : history.Returns scope key body) :
    (recordOf scope key history.pool.state).map ControlPlane.Replay.result = some body := by
  obtain ⟨i, call, idempotency, found, asked⟩ := returned
  have stands := ready.keyed i call _ found asked
  generalize same : (Async.ret (some ⟨scope, body, idempotency⟩) : Service (Option Answer)) = program at stands
  cases stands with
  | looking requestHash body uses => cases same
  | working requestHash body uses here => cases body <;> cases same
  | answered body idempotency recorded =>
      cases same
      exact recorded
  | failed error => cases same

end rule

-- In every run that looks a key up only while no call stands between an empty look-up and its store, at most
-- one of the calls of one operation and key acts, and those that succeed return one result.
theorem operation_idempotent (platform : Platform) (hashOpaque : Hashed → String) (scope : Scope) (key : String) (start : TasksState)
    (events : List (PoolEvent OperationCall))
    (along : Along (ReplayHistory.next platform hashOpaque scope key) (looksUpAlone scope key) ⟨⟨start, []⟩, [], []⟩ events) :
    let history := replayRun platform hashOpaque scope key start events
    (∀ i ∈ history.acted, ∀ j ∈ history.acted, i = j) ∧
      ∀ body other, history.Returns scope key body → history.Returns scope key other → body = other := by
  intro history
  have ready := run_recorded platform hashOpaque scope key start events along
  refine ⟨ready.once, ?_⟩
  intro body other first second
  have one := returned_recorded scope key history ready body first
  rw [returned_recorded scope key history ready other second] at one
  exact (Option.some.inj one).symm

-- A failed task, and an agent that numbers its retries.
def retryStart : TasksState :=
  { oneTask (rowWith "t" .failed) (some .failed) with
    exchanges := fun n => { answering with newId := "retry-" ++ toString n } }

def retryAgain : PoolEvent OperationCall := .start (.request .retry (.retry "t") (some "key"))

def retryRun (events : List (PoolEvent OperationCall)) : ReplayHistory :=
  replayRun utcMinutes unhashed .retry "key" retryStart events

def retriedIds (history : ReplayHistory) : List String :=
  history.pool.threads.filterMap fun thread =>
    match thread.rest with
    | .ret (some ⟨.retry, body, _⟩) => body.result.task_id
    | _ => none

def looksUpAloneNow (history : ReplayHistory) (event : PoolEvent OperationCall) : Bool :=
  match event with
  | .start _ => true
  | .step i =>
      match history.pool.threads[i]? with
      | some ⟨_, .call (.loadOpIdempotency _ _) _⟩ => history.missed.all fun j => !history.pends j
      | _ => true

theorem looks_up_alone_now (scope : Scope) (key : String) (history : ReplayHistory) (event : PoolEvent OperationCall)
    (alone : looksUpAloneNow history event = true) : looksUpAlone scope key history event := by
  intro i call rest stepped found j member
  subst stepped
  simp only [looksUpAloneNow, found, List.all_eq_true, Bool.not_eq_true'] at alone
  exact alone j member

-- One retry after the other: the second replays the first.
theorem operation_idempotent_retry :
    let history := retryRun ([retryAgain, retryAgain] ++ List.replicate 8 (.step 0) ++ [.step 1])
    history.acted = [0, 0] ∧ retriedIds history = ["retry-0", "retry-0"] ∧
      (∀ i ∈ history.acted, ∀ j ∈ history.acted, i = j) ∧
      ∀ body other, history.Returns .retry "key" body → history.Returns .retry "key" other → body = other := by
  intro history
  refine ⟨by decide, by decide, ?_⟩
  refine operation_idempotent utcMinutes unhashed .retry "key" retryStart _ ?_
  exact along_mono _ _ _ (looks_up_alone_now .retry "key") _ _ (by decide)

-- Two retries that both look the key up before either stores, and one that comes after another has crashed
-- behind its request: the agent has two new tasks.
theorem retry_acts_twice :
    let overlapping := retryRun ([retryAgain, retryAgain, .step 0, .step 1] ++ List.replicate 7 (.step 0) ++ List.replicate 7 (.step 1))
    let crashed := retryRun (retryAgain :: List.replicate 4 (.step 0) ++ retryAgain :: List.replicate 8 (.step 1))
    retriedIds overlapping = ["retry-0", "retry-1"] ∧ retriedIds crashed = ["retry-1"] ∧
      (["retry-0", "retry-1"].all fun id => (overlapping.pool.state.remote id).isSome && (crashed.pool.state.remote id).isSome) ∧
      ∀ history ∈ [overlapping, crashed], ¬ ∀ i ∈ history.acted, ∀ j ∈ history.acted, i = j := by
  intro overlapping crashed
  refine ⟨by decide, by decide, by decide, ?_⟩
  have twice : ∀ history ∈ [overlapping, crashed], history.acted.contains 0 = true ∧ history.acted.contains 1 = true := by
    decide
  intro history member once
  obtain ⟨first, second⟩ := twice history member
  exact absurd (once 0 (List.contains_iff_mem.mp first) 1 (List.contains_iff_mem.mp second)) (by decide)

end Vacps.Tasks
