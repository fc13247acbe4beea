import Mathlib.Data.List.Sort
import Vacps.ControlPlane.Retention
import Vacps.ControlPlane.ScheduleService

/- The tables of D1 that control-worker/src/tasks/task-service.ts uses, its statements, and the agents' tasks
   as its requests meet them. Columns that are only carried along for display are left out. -/
set_option autoImplicit false

namespace Vacps.Tasks

open Library

def statusText : TaskStatus → String
  | .created => "created"
  | .dispatching => "dispatching"
  | .queued => "queued"
  | .running => "running"
  | .waiting_for_approval => "waiting_for_approval"
  | .succeeded => "succeeded"
  | .failed => "failed"
  | .cancelled => "cancelled"
  | .timed_out => "timed_out"
  | .dispatch_failed => "dispatch_failed"
  | .starting => "starting"

structure AppError extends ControlPlane.AppError where
  details : List (String × Json)

-- An error of D1 is no AppError.
inductive Thrown where
  | app (error : AppError)
  | d1 (message : String)

def Thrown.message : Thrown → String
  | .app error => error.message
  | .d1 message => message

def appError (code message : String) (status : Nat) (details : List (String × Json)) : Thrown :=
  .app ⟨⟨code, message, status⟩, details⟩

inductive CleanupState where
  | none
  | eligible
  | deleted
deriving DecidableEq, Repr

structure TaskRow where
  id : String
  backend_id : String
  type : String
  kind : Option String
  source : TaskSource
  status : TaskStatus
  schedule_id : Option String
  idempotency_key : Option String
  request_hash : Option String
  retry_of_task_id : Option String
  created_at : String
  updated_at : String
  finished_at : Option String
  terminal_at : Option String
  expires_at : Option String
  labels_json : Option Json
  environment : Option String
  retention_class : Option RetentionClass
  deleted_at : Option Stamp
  deleted_by : Option String
  deletion_reason : Option String
  cleanup_state : CleanupState
  legal_hold : Bool
  pinned_at : Option Stamp
  pinned_by : Option String
  legal_hold_reason : Option String
  legal_hold_at : Option String
  legal_hold_by : Option String
  output_expires_at : Option String
  output_retention_seconds : Option Int

def TaskRow.isProtected (row : TaskRow) : Bool := isRetentionProtected row.legal_hold row.pinned_at

structure TaskIndex where
  id : String
  backendId : String
  kind : String
  source : TaskSource
  status : TaskStatus
  scheduleId : Option String
  idempotencyKey : Option String
  requestHash : Option String
  retryOfTaskId : Option String
  createdAt : String
  updatedAt : String
  finishedAt : Option String
  terminalAt : Option String
  expiresAt : Option String
  outputExpiresAt : Option String
  labels : Option Labels
  environment : Option String
  retentionClass : Option RetentionClass
  deletedAt : Option String
  deletedBy : Option String
  deletionReason : Option String
  cleanupState : Option CleanupState
  pinned : Option Bool
  pinnedAt : Option String
  pinnedBy : Option String
  legalHold : Option Bool
  legalHoldReason : Option String
  legalHoldAt : Option String
  legalHoldBy : Option String
  resourceDeleted : Option Bool

def toTaskIndex (row : TaskRow) : TaskIndex where
  id := row.id
  backendId := row.backend_id
  kind := row.kind.getD row.type
  source := row.source
  status := row.status
  scheduleId := truthy row.schedule_id
  idempotencyKey := truthy row.idempotency_key
  requestHash := truthy row.request_hash
  retryOfTaskId := truthy row.retry_of_task_id
  createdAt := row.created_at
  updatedAt := row.updated_at
  finishedAt := truthy row.finished_at
  terminalAt := truthy row.terminal_at
  expiresAt := truthy row.expires_at
  outputExpiresAt := truthy row.output_expires_at
  labels := if parseLabelsJson row.labels_json = [] then none else some (parseLabelsJson row.labels_json)
  environment := truthy row.environment
  retentionClass := row.retention_class
  deletedAt := row.deleted_at.map (·.val)
  deletedBy := truthy row.deleted_by
  deletionReason := truthy row.deletion_reason
  cleanupState := some row.cleanup_state
  pinned := some row.pinned_at.isSome
  pinnedAt := row.pinned_at.map (·.val)
  pinnedBy := row.pinned_at.bind fun _ => truthy row.pinned_by
  legalHold := some row.legal_hold
  legalHoldReason := if row.legal_hold then truthy row.legal_hold_reason else none
  legalHoldAt := if row.legal_hold then truthy row.legal_hold_at else none
  legalHoldBy := if row.legal_hold then truthy row.legal_hold_by else none
  resourceDeleted := none

structure Tombstone where
  backend_id : String
  idempotency_key : String
  request_hash : String
  task_id : Option String
  task_deleted : Bool
  original_status : Option TaskStatus
  original_created_at : Option String
  created_at : String
  expires_at : String

def Tombstone.key (tombstone : Tombstone) : String × String := (tombstone.backend_id, tombstone.idempotency_key)

-- What operation_idempotency keeps of a call, by scope.
structure CancelReply where
  cancelled : Option Bool

structure CancelBody where
  task : TaskIndex
  result : Option CancelReply
  already_terminal : Option Bool
  cancelled : Bool

structure RetryReply where
  task_id : Option String

structure RetryBody where
  task : TaskIndex
  result : RetryReply
  retry_of_task_id : String

inductive DeleteMode where
  | soft
  | hard
deriving DecidableEq, Repr

structure DeleteBody where
  task_id : String
  deleted : Bool
  already_deleted : Bool
  mode : DeleteMode
  task : Option TaskIndex

structure CleanupBody where
  matched_count : Nat
  deleted_count : Nat
  skipped_count : Nat
  mode : DeleteMode
  reason : String
  sample_deleted_ids : List String

inductive Scope where
  | cancel
  | retry
  | delete
  | cleanup
deriving DecidableEq, Repr

@[reducible] def Scope.Body : Scope → Type
  | .cancel => CancelBody
  | .retry => RetryBody
  | .delete => DeleteBody
  | .cleanup => CleanupBody

abbrev Replays (scope : Scope) : Type := Table String (ControlPlane.Replay scope.Body) ControlPlane.Replay.idempotency_key

-- A term of a WHERE clause; evaluating a bad JSON path is an error of the query.
abbrev Clause : Type := TaskRow → Except String Bool

structure TaskQuery where
  clauses : List Clause
  order : TaskRow → String
  descending : Bool
  limit : Nat

-- AND stops at the first term that is false.
def holds (clauses : List Clause) (row : TaskRow) : Except String Bool :=
  match clauses with
  | [] => .ok true
  | clause :: rest => do
      if ← clause row then holds rest row else pure false

def matching (clauses : List Clause) : List TaskRow → Except String (List TaskRow)
  | [] => .ok []
  | row :: rest => do
      let here ← holds clauses row
      let others ← matching clauses rest
      pure (if here then row :: others else others)

def inOrder (order : TaskRow → String) (descending : Bool) (first later : TaskRow) : Prop :=
  if descending then order later ≤ order first else order first ≤ order later

-- ORDER BY leaves the order of rows with equal keys open.
structure Planner where
  arrange : (TaskRow → String) → Bool → List TaskRow → List TaskRow
  perm : ∀ order descending rows, (arrange order descending rows).Perm rows
  sorted : ∀ order descending rows, (arrange order descending rows).Pairwise (inOrder order descending)

instance (order : TaskRow → String) (descending : Bool) (first later : TaskRow) : Decidable (inOrder order descending first later) := by
  unfold inOrder
  infer_instance

theorem in_order_total (order : TaskRow → String) (descending : Bool) (first later : TaskRow) :
    inOrder order descending first later ∨ inOrder order descending later first := by
  cases descending
  · exact String.le_total (order first) (order later)
  · exact String.le_total (order later) (order first)

theorem in_order_trans (order : TaskRow → String) (descending : Bool) (first middle later : TaskRow)
    (before : inOrder order descending first middle) (after : inOrder order descending middle later) :
    inOrder order descending first later := by
  cases descending
  · exact String.le_trans before after
  · exact String.le_trans after before

-- Rows with equal keys stay as the table has them.
def stablePlanner : Planner where
  arrange order descending rows := rows.insertionSort (inOrder order descending)
  perm order descending rows := List.perm_insertionSort _ rows
  sorted order descending rows := by
    have : Std.Total (inOrder order descending) := ⟨in_order_total order descending⟩
    have : IsTrans TaskRow (inOrder order descending) := ⟨in_order_trans order descending⟩
    exact List.pairwise_insertionSort _ rows

def TaskQuery.run (query : TaskQuery) (planner : Planner) (rows : List TaskRow) : Except String (List TaskRow) := do
  let found ← matching query.clauses rows
  pure ((planner.arrange query.order query.descending found).take query.limit)

inductive Guard where
  | live
  | terminal
  | unprotected
deriving DecidableEq, Repr

-- The UPDATE statements of the service; each is for one id.
inductive TaskStatement where
  | setStatus (status : TaskStatus) (now : String)
  | finish (status : TaskStatus) (now terminalAt expiresAt outputExpiresAt : String) (retentionClass : RetentionClass)
  | softDelete (now : Int) (deletedBy reason : String) (where_ : Guard)
  | pin (now : Int) (pinnedBy : String)
  | unpin (expiresAt : Option String) (now : String)
  | hold (reason now heldBy : String)
  | clearHold (now : String)

def TaskStatement.selects : TaskStatement → TaskRow → Bool
  | .softDelete _ _ _ .live, row => row.deleted_at.isNone
  | .softDelete _ _ _ .terminal, row => row.deleted_at.isNone && isTerminalTaskStatus row.status
  | .softDelete _ _ _ .unprotected, row => row.deleted_at.isNone && !row.legal_hold && row.pinned_at.isNone
  | _, _ => true

def TaskStatement.change : TaskStatement → TaskRow → TaskRow
  | .setStatus status now, row => { row with status := status, updated_at := now }
  | .finish status now terminalAt expiresAt outputExpiresAt retentionClass, row =>
      { row with
        status := status
        updated_at := now
        finished_at := some (row.finished_at.getD now)
        terminal_at := some (row.terminal_at.getD terminalAt)
        expires_at := some (row.expires_at.getD expiresAt)
        output_expires_at := some (row.output_expires_at.getD outputExpiresAt)
        retention_class := some (row.retention_class.getD retentionClass)
        cleanup_state := if row.cleanup_state = .none then .eligible else row.cleanup_state }
  | .softDelete now deletedBy reason _, row =>
      { row with
        deleted_at := some (stamp now)
        deleted_by := some deletedBy
        deletion_reason := some reason
        cleanup_state := .deleted
        updated_at := toISOString now }
  | .pin now pinnedBy, row =>
      { row with pinned_at := some (stamp now), pinned_by := some pinnedBy, updated_at := toISOString now }
  | .unpin expiresAt now, row =>
      { row with pinned_at := none, pinned_by := none, expires_at := expiresAt.or row.expires_at, updated_at := now }
  | .hold reason now heldBy, row =>
      { row with
        legal_hold := true
        legal_hold_reason := some reason
        legal_hold_at := some now
        legal_hold_by := some heldBy
        updated_at := now }
  | .clearHold now, row =>
      { row with
        legal_hold := false
        legal_hold_reason := none
        legal_hold_at := none
        legal_hold_by := none
        updated_at := now }

@[simp] theorem change_id (statement : TaskStatement) (row : TaskRow) : (statement.change row).id = row.id := by
  cases statement <;> rfl

-- What becomes of the n-th request: an agent or the network may refuse it before it is served, and the reply
-- may be lost afterwards.
structure Exchange where
  refused : Option AppError
  lost : Option AppError
  newId : String
  piAvailable : Option Bool

structure TasksState where
  -- The backends that are registered, with their enabled column.
  backends : List (String × Bool)
  tasks : Table String TaskRow TaskRow.id
  tombstones : Table (String × String) Tombstone Tombstone.key
  replays : (scope : Scope) → Replays scope
  planner : Planner
  -- A task's status on its agent. Ids are drawn as UUIDs, so one map serves for all agents.
  remote : String → Option TaskStatus
  exchanges : Nat → Exchange
  requests : Nat
  clock : Nat → Int
  readings : Nat
  uuids : Nat → String
  drawn : Nat

inductive TaskOp where
  -- new Date()
  | readClock
  | randomUUID
  | selectBackend (id : String)
  | selectTask (id : String)
  | selectRetention (id : String)
  | selectTaskByIdempotency (backendId idempotencyKey : String)
  | selectTombstone (backendId idempotencyKey now : String)
  | selectTasks (query : TaskQuery)
  | insertTask (row : TaskRow)
  | insertTaskOrIgnore (row : TaskRow)
  | updateTask (statement : TaskStatement) (id : String)
  | deleteTask (id : String)
  | upsertTombstone (tombstone : Tombstone)
  | deleteTombstone (backendId idempotencyKey : String)
  | deleteExpiredTombstones (now : String)
  | loadOpIdempotency (scope : Scope) (key : String)
  | storeOpIdempotency (scope : Scope) (replay : ControlPlane.Replay scope.Body)
  | getCapabilities (backendId : String)
  | createTask (backendId : String) (task : TaskDispatch)
  | getTask (backendId taskId : String)
  | cancelTask (backendId taskId : String)
  | retryTask (backendId taskId : String)
  -- The agent's worker, on its own.
  | agentMoves (taskId : String) (status : TaskStatus)

@[reducible] def TaskOp.Result : TaskOp → Type
  | .readClock => Int
  | .randomUUID => String
  | .selectBackend _ => Option Bool
  | .selectTask _ => Option TaskRow
  | .selectRetention _ => Option TaskRow
  | .selectTaskByIdempotency _ _ => Option TaskRow
  | .selectTombstone _ _ _ => Option Tombstone
  | .selectTasks _ => List TaskRow
  | .insertTask _ => Unit
  | .insertTaskOrIgnore _ => Unit
  | .updateTask _ _ => Unit
  | .deleteTask _ => Unit
  | .upsertTombstone _ => Unit
  | .deleteTombstone _ _ => Unit
  | .deleteExpiredTombstones _ => Unit
  | .loadOpIdempotency scope _ => Option (ControlPlane.Replay scope.Body)
  | .storeOpIdempotency _ _ => Unit
  | .getCapabilities _ => Option Bool
  | .createTask _ _ => Unit
  | .getTask _ _ => Option TaskStatus
  | .cancelTask _ _ => CancelReply
  | .retryTask _ _ => RetryReply
  | .agentMoves _ _ => Unit

-- A terminal status stays.
def advance (current : Option TaskStatus) (status : TaskStatus) : Option TaskStatus :=
  match current with
  | some before => if isTerminalTaskStatus before then some before else some status
  | none => some status

-- A row has the primary key or the unique index (backend_id, idempotency_key) taken.
def taken (tasks : Table String TaskRow TaskRow.id) (row : TaskRow) : Bool :=
  (tasks.find? row.id).isSome ||
    row.idempotency_key.any fun key =>
      tasks.rows.any fun other => decide (other.backend_id = row.backend_id ∧ other.idempotency_key = some key)

def TasksState.insert (state : TasksState) (row : TaskRow) : TasksState :=
  if free : state.tasks.find? row.id = none then { state with tasks := state.tasks.insert row free } else state

def TasksState.agentHas (state : TasksState) (id : String) (status : Option TaskStatus) : TasksState :=
  { state with remote := fun other => if other = id then status else state.remote other }

-- What the client makes of an error response.
def refusal (code message : String) (status : Nat) : AppError :=
  ⟨⟨code, message, status⟩, [("backend_status", .num status), ("backend_code", .str code), ("backend_message", .str message)]⟩

-- A request is refused, or served by the agent and answered or not.
def TasksState.request {Reply : Type} (state : TasksState)
    (serve : TasksState → Except AppError Reply × TasksState) : Except Thrown Reply × TasksState :=
  let exchange := state.exchanges state.requests
  let sent := { state with requests := state.requests + 1 }
  match exchange.refused with
  | some error => (.error (.app error), sent)
  | none =>
      match exchange.lost with
      | some error => (.error (.app error), (serve sent).2)
      | none => ((serve sent).1.mapError .app, (serve sent).2)

-- The agent files a new task as queued; one it has already is left as it is.
def serveCreate (id : String) (state : TasksState) : Except AppError Unit × TasksState :=
  (.ok (), if (state.remote id).isNone then state.agentHas id (some .queued) else state)

-- extractStatus knows the statuses of the contract only.
def extractStatus (status : TaskStatus) : Option TaskStatus := if status = .starting then none else some status

def serveGet (id : String) (state : TasksState) : Except AppError (Option TaskStatus) × TasksState :=
  match state.remote id with
  | none => (.error (refusal "not_found" "Task not found." 404), state)
  | some status => (.ok (extractStatus status), state)

-- A queued task is cancelled at once, a running one told to stop.
def serveCancel (id : String) (state : TasksState) : Except AppError CancelReply × TasksState :=
  match state.remote id with
  | none => (.error (refusal "not_found" "Task not found." 404), state)
  | some status =>
      if isTerminalTaskStatus status then (.error (refusal "not_cancellable" "Task already terminal." 409), state)
      else (.ok ⟨some true⟩, if status = .queued then state.agentHas id (some .cancelled) else state)

-- A retry is a task under the id the agent draws.
def serveRetry (id newId : String) (state : TasksState) : Except AppError RetryReply × TasksState :=
  match state.remote id with
  | none => (.error (refusal "not_found" "Task not found." 404), state)
  | some status =>
      if isTerminalTaskStatus status then (.ok ⟨some newId⟩, (serveCreate newId state).2)
      else (.error (refusal "retry_failed" "Can only retry terminal tasks." 400), state)

def TaskOp.exec : (op : TaskOp) → TasksState → Except Thrown op.Result × TasksState
  | .readClock, state => (.ok (state.clock state.readings), { state with readings := state.readings + 1 })
  | .randomUUID, state => (.ok (state.uuids state.drawn), { state with drawn := state.drawn + 1 })
  | .selectBackend id, state => (.ok (state.backends.lookup id), state)
  | .selectTask id, state => (.ok (state.tasks.find? id), state)
  | .selectRetention id, state => (.ok (state.tasks.find? id), state)
  | .selectTaskByIdempotency backendId key, state =>
      (.ok (state.tasks.rows.find? fun row => decide (row.backend_id = backendId ∧ row.idempotency_key = some key)), state)
  | .selectTombstone backendId key now, state =>
      (.ok ((state.tombstones.find? (backendId, key)).filter fun tombstone => decide (now < tombstone.expires_at)), state)
  | .selectTasks query, state => ((query.run state.planner state.tasks.rows).mapError .d1, state)
  | .insertTask row, state =>
      if taken state.tasks row then (.error (.d1 "UNIQUE constraint failed"), state) else (.ok (), state.insert row)
  | .insertTaskOrIgnore row, state => (.ok (), if taken state.tasks row then state else state.insert row)
  | .updateTask statement id, state =>
      (.ok (), { state with
        tasks := state.tasks.update (fun row => decide (row.id = id) && statement.selects row) statement.change (change_id statement) })
  | .deleteTask id, state => (.ok (), { state with tasks := state.tasks.delete fun row => decide (row.id = id) })
  | .upsertTombstone tombstone, state =>
      match free : state.tombstones.find? tombstone.key with
      | none => (.ok (), { state with tombstones := state.tombstones.insert tombstone free })
      | some _ =>
          (.ok (), { state with
            tombstones := state.tombstones.update (fun row => decide (row.key = tombstone.key))
              (fun row =>
                { row with
                  request_hash := tombstone.request_hash
                  task_id := tombstone.task_id
                  task_deleted := tombstone.task_deleted
                  original_status := tombstone.original_status
                  original_created_at := row.original_created_at.or tombstone.original_created_at
                  expires_at := tombstone.expires_at })
              fun _ => rfl })
  | .deleteTombstone backendId key, state =>
      (.ok (), { state with tombstones := state.tombstones.delete fun row => decide (row.key = (backendId, key)) })
  | .deleteExpiredTombstones now, state =>
      (.ok (), { state with tombstones := state.tombstones.delete fun row => decide (row.expires_at ≤ now) })
  | .loadOpIdempotency scope key, state => (.ok ((state.replays scope).find? key), state)
  | .storeOpIdempotency scope replay, state =>
      (.ok (), { state with
        replays := Function.update state.replays scope (ControlPlane.insertOrReplace (state.replays scope) replay) })
  | .getCapabilities _, state =>
      state.request fun sent => (.ok (state.exchanges state.requests).piAvailable, sent)
  | .createTask _ task, state => state.request (serveCreate task.task_id)
  | .getTask _ id, state => state.request (serveGet id)
  | .cancelTask _ id, state => state.request (serveCancel id)
  | .retryTask _ id, state => state.request (serveRetry id (state.exchanges state.requests).newId)
  | .agentMoves id status, state =>
      (.ok (), if (state.remote id).isSome then state.agentHas id (advance (state.remote id) status) else state)

end Vacps.Tasks
