import Vacps.Agent.Store

/- storage/task-store.ts. Each `new Date()` of the source is a parameter, in the order of the source;
   the created_at of a log line is left out, as no code here reads it. -/
set_option autoImplicit false

namespace Vacps.TaskStore

open Library

def getTask (taskId : String) : Agent (Option StoredTask) := do
  let row ← call (.selectTask taskId)
  pure (row.map TaskRow.toStoredTask)

def createTaskSteps (task : TaskDispatch) (status : TaskStatus) (occurrence : Option Occurrence) (now : Int) :
    List TransactionStep :=
  ⟨.insertTask task status occurrence now, none⟩ ::
    match truthy task.idempotency_key with
    | some key => [⟨.insertIdempotency key task.task_id now, none⟩]
    | none => []

def createTask (task : TaskDispatch) (status : TaskStatus) (occurrence : Option Occurrence) (now : Int) : Agent Bool := do
  let results ← call (.transaction (createTaskSteps task status occurrence now))
  pure (results.head? == some 1)

def findByIdempotencyKey (key : String) : Agent (Option StoredTask) := do
  let row ← call (.selectIdempotencyKey key)
  match row with
  | none => pure none
  | some row => getTask row.task_id

def hasRunning : Agent Bool := call .selectRunning

def claimNextQueued (now : Int) : Agent (Option StoredTask) := do
  let row ← call (.claimNextQueued now)
  pure (row.map TaskRow.toStoredTask)

structure TaskUpdate where
  status : Option TaskStatus := none
  result : Option Json := none
  error : Option TaskError := none
  startedAt : Option Int := none
  finishedAt : Option Int := none

def updateStatement (taskId : String) (current : StoredTask) (update : TaskUpdate) (now : Int) : Statement :=
  .writeTask taskId (update.status.getD current.status) (update.result.or current.result)
    (update.error.or current.error) (update.startedAt.or current.startedAt)
    (update.finishedAt.or (if update.status.any isTerminalTaskStatus then some now else current.finishedAt)) now

def updateTask (taskId : String) (update : TaskUpdate) (now : Int) : Agent Unit := do
  let current ← getTask taskId
  match current with
  | none => pure ()
  | some current =>
      let _ ← call (.run (updateStatement taskId current update now))
      pure ()

def cancelledBeforeStart : TaskError := ⟨"cancelled", "Cancelled before start."⟩

def requestCancel (taskId : String) (flaggedAt finishedAt now : Int) : Agent Bool := do
  let current ← getTask taskId
  match current with
  | none => pure false
  | some current =>
      if isTerminalTaskStatus current.status then pure false
      else
        let _ ← call (.run (.setCancelRequested taskId flaggedAt))
        if current.status == .queued then
          updateTask taskId
            { status := some .cancelled, finishedAt := some finishedAt, error := some cancelledBeforeStart } now
        pure true

def isCancelRequested (taskId : String) : Agent Bool := do
  let flag ← call (.selectCancelRequested taskId)
  pure (flag.getD false)

def appendLog (taskId : String) (stream : LogStream) (data : String) : Agent Unit := do
  let last ← call (.selectMaxSequence taskId)
  let _ ← call (.run (.insertLog taskId (last + 1) stream data))
  pure ()

def recoverInterruptedOnBoot (now : Int) : Agent Nat := do
  let ids ← call .selectInterrupted
  Async.forEach ids fun id => do
    let _ ← call (.run (.failInterrupted id now))
    appendLog id .system "interrupted by agent restart (agent_restarted)"
  pure ids.length

def retryDispatch (current : TaskDispatch) (newTaskId : String) : TaskDispatch :=
  { current with idempotency_key := none, task_id := newTaskId, source := current.source.or (some .api) }

def enqueueRetryOf (taskId newTaskId : String) (now : Int) : Agent (Option StoredTask) := do
  let current ← getTask taskId
  match current with
  | none => pure none
  | some current =>
      if !isTerminalTaskStatus current.status then .fail (.message "Can only retry terminal tasks.")
      else
        let _ ← createTask (retryDispatch current.task newTaskId) .queued none now
        appendLog newTaskId .system ("retry_of=" ++ taskId)
        getTask newTaskId

end Vacps.TaskStore
