import Mathlib.Data.List.Sort
import Vacps.Agent.Database
import Vacps.Library.Async

/- The calls of the agent's script: one per database round trip, one per step on the memory the
   script shares between its async functions, and the marks that record what reaches a process. -/
set_option autoImplicit false

namespace Vacps

open Library

-- A database error, or an Error the script throws itself.
inductive AgentError where
  | store (error : StoreError)
  | message (text : String)
deriving DecidableEq, Repr

-- The queue's fields, and two histories no code reads: ids handed to the executor, ids whose
-- process was started. `executing` holds the ids whose execute call has not returned.
structure AgentState where
  db : Database
  ready : Bool
  pumpBusy : Bool
  stopping : Bool
  activeTaskId : Option String
  executing : List String
  handed : List String
  started : List String

-- A process that has just started: nothing in memory, nothing admitted yet.
def AgentState.booting (db : Database) (handed started : List String) : AgentState where
  db := db
  ready := false
  pumpBusy := false
  stopping := false
  activeTaskId := none
  executing := []
  handed := handed
  started := started

inductive AgentOp where
  | run (statement : Statement)
  | transaction (steps : List TransactionStep)
  | selectTask (id : String)
  | selectIdempotencyKey (key : String)
  | selectInterrupted
  | claimNextQueued (now : Int)
  | selectCancelRequested (id : String)
  | selectMaxSequence (id : String)
  | selectRunning
  | selectScheduler (id : String)
  | selectDueSchedulers (nowIso : String) (limit : Nat)
  | setReady
  -- pumpOnce tests stopping and pumpBusy and takes pumpBusy in one turn.
  | beginPump
  | readStopping
  | setActive (id : String)
  | endPump
  | beginStop
  | enterExecutor (id : String)
  | leaveExecutor (id : String)
  | startProcess (id : String)

@[reducible] def AgentOp.Result : AgentOp → Type
  | .run _ => Nat
  | .transaction _ => List Nat
  | .selectTask _ => Option TaskRow
  | .selectIdempotencyKey _ => Option IdempotencyRow
  | .selectInterrupted => List String
  | .claimNextQueued _ => Option TaskRow
  | .selectCancelRequested _ => Option Bool
  | .selectMaxSequence _ => Nat
  | .selectRunning => Bool
  | .selectScheduler _ => Option SchedulerRow
  | .selectDueSchedulers _ _ => List SchedulerRow
  | .setReady => Unit
  | .beginPump => Bool
  | .readStopping => Bool
  | .setActive _ => Unit
  | .endPump => Unit
  | .beginStop => Option String
  | .enterExecutor _ => Unit
  | .leaveExecutor _ => Unit
  | .startProcess _ => Unit

abbrev Agent (α : Type) : Type := Async AgentOp AgentOp.Result AgentError α

abbrev call (op : AgentOp) : Agent op.Result := Async.perform op

def oldestQueued (db : Database) : Option TaskRow :=
  ((db.tasks.rows.filter fun row => row.status == .queued && !row.cancelRequested).insertionSort
    fun a b => a.createdAt ≤ b.createdAt).head?

def claimOldest (db : Database) (now : Int) : Option TaskRow × Database :=
  match oldestQueued db with
  | none => (none, db)
  | some row =>
      let claim (row : TaskRow) : TaskState :=
        { row.toTaskState with status := .running, startedAt := some now, updatedAt := now }
      (some (row.with (claim row)),
        (db.updateTasks (fun other => decide (other.id = row.id) && other.status == .queued) claim).2)

def interruptedIds (db : Database) : List String :=
  (db.tasks.rows.filter fun row => row.status == .running || row.status == .starting).map TaskRow.id

def maxSequence (db : Database) (id : String) : Nat :=
  ((db.logs.rows.filter fun row => decide (row.task_id = id)).map LogRow.sequence).foldr max 0

def dueSchedulers (db : Database) (nowIso : String) (limit : Nat) : List SchedulerRow :=
  ((db.schedulers.rows.filter fun row => row.enabled && row.next_run_at.any fun next => decide (next ≤ nowIso)).insertionSort
    fun a b => a.next_run_at.getD "" ≤ b.next_run_at.getD "").take limit

def storeResult {α : Type} : Except StoreError α → Except AgentError α
  | .ok value => .ok value
  | .error error => .error (.store error)

def AgentOp.exec : (op : AgentOp) → AgentState → Except AgentError op.Result × AgentState
  | .run statement, agent =>
      (storeResult (agent.db.run statement).1, { agent with db := (agent.db.run statement).2 })
  | .transaction steps, agent =>
      (storeResult (agent.db.transaction steps).1, { agent with db := (agent.db.transaction steps).2 })
  | .selectTask id, agent => (.ok (agent.db.tasks.find? id), agent)
  | .selectIdempotencyKey key, agent => (.ok (agent.db.idempotency.find? key), agent)
  | .selectInterrupted, agent => (.ok (interruptedIds agent.db), agent)
  | .claimNextQueued now, agent =>
      (.ok (claimOldest agent.db now).1, { agent with db := (claimOldest agent.db now).2 })
  | .selectCancelRequested id, agent => (.ok ((agent.db.tasks.find? id).map fun row => row.cancelRequested), agent)
  | .selectMaxSequence id, agent => (.ok (maxSequence agent.db id), agent)
  | .selectRunning, agent => (.ok (agent.db.tasks.rows.any fun row => row.status == .running), agent)
  | .selectScheduler id, agent => (.ok (agent.db.schedulers.find? id), agent)
  | .selectDueSchedulers nowIso limit, agent => (.ok (dueSchedulers agent.db nowIso limit), agent)
  | .setReady, agent => (.ok (), { agent with ready := true })
  | .beginPump, agent =>
      if agent.stopping || agent.pumpBusy then (.ok false, agent) else (.ok true, { agent with pumpBusy := true })
  | .readStopping, agent => (.ok agent.stopping, agent)
  | .setActive id, agent => (.ok (), { agent with activeTaskId := some id })
  | .endPump, agent => (.ok (), { agent with activeTaskId := none, pumpBusy := false })
  | .beginStop, agent => (.ok agent.activeTaskId, { agent with stopping := true })
  | .enterExecutor id, agent =>
      (.ok (), { agent with executing := id :: agent.executing, handed := id :: agent.handed })
  | .leaveExecutor id, agent => (.ok (), { agent with executing := agent.executing.erase id })
  | .startProcess id, agent => (.ok (), { agent with started := id :: agent.started })

end Vacps
