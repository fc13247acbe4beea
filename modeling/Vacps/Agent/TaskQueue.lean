import Vacps.Agent.SchedulerStore
import Vacps.Agent.ShellExecutor

/- queue/task-queue.ts. Waking the worker, logging and the kill a cancel sends to a live process are
   left out: a kill shows in what the process answers. -/
set_option autoImplicit false

namespace Vacps.TaskQueue

open Library TaskStore ShellExecutor SchedulerStore

def enqueue (task : TaskDispatch) (now : Int) : Agent Bool := createTask task .queued none now

structure CancelReply where
  cancelled : Bool
  status : Option TaskStatus
  already_terminal : Bool
deriving DecidableEq, Repr

-- Status none stands for the text not_found.
def cancel (taskId : String) (flaggedAt finishedAt now : Int) : Agent CancelReply := do
  let before ← getTask taskId
  match before with
  | none => pure ⟨false, none, true⟩
  | some before =>
      let done ← requestCancel taskId flaggedAt finishedAt now
      if !done then pure ⟨false, some before.status, true⟩
      else
        let after ← getTask taskId
        pure ⟨true, some ((after.map fun task => task.status).getD .cancelled), false⟩

def retry (taskId newId : String) (now : Int) : Agent String := do
  let enqueued ← enqueueRetryOf taskId newId now
  match enqueued with
  | none => .fail (.message "Task not found.")
  | some _ => pure newId

-- The clock readings of one pumpOnce, and what the host answers for the task it runs.
structure PumpRun where
  claimedAt : Int
  flaggedAt : Int
  finishedAt : Int
  cancelledAt : Int
  execution : Execution

def runClaimed (claimed : StoredTask) (run : PumpRun) : Agent Bool := do
  let id := claimed.task.task_id
  let _ ← call (.setActive id)
  if ← call .readStopping then
    let _ ← requestCancel id run.flaggedAt run.finishedAt run.cancelledAt
  let _ ← call (.enterExecutor id)
  Async.finally_ (execute claimed.task run.execution) (call (.leaveExecutor id))
  let _ ← getTask id
  pure true

def pumpBody (run : PumpRun) : Agent Bool := do
  if ← hasRunning then pure false
  else if ← call .readStopping then pure false
  else
    match ← claimNextQueued run.claimedAt with
    | none => pure false
    | some claimed => runClaimed claimed run

def pumpOnce (run : PumpRun) : Agent Bool := do
  if ← call .beginPump then Async.finally_ (pumpBody run) (call .endPump)
  else pure false

def stop (flaggedAt finishedAt now : Int) : Agent Unit := do
  let activeTaskId ← call .beginStop
  match activeTaskId with
  | none => pure ()
  | some id =>
      let _ ← requestCancel id flaggedAt finishedAt now
      pure ()

def upsertScheduler (platform : Platform) (input : SchedulerWire) (nowMs now : Int) : Agent Unit := do
  let wire : SchedulerWire :=
    { input with
      policy := input.policy.or (some DEFAULT_SCHEDULE_POLICY)
      computeNextIfMissing := some (nextCronRunAtIso platform input.cron input.timezone nowMs) }
  let _ ← upsertFromWire platform wire now
  pure ()

def deleteScheduler (id : String) : Agent Unit := remove id

def runScheduleNow (scheduleId : String) (task : CreateTaskInput) (taskId : String) (now : Int) : Agent String := do
  let dispatch : TaskDispatch :=
    { toCreateTaskInput := task, task_id := taskId, source := some .schedule, schedule_id := some scheduleId }
  let created ← createTask dispatch .queued none now
  if !created then .fail (.message "Failed to insert schedule run-now task.")
  else pure taskId

structure ScheduleFireAck where
  schedule_id : String
  revision : Int
  scheduled_for : String
  enqueued_count : Nat
  locally_advanced_to : Option String
  occurrence_id : Option String
deriving DecidableEq, Repr

def fireAck (current : StoredScheduler) (plan : MisfirePlan) (result : ClaimResult) : ScheduleFireAck where
  schedule_id := current.id
  revision := current.revision
  scheduled_for := toISOString plan.scheduledForMs
  enqueued_count := result.slots.length
  locally_advanced_to := truthy result.advancedNext
  occurrence_id := result.slots.head?.map ClaimEnqueueSlot.occurrenceId

def fireEach (platform : Platform) (nowMs now : Int) : List StoredScheduler → Agent (List ScheduleFireAck)
  | [] => pure []
  | current :: rest => do
      let result ← claimAndEnqueue platform current nowMs now
      let later ← fireEach platform nowMs now rest
      match result.plan with
      | some plan => pure (if result.claimed then fireAck current plan result :: later else later)
      | none => pure later

def fireDueSchedulers (platform : Platform) (nowMs now : Int) : Agent (List ScheduleFireAck) := do
  let due ← listDue nowMs 128
  fireEach platform nowMs now due

def queuedTask : TaskDispatch where
  toCreateTaskInput := nightlyTask
  task_id := "task"
  source := none
  schedule_id := none

def queuedDb : Database := (Database.empty.run (.insertTask queuedTask .queued none 0)).2

end Vacps.TaskQueue
