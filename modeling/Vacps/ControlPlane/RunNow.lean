import Vacps.ControlPlane.Inventory
import Vacps.Library.Runs

/- control-worker/src/schedules/schedule-service.ts: runNow beside ackOccurrence. TaskService.create writes no
   schedule; it is one call here, answered as the tasks may have it. -/
set_option autoImplicit false

namespace Vacps.ControlPlane

open Library

structure RunState where
  estate : Estate
  -- The n-th task asked for: a failure, or whether it was there already.
  creations : Nat → Except AppError Bool
  created : Nat

inductive RunOp where
  | base (op : CpOp)
  | createTask (template : CreateTaskInput) (scheduleId : String)
  | bookRun (lastRunAt : String) (next : Option String) (id : String) (revision : Int)

@[reducible] def RunOp.Result : RunOp → Type
  | .base op => op.Result
  | .createTask _ _ => Bool
  | .bookRun _ _ _ _ => Nat

abbrev RunService (α : Type) : Type := Async RunOp RunOp.Result AppError α

-- A program of the service beside the two further calls.
def lifted {α : Type} : Service α → RunService α
  | .ret value => .ret value
  | .fail error => .fail error
  | .call op rest => .call (.base op) fun result => lifted (rest result)

def CpState.booked (cp : CpState) (lastRunAt : String) (next : Option String) (id : String) (revision : Int) : CpState :=
  { cp with
    schedules := cp.schedules.update (fun row => decide (row.id = id) && row.revision == revision)
      (ScheduleRow.advance lastRunAt next) (ScheduleRow.advance_id lastRunAt next) }

section runNow

variable (platform : Platform)

def RunOp.exec : (op : RunOp) → RunState → Except AppError op.Result × RunState
  | .base op, state =>
      ((Estate.exec platform op state.estate).1, { state with estate := (Estate.exec platform op state.estate).2 })
  | .createTask _ _, state => (state.creations state.created, { state with created := state.created + 1 })
  | .bookRun lastRunAt next id revision, state =>
      (.ok (state.estate.cp.schedules.rows.countP fun row => decide (row.id = id) && row.revision == revision),
        { state with estate := { state.estate with cp := state.estate.cp.booked lastRunAt next id revision } })

def runTemplate (schedule : ScheduleRecord) (idempotencyKey : Option String) : CreateTaskInput :=
  { schedule.task with
    backend_id := schedule.backend_id
    idempotency_key := (truthy idempotencyKey).or schedule.task.idempotency_key }

-- From the stored cursor where it reads as an instant, else from now.
def advanceFrom (schedule : ScheduleRecord) (now : Int) : Int := (schedule.next_run_at.bind platform.dateParse).getD now

def runNext (schedule : ScheduleRecord) (now : Int) : Option String :=
  canonicalNext platform schedule.expression schedule.timezone schedule.enabled (advanceFrom platform schedule now)

def bookNext (schedule : ScheduleRecord) (now : Int) : RunService Unit :=
  match schedule.next_run_at with
  | some raw => do
      let _ ← lifted (call (.advanceSchedule (toISOString now) (runNext platform schedule now) schedule.id schedule.revision raw))
      pure ()
  | none => do
      let _ ← Async.perform (.bookRun (toISOString now) (runNext platform schedule now) schedule.id schedule.revision)
      pure ()

def syncStored (id : String) (syncedAt : Int) : Service Unit := do
  let schedule ← get id
  sync platform schedule syncedAt

structure RunNowReply where
  scheduleId : String
  reusedExistingTask : Bool
  queued : Bool

def runNow (id : String) (idempotencyKey : Option String) (now syncedAt : Int) : RunService RunNowReply := do
  let schedule ← lifted (get id)
  let reused ← Async.perform (.createTask (runTemplate schedule idempotencyKey) schedule.id)
  if reused then pure ⟨id, true, true⟩
  else do
    bookNext platform schedule now
    let _ ← lifted (Async.attempt (syncStored platform id syncedAt))
    pure ⟨id, false, true⟩

inductive CursorCall where
  | ack (input : ScheduleOccurrenceAck) (nowMs syncedAt : Int)
  | runNow (id : String) (idempotencyKey : Option String) (now syncedAt : Int)

def CursorCall.schedule : CursorCall → String
  | .ack input _ _ => input.schedule_id
  | .runNow id _ _ _ => id

-- The occurrence an ack is about.
def CursorCall.occurrence : CursorCall → Option Int
  | .ack input _ _ => platform.dateParse input.scheduled_for
  | .runNow _ _ _ _ => none

-- runNow's own reply is left out.
def CursorCall.body : CursorCall → RunService (Option ScheduleOccurrenceAckResult)
  | .ack input nowMs syncedAt => do
      let reply ← lifted (ackOccurrence platform input nowMs syncedAt)
      pure (some reply)
  | .runNow id idempotencyKey now syncedAt => do
      let _ ← ControlPlane.runNow platform id idempotencyKey now syncedAt
      pure none

end runNow

abbrev CursorPool : Type := Pool RunOp RunOp.Result AppError (Option ScheduleOccurrenceAckResult) CursorCall RunState

-- The occurrences of one schedule acknowledged so far, beside the pool.
structure CursorHistory where
  pool : CursorPool
  acknowledged : List Int

section history

variable (platform : Platform) (id : String)

def cursorOf (state : RunState) : Option Int :=
  (state.estate.cp.schedules.find? id).bind fun row => (truthy row.next_run_at).bind platform.dateParse

def countsSwap : (op : RunOp) → Except AppError op.Result → Bool
  | .base (.advanceSchedule _ _ _ _ _), .ok changes => decide (0 < changes)
  | _, _ => false

def acceptedReply : RunService (Option ScheduleOccurrenceAckResult) → Bool
  | .ret (some reply) => reply.accepted
  | _ => false

-- An ack counts from its UPDATE on, or from the answer that accepts it.
def accepts (op : RunOp) (result : Except AppError op.Result)
    (rest : RunService (Option ScheduleOccurrenceAckResult)) : Bool :=
  countsSwap op result || acceptedReply rest

def acknowledges (pool : CursorPool) : PoolEvent CursorCall → Option Int
  | .start _ => none
  | .step i =>
      match pool.threads[i]? with
      | some ⟨call, .call op rest⟩ =>
          if call.schedule = id ∧ accepts op (RunOp.exec platform op pool.state).1 (rest (RunOp.exec platform op pool.state).1) then
            call.occurrence platform
          else none
      | _ => none

def CursorHistory.next (history : CursorHistory) (event : PoolEvent CursorCall) : CursorHistory :=
  ⟨history.pool.perform (RunOp.exec platform) (CursorCall.body platform) event,
    (acknowledges platform id history.pool event).toList ++ history.acknowledged⟩

def cursorRun (start : RunState) (events : List (PoolEvent CursorCall)) : CursorHistory :=
  runFrom (CursorHistory.next platform id) ⟨⟨start, []⟩, []⟩ events

-- Where a runNow that read no cursor comes to its UPDATE, there is none yet, and no occurrence past its
-- clock reading has been acknowledged.
def booksFresh (history : CursorHistory) (event : PoolEvent CursorCall) : Prop :=
  ∀ i key now syncedAt lastRunAt next revision rest, event = .step i →
    history.pool.threads[i]? = some ⟨.runNow id key now syncedAt, .call (.bookRun lastRunAt next id revision) rest⟩ →
      cursorOf platform id history.pool.state = none ∧ ∀ occurrence ∈ history.acknowledged, occurrence ≤ now

end history

end Vacps.ControlPlane
