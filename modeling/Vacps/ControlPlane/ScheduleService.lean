import Vacps.Agent.SchedulerStore

/- control-worker/src/schedules/schedule-service.ts: the tables of D1 it uses and the occurrence ack.
   Looking the backend up and sending it the wire are one call here. -/
set_option autoImplicit false

namespace Vacps.ControlPlane

open Library

structure ScheduleRow where
  id : String
  backend_id : String
  name : String
  cron : String
  timezone : String
  task : CreateTaskInput
  enabled : Bool
  revision : Int
  policy_json : Option Json
  idempotency_key : Option String
  request_hash : Option String
  last_run_at : Option String
  next_run_at : Option String
  created_at : String
  updated_at : String

structure ScheduleRecord where
  id : String
  backend_id : String
  name : String
  expression : String
  timezone : String
  task : CreateTaskInput
  enabled : Bool
  revision : Int
  policy : SchedulePolicy
  idempotency_key : Option String
  requestHash : Option String
  last_run_at : Option String
  next_run_at : Option String
  created_at : String
  updated_at : String

structure ScheduleOccurrenceAck where
  backend_id : String
  schedule_id : String
  revision : Int
  scheduled_for : String
  locally_advanced_to : Option String
  occurrence_id : Option String
  enqueued_count : Option Int
deriving DecidableEq, Repr

inductive AckStatus where
  | cas_applied
  | already_advanced
  | revision_mismatch
  | schedule_disabled
  | cursor_mismatch
deriving DecidableEq, Repr

structure ScheduleOccurrenceAckResult where
  accepted : Bool
  status : AckStatus
  schedule_id : String
  revision : Int
  next_run_at : Option String
  last_run_at : Option String
  local_advance_drift : Option Bool
deriving DecidableEq, Repr

structure AppError where
  code : String
  message : String
  status : Nat
deriving DecidableEq, Repr

-- The body of PUT /schedulers/:id.
structure SchedulerRequest where
  id : String
  cron : String
  timezone : String
  enabled : Bool
  task : CreateTaskInput
  policy : SchedulePolicy
  revision : Int
  next_run_at : Option String

-- What PUT /schedulers/:id hands to the agent's queue.
def wireOf (request : SchedulerRequest) : SchedulerStore.SchedulerWire where
  id := request.id
  cron := request.cron
  timezone := request.timezone
  enabled := request.enabled
  task := request.task
  revision := some request.revision
  policy := some request.policy
  nextRunAt := request.next_run_at
  computeNextIfMissing := none

structure DeleteResult where
  deleted : Bool
  already_absent : Option Bool
  schedule_id : String
deriving DecidableEq, Repr

-- operation_idempotency, a table for each scope the service writes.
structure Replay (Result : Type) where
  idempotency_key : String
  request_hash : String
  result : Result

structure CpState where
  schedules : Table String ScheduleRow ScheduleRow.id
  updates : Table String (Replay ScheduleRecord) Replay.idempotency_key
  deletes : Table String (Replay DeleteResult) Replay.idempotency_key
  -- Whether the backend answers, and the upserts sent to it so far.
  reachable : Bool
  sent : List SchedulerRequest

inductive CpOp where
  | selectSchedule (id : String)
  | selectByIdempotency (backendId key : String)
  | selectSchedules (backendId : Option String) (enabled : Option Bool) (limit offset : Nat)
  | insertSchedule (row : ScheduleRow)
  | updateSchedule (next : ScheduleRecord) (id : String) (revision : Int)
  | advanceSchedule (lastRunAt : String) (next : Option String) (id : String) (revision : Int) (token : String)
  | deleteSchedule (id : String)
  | loadUpdate (key : String)
  | storeUpdate (replay : Replay ScheduleRecord)
  | loadDelete (key : String)
  | storeDelete (replay : Replay DeleteResult)
  | upsertScheduler (backendId : String) (request : SchedulerRequest)
  | deleteScheduler (backendId id : String)

@[reducible] def CpOp.Result : CpOp → Type
  | .selectSchedule _ => Option ScheduleRow
  | .selectByIdempotency _ _ => Option ScheduleRow
  | .selectSchedules _ _ _ _ => List ScheduleRow
  | .insertSchedule _ => Unit
  | .updateSchedule _ _ _ => Nat
  | .advanceSchedule _ _ _ _ _ => Nat
  | .deleteSchedule _ => Unit
  | .loadUpdate _ => Option (Replay ScheduleRecord)
  | .storeUpdate _ => Unit
  | .loadDelete _ => Option (Replay DeleteResult)
  | .storeDelete _ => Unit
  | .upsertScheduler _ _ => Unit
  | .deleteScheduler _ _ => Unit

def ScheduleRow.matches (id : String) (revision : Int) (token : String) (row : ScheduleRow) : Bool :=
  decide (row.id = id) && (row.revision == revision && row.next_run_at == some token)

def ScheduleRow.advance (lastRunAt : String) (next : Option String) (row : ScheduleRow) : ScheduleRow :=
  { row with last_run_at := some lastRunAt, next_run_at := next, updated_at := lastRunAt }

theorem ScheduleRow.advance_id (lastRunAt : String) (next : Option String) (row : ScheduleRow) :
    (row.advance lastRunAt next).id = row.id := rfl

-- The columns applyUpdate writes.
def ScheduleRow.rewrite (next : ScheduleRecord) (row : ScheduleRow) : ScheduleRow :=
  { row with
    name := next.name
    cron := next.expression
    timezone := next.timezone
    task := next.task
    enabled := next.enabled
    revision := next.revision
    policy_json := some (SchedulerStore.policyJson next.policy)
    next_run_at := next.next_run_at
    updated_at := next.updated_at }

-- schedules_backend_idempotency_idx
def CpState.keyTaken (cp : CpState) (row : ScheduleRow) : Bool :=
  row.idempotency_key.any fun key =>
    cp.schedules.rows.any fun other => other.backend_id == row.backend_id && other.idempotency_key == some key

-- No caller reads what a failed INSERT says.
def constraintFailed : AppError := ⟨"d1_error", "UNIQUE constraint failed", 500⟩

def insertOrReplace {Result : Type} (table : Table String (Replay Result) Replay.idempotency_key) (replay : Replay Result) :
    Table String (Replay Result) Replay.idempotency_key :=
  (table.delete fun old => decide (old.idempotency_key = replay.idempotency_key)).insert replay (by
    rw [Table.find_none_iff]
    simp [Table.delete])

def listedSchedules (cp : CpState) (backendId : Option String) (enabled : Option Bool) (limit offset : Nat) : List ScheduleRow :=
  let rows := cp.schedules.rows.filter fun row => backendId.all (· == row.backend_id) && enabled.all (· == row.enabled)
  ((rows.insertionSort fun a b => a.name ≤ b.name).drop offset).take limit

def unreachableBackend : AppError := ⟨"backend_unreachable", "Backend request failed.", 502⟩

def CpOp.exec : (op : CpOp) → CpState → Except AppError op.Result × CpState
  | .selectSchedule id, cp => (.ok (cp.schedules.find? id), cp)
  | .selectByIdempotency backendId key, cp =>
      (.ok (cp.schedules.rows.find? fun row => row.backend_id == backendId && row.idempotency_key == some key), cp)
  | .selectSchedules backendId enabled limit offset, cp => (.ok (listedSchedules cp backendId enabled limit offset), cp)
  | .insertSchedule row, cp =>
      if fresh : cp.schedules.find? row.id = none then
        if cp.keyTaken row then (.error constraintFailed, cp)
        else (.ok (), { cp with schedules := cp.schedules.insert row fresh })
      else (.error constraintFailed, cp)
  | .updateSchedule next id revision, cp =>
      let selects (row : ScheduleRow) : Bool := decide (row.id = id) && row.revision == revision
      (.ok (cp.schedules.rows.countP selects),
        { cp with schedules := cp.schedules.update selects (ScheduleRow.rewrite next) fun _ => rfl })
  | .advanceSchedule lastRunAt next id revision token, cp =>
      (.ok (cp.schedules.rows.countP (ScheduleRow.matches id revision token)),
        { cp with
          schedules :=
            cp.schedules.update (ScheduleRow.matches id revision token) (ScheduleRow.advance lastRunAt next) fun _ => rfl })
  | .deleteSchedule id, cp =>
      (.ok (), { cp with schedules := cp.schedules.delete fun row => decide (row.id = id) })
  | .loadUpdate key, cp => (.ok (cp.updates.find? key), cp)
  | .storeUpdate replay, cp => (.ok (), { cp with updates := insertOrReplace cp.updates replay })
  | .loadDelete key, cp => (.ok (cp.deletes.find? key), cp)
  | .storeDelete replay, cp => (.ok (), { cp with deletes := insertOrReplace cp.deletes replay })
  | .upsertScheduler _ request, cp =>
      if cp.reachable then (.ok (), { cp with sent := request :: cp.sent }) else (.error unreachableBackend, cp)
  | .deleteScheduler _ _, cp => if cp.reachable then (.ok (), cp) else (.error unreachableBackend, cp)

abbrev Service (α : Type) : Type := Async CpOp CpOp.Result AppError α

abbrev call (op : CpOp) : Service op.Result := Async.perform op

-- One member read by schedulePolicySchema: its default when missing, none when it is no such value.
def enumMember {α : Type} (policy : Json) (name : String) (default : α) (read : String → Option α) : Option α :=
  match policy.member name with
  | none => some default
  | some value => value.asString.bind read

def readConcurrency : String → Option Concurrency
  | "allow" => some .allow
  | "forbid" => some .forbid
  | "replace" => some .replace
  | "queue" => some .queue
  | _ => none

def readMisfire : String → Option Misfire
  | "skip" => some .skip
  | "run_once" => some .run_once
  | "catch_up" => some .catch_up
  | _ => none

def present : Option Json → Option Json
  | some .null => none
  | value => value

def readCatchupRuns (policy : Json) : Option Int :=
  match (present (policy.member "max_catchup_runs")).or (present (policy.member "maxCatchupRuns")) with
  | none => some 1
  | some value => value.asInteger.filter fun runs => decide (0 ≤ runs ∧ runs ≤ 100)

def readPolicy : Json → Option SchedulePolicy
  | .null => none
  | policy => do
      let concurrency ← enumMember policy "concurrency" .forbid readConcurrency
      let misfire ← enumMember policy "misfire" .run_once readMisfire
      let max_catchup_runs ← readCatchupRuns policy
      pure ⟨concurrency, misfire, max_catchup_runs⟩

def toSchedule (row : ScheduleRow) : ScheduleRecord where
  id := row.id
  backend_id := row.backend_id
  name := row.name
  expression := row.cron
  timezone := row.timezone
  task := { row.task with backend_id := row.backend_id }
  enabled := row.enabled
  revision := if 0 < row.revision then row.revision else 1
  policy := (row.policy_json.bind readPolicy).getD DEFAULT_SCHEDULE_POLICY
  idempotency_key := truthy row.idempotency_key
  requestHash := truthy row.request_hash
  last_run_at := truthy row.last_run_at
  next_run_at := truthy row.next_run_at
  created_at := row.created_at
  updated_at := row.updated_at

def notFound (id : String) : AppError := ⟨"schedule_not_found", "Schedule '" ++ id ++ "' was not found.", 404⟩

def get (id : String) : Service ScheduleRecord := do
  let row ← call (.selectSchedule id)
  match row with
  | none => .fail (notFound id)
  | some row => pure (toSchedule row)

section ack

variable (platform : Platform)

def canonicalText (text : Option String) : Option String :=
  (truthy text).bind fun raw => canonicalUtcIso (platform.dateParse raw)

def localAdvanceDrift (localAdvancedTo cpNext : Option String) : Option Bool :=
  match (truthy localAdvancedTo).bind platform.dateParse, (truthy cpNext).bind platform.dateParse with
  | some a, some b => some (a ≠ b)
  | _, _ => none

def sync (schedule : ScheduleRecord) (now : Int) : Service Unit := do
  let computed := schedule.next_run_at.or
    (if schedule.enabled then nextCronRunAtIso platform schedule.expression schedule.timezone now else none)
  let _ ← call (.upsertScheduler schedule.backend_id
    { id := schedule.id
      cron := schedule.expression
      timezone := schedule.timezone
      enabled := schedule.enabled
      task := schedule.task
      policy := schedule.policy
      revision := schedule.revision
      next_run_at := canonicalText platform computed })
  pure ()

def refuse (status : AckStatus) (schedule : ScheduleRecord) (next lastRunAt : Option String) : ScheduleOccurrenceAckResult :=
  ⟨false, status, schedule.id, schedule.revision, next, lastRunAt, none⟩

-- An ack of a slot the cursor has passed.
def passed (schedule : ScheduleRecord) (scheduledMs : Int) : Bool :=
  ((canonicalText platform schedule.next_run_at).bind platform.dateParse).any fun next => decide (scheduledMs < next)

-- The cursor is another instant than the acked one. The raw texts are compared as the code does.
def cursorElsewhere (schedule : ScheduleRecord) (rawScheduledFor scheduledFor : String) (scheduledMs : Int) : Bool :=
  let current := canonicalText platform schedule.next_run_at
  current.isSome && current != some scheduledFor && schedule.next_run_at != some rawScheduledFor &&
    !(schedule.next_run_at.bind platform.dateParse).any fun raw => decide (raw = scheduledMs)

-- A catch_up that enqueued nothing advances as skip does.
def ackMisfire (schedule : ScheduleRecord) (enqueued : Int) : Misfire :=
  if schedule.policy.misfire = .catch_up ∧ enqueued = 0 then .skip else schedule.policy.misfire

def enqueuedOf (input : ScheduleOccurrenceAck) : Int :=
  input.enqueued_count.getD (if (truthy input.occurrence_id).isSome then 1 else 0)

-- The next_run_at the ack computes.
def ackedNext (schedule : ScheduleRecord) (scheduledFor : String) (enqueued nowMs : Int) : Option String :=
  (authoritativeNextAfterOccurrence platform schedule.expression schedule.timezone scheduledFor nowMs
    (ackMisfire schedule enqueued) (max 1 enqueued)).map fun computed =>
      (canonicalUtcIso (platform.dateParse computed)).getD computed

-- What a lost compare-and-swap answers from a second look at the row.
def lostAdvance (schedule : ScheduleRecord) (scheduledMs : Int) : Service ScheduleOccurrenceAckResult := do
  let latest ← get schedule.id
  if passed platform latest scheduledMs then
    pure ⟨true, .already_advanced, latest.id, latest.revision, canonicalText platform latest.next_run_at,
      latest.last_run_at, none⟩
  else pure (refuse .cursor_mismatch schedule schedule.next_run_at none)

def appliedAdvance (input : ScheduleOccurrenceAck) (schedule : ScheduleRecord) (syncedAt : Int) :
    Service ScheduleOccurrenceAckResult := do
  let updated ← get schedule.id
  let _ ← Async.attempt (sync platform updated syncedAt)
  pure ⟨true, .cas_applied, updated.id, updated.revision, updated.next_run_at, updated.last_run_at,
    localAdvanceDrift platform input.locally_advanced_to updated.next_run_at⟩

def advance (input : ScheduleOccurrenceAck) (schedule : ScheduleRecord) (scheduledFor : String) (scheduledMs nowMs syncedAt : Int) :
    Service ScheduleOccurrenceAckResult := do
  let next := ackedNext platform schedule scheduledFor (enqueuedOf input) nowMs
  let token := schedule.next_run_at.getD scheduledFor
  let changes ← call (.advanceSchedule (toISOString nowMs) next schedule.id schedule.revision token)
  if 0 < changes then appliedAdvance platform input schedule syncedAt
  else if token ≠ scheduledFor then
    let retried ← call (.advanceSchedule (toISOString nowMs) next schedule.id schedule.revision scheduledFor)
    if 0 < retried then appliedAdvance platform input schedule syncedAt
    else lostAdvance platform schedule scheduledMs
  else lostAdvance platform schedule scheduledMs

def ackOccurrence (input : ScheduleOccurrenceAck) (nowMs syncedAt : Int) : Service ScheduleOccurrenceAckResult := do
  let schedule ← get input.schedule_id
  if schedule.backend_id ≠ input.backend_id then
    .fail ⟨"backend_identity_mismatch", "Schedule does not belong to this backend.", 403⟩
  else if input.revision ≠ schedule.revision then
    pure (refuse .revision_mismatch schedule schedule.next_run_at schedule.last_run_at)
  else if !schedule.enabled then
    pure (refuse .schedule_disabled schedule schedule.next_run_at schedule.last_run_at)
  else
    match platform.dateParse input.scheduled_for with
    | none => .fail ⟨"invalid_request", "scheduled_for is not a valid timestamp.", 400⟩
    | some scheduledMs =>
        let scheduledFor := toISOString scheduledMs
        if passed platform schedule scheduledMs then
          pure ⟨true, .already_advanced, schedule.id, schedule.revision, canonicalText platform schedule.next_run_at,
            schedule.last_run_at,
            localAdvanceDrift platform input.locally_advanced_to (canonicalText platform schedule.next_run_at)⟩
        else if cursorElsewhere platform schedule input.scheduled_for scheduledFor scheduledMs then
          pure (refuse .cursor_mismatch schedule (canonicalText platform schedule.next_run_at) schedule.last_run_at)
        else advance platform input schedule scheduledFor scheduledMs nowMs syncedAt

end ack

-- A control plane for concrete runs, whose one schedule is the agent's.
def mirrored (row : SchedulerRow) : ScheduleRow where
  id := row.id
  backend_id := row.task.backend_id
  name := row.id
  cron := row.cron
  timezone := row.timezone
  task := row.task
  enabled := row.enabled
  revision := row.revision
  policy_json := row.policy_json
  idempotency_key := none
  request_hash := none
  last_run_at := none
  next_run_at := row.next_run_at
  created_at := "1970-01-01T00:00:00.000Z"
  updated_at := "1970-01-01T00:00:00.000Z"

def controlPlaneWith (row : ScheduleRow) : CpState := ⟨Table.empty.insert row rfl, Table.empty, Table.empty, true, []⟩

end Vacps.ControlPlane
