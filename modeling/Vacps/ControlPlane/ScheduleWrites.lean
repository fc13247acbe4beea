import Vacps.ControlPlane.ScheduleService

/- control-worker/src/schedules/schedule-service.ts: create, update, patch, delete and reconcile. Ids
   drawn by crypto.randomUUID and clock readings are arguments; crypto.subtle answers the hashes. -/
set_option autoImplicit false

namespace Vacps.ControlPlane

open Library

structure ScheduleTrigger where
  expression : String
  timezone : String
deriving DecidableEq, Repr

structure CreateScheduleInput where
  backend_id : String
  name : String
  expression : String
  timezone : Option String
  policy : Option SchedulePolicy
  enabled : Option Bool
  task : CreateTaskInput
  idempotency_key : Option String

structure UpdateScheduleInput where
  name : Option String
  trigger : Option ScheduleTrigger
  policy : Option SchedulePolicy
  enabled : Option Bool
  task : Option CreateTaskInput

structure TriggerChanges where
  expression : Option String
  timezone : Option String

structure PolicyChanges where
  concurrency : Option Concurrency
  misfire : Option Misfire
  max_catchup_runs : Option Int

structure ScheduleChanges where
  name : Option String
  enabled : Option Bool
  trigger : Option TriggerChanges
  policy : Option PolicyChanges
  task : Option CreateTaskInput

structure PatchScheduleInput where
  expected_revision : Option Int
  changes : ScheduleChanges
  idempotency_key : Option String

-- The hashed payloads: the create input without its key, and the operations' own records.
structure ScheduleHashes where
  create : CreateScheduleInput → String
  patch : String → Option Int → ScheduleChanges → String
  delete : String → String

structure WrittenSchedule where
  schedule : ScheduleRecord
  reused : Bool
  requestHash : String

def idempotencyConflict : AppError :=
  ⟨"idempotency_conflict", "The idempotency key was previously used with different arguments.", 409⟩

def withBackendId (task : CreateTaskInput) (backendId : String) : CreateTaskInput := { task with backend_id := backendId }

-- publicTaskForCompare drops the storage-only fields.
def publicTaskForCompare (task : CreateTaskInput) : CreateTaskInput :=
  { task with backend_id := "", idempotency_key := none }

section writes

variable (platform : Platform) (hashes : ScheduleHashes)

def findByIdempotency (backendId : String) (key : Option String) : Service (Option ScheduleRecord) :=
  match truthy key with
  | none => pure none
  | some key => do
      let row ← call (.selectByIdempotency backendId key)
      pure (row.map toSchedule)

def reuse (existing : ScheduleRecord) (requestHash : String) : Service WrittenSchedule :=
  if existing.requestHash.any (· != requestHash) then .fail idempotencyConflict
  else pure ⟨existing, true, existing.requestHash.getD requestHash⟩

def canonicalNext (expression timezone : String) (enabled : Bool) (now : Int) : Option String :=
  if enabled then
    (nextCronRunAtIso platform expression timezone now).map fun raw =>
      (canonicalUtcIso (platform.dateParse raw)).getD raw
  else none

def createdRow (input : CreateScheduleInput) (id requestHash : String) (now : Int) : ScheduleRow where
  id := id
  backend_id := input.backend_id
  name := input.name
  cron := input.expression
  timezone := input.timezone.getD "UTC"
  task := withBackendId input.task input.backend_id
  enabled := input.enabled.getD true
  revision := 1
  policy_json := some (SchedulerStore.policyJson (input.policy.getD DEFAULT_SCHEDULE_POLICY))
  idempotency_key := input.idempotency_key
  request_hash := some requestHash
  last_run_at := none
  next_run_at := canonicalNext platform input.expression (input.timezone.getD "UTC") (input.enabled.getD true) now
  created_at := toISOString now
  updated_at := toISOString now

def create (input : CreateScheduleInput) (id : String) (now syncedAt : Int) : Service WrittenSchedule := do
  let requestHash := hashes.create input
  let existing ← findByIdempotency input.backend_id input.idempotency_key
  match existing with
  | some existing => reuse existing requestHash
  | none =>
      let inserted ← Async.attempt (call (.insertSchedule (createdRow platform input id requestHash now)))
      match inserted with
      | .error _ =>
          let raced ← findByIdempotency input.backend_id input.idempotency_key
          match raced with
          | some raced => reuse raced requestHash
          | none => .fail ⟨"internal_error", "Could not create schedule.", 500⟩
      | .ok _ =>
          let schedule ← get id
          let synced ← Async.attempt (sync platform schedule syncedAt)
          match synced with
          | .ok _ => pure ⟨schedule, false, requestHash⟩
          | .error error =>
              let _ ← call (.deleteSchedule id)
              .fail error

def patchedSchedule (current : ScheduleRecord) (patch : UpdateScheduleInput) : ScheduleRecord :=
  let trigger := patch.trigger.getD ⟨current.expression, current.timezone⟩
  { current with
    name := patch.name.getD current.name
    expression := trigger.expression
    timezone := trigger.timezone
    enabled := patch.enabled.getD current.enabled
    task := withBackendId (patch.task.getD current.task) current.backend_id
    policy := patch.policy.getD current.policy }

-- The comparison that makes a patch a no-op.
abbrev sameSchedule (a b : ScheduleRecord) : Prop :=
  a.name = b.name ∧ a.enabled = b.enabled ∧ a.expression = b.expression ∧ a.timezone = b.timezone ∧ a.policy = b.policy ∧
    publicTaskForCompare a.task = publicTaskForCompare b.task

def nextRevision (base : ScheduleRecord) (now : Int) : ScheduleRecord :=
  { base with
    revision := base.revision + 1
    updated_at := toISOString now
    next_run_at := canonicalNext platform base.expression base.timezone base.enabled now }

def modifiedConcurrently (id : String) : AppError :=
  ⟨"schedule_revision_conflict", "Schedule '" ++ id ++ "' was modified concurrently.", 409⟩

def writeRevision (current next : ScheduleRecord) (syncedAt : Int) : Service ScheduleRecord := do
  let changes ← call (.updateSchedule next current.id current.revision)
  if changes = 0 then .fail (modifiedConcurrently current.id)
  else do
    let _ ← sync platform next syncedAt
    get current.id

def applyUpdate (current : ScheduleRecord) (patch : UpdateScheduleInput) (now syncedAt : Int) : Service ScheduleRecord :=
  if sameSchedule (patchedSchedule current patch) current then pure current
  else writeRevision platform current (nextRevision platform (patchedSchedule current patch) now) syncedAt

def update (id : String) (input : UpdateScheduleInput) (now syncedAt : Int) : Service ScheduleRecord := do
  let current ← get id
  applyUpdate platform current { input with task := input.task.map (withBackendId · current.backend_id) } now syncedAt

-- The two spread merges of patch; parsing a policy that is whole already leaves it as it is.
def mergeChanges (current : ScheduleRecord) (changes : ScheduleChanges) : UpdateScheduleInput where
  name := changes.name
  trigger := changes.trigger.map fun trigger =>
    ⟨trigger.expression.getD current.expression, trigger.timezone.getD current.timezone⟩
  policy := changes.policy.map fun policy =>
    ⟨policy.concurrency.getD current.policy.concurrency, policy.misfire.getD current.policy.misfire,
      policy.max_catchup_runs.getD current.policy.max_catchup_runs⟩
  enabled := changes.enabled
  task := changes.task.map (withBackendId · current.backend_id)

def loadUpdate (key : Option String) : Service (Option (Replay ScheduleRecord)) :=
  match truthy key with
  | none => pure none
  | some key => call (.loadUpdate key)

def revisionMismatch (expected current : Int) : AppError :=
  ⟨"schedule_revision_conflict",
    "Schedule revision mismatch: expected " ++ toString expected ++ ", current " ++ toString current ++ ".", 409⟩

def patch (id : String) (input : PatchScheduleInput) (now syncedAt : Int) : Service WrittenSchedule := do
  let requestHash := hashes.patch id input.expected_revision input.changes
  let cached ← loadUpdate input.idempotency_key
  match cached with
  | some cached =>
      if cached.request_hash ≠ requestHash then .fail idempotencyConflict
      else pure ⟨cached.result, true, requestHash⟩
  | none =>
      let current ← get id
      if input.expected_revision.any (· != current.revision) then
        .fail (revisionMismatch (input.expected_revision.getD 0) current.revision)
      else do
        let updated ← applyUpdate platform current (mergeChanges current input.changes) now syncedAt
        match truthy input.idempotency_key with
        | none => pure ⟨updated, false, requestHash⟩
        | some key =>
            let _ ← call (.storeUpdate ⟨key, requestHash, updated⟩)
            pure ⟨updated, false, requestHash⟩

def storeDelete (key : Option String) (requestHash : String) (result : DeleteResult) : Service DeleteResult :=
  match truthy key with
  | none => pure result
  | some key => do
      let _ ← call (.storeDelete ⟨key, requestHash, result⟩)
      pure result

def removeExisting (id : String) : Service DeleteResult := do
  let existing ← call (.selectSchedule id)
  match existing with
  | none => pure ⟨false, some true, id⟩
  | some existing =>
      -- What the backend answers is not read: the row goes either way.
      let _ ← Async.attempt (call (.deleteScheduler existing.backend_id id))
      let _ ← call (.deleteSchedule id)
      pure ⟨true, none, id⟩

def loadDelete (key : Option String) : Service (Option (Replay DeleteResult)) :=
  match truthy key with
  | none => pure none
  | some key => call (.loadDelete key)

def delete (id : String) (idempotencyKey : Option String) : Service DeleteResult := do
  let requestHash := hashes.delete id
  let cached ← loadDelete idempotencyKey
  match cached with
  | some cached => if cached.request_hash ≠ requestHash then .fail idempotencyConflict else pure cached.result
  | none =>
      let result ← removeExisting id
      storeDelete idempotencyKey requestHash result

structure ScheduleQuery where
  backendId : Option String
  enabled : Option Bool
  limit : Option Int
  offset : Option Int

structure SchedulePage where
  schedules : List ScheduleRecord
  returned_count : Nat
  next_offset : Option Nat

def list (query : ScheduleQuery) : Service SchedulePage := do
  let limit := (min (max (query.limit.getD 50) 1) 200).toNat
  let offset := (max (query.offset.getD 0) 0).toNat
  let rows ← call (.selectSchedules (truthy query.backendId) query.enabled (limit + 1) offset)
  let page := rows.take limit
  pure ⟨page.map toSchedule, page.length, if limit < rows.length then some (offset + page.length) else none⟩

def reconcileEach (syncedAt : Int) : List ScheduleRecord → Service (Nat × List (String × AppError))
  | [] => pure (0, [])
  | schedule :: rest => do
      let synced ← Async.attempt (sync platform schedule syncedAt)
      let (reconciled, failed) ← reconcileEach syncedAt rest
      match synced with
      | .ok _ => pure (reconciled + 1, failed)
      | .error error => pure (reconciled, (schedule.id, error) :: failed)

def reconcile (syncedAt : Int) : Service (Nat × List (String × AppError)) := do
  let page ← list ⟨none, none, some 200, none⟩
  reconcileEach platform syncedAt page.schedules

end writes

end Vacps.ControlPlane
