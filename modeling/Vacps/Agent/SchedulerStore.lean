import Vacps.Agent.Store

/- queue/scheduler-store.ts. The beforeInsert hook of claimAndEnqueue is for tests only and is left out. -/
set_option autoImplicit false

namespace Vacps.SchedulerStore

open Library

structure StoredScheduler where
  id : String
  cron : String
  timezone : String
  enabled : Bool
  task : CreateTaskInput
  revision : Int
  policy : SchedulePolicy
  nextRunAt : Option String
  lastClaimedAt : Option String
  lastFiredMinute : Option String
  updatedAt : Int

structure ClaimEnqueueSlot where
  occurrenceId : String
  scheduledForIso : String
  scheduledForMs : Int
  revision : Int
deriving DecidableEq, Repr

inductive ClaimReason where
  | not_due
  | cas_miss
  | disabled
  | no_cursor
deriving DecidableEq, Repr

structure ClaimResult where
  claimed : Bool
  reason : Option ClaimReason
  plan : Option MisfirePlan
  slots : List ClaimEnqueueSlot
  advancedNext : Option String
deriving DecidableEq, Repr

structure SchedulerWire where
  id : String
  cron : String
  timezone : String
  enabled : Bool
  task : CreateTaskInput
  revision : Option Int
  policy : Option SchedulePolicy
  nextRunAt : Option String
  computeNextIfMissing : Option (Option String)

def concurrencyText : Concurrency → String
  | .allow => "allow"
  | .forbid => "forbid"
  | .replace => "replace"
  | .queue => "queue"

def misfireText : Misfire → String
  | .skip => "skip"
  | .run_once => "run_once"
  | .catch_up => "catch_up"

def policyJson (policy : SchedulePolicy) : Json :=
  .obj
    [("concurrency", .str (concurrencyText policy.concurrency)),
      ("misfire", .str (misfireText policy.misfire)),
      ("max_catchup_runs", .num policy.max_catchup_runs)]

def rowToScheduler (row : SchedulerRow) : StoredScheduler where
  id := row.id
  cron := row.cron
  timezone := row.timezone
  enabled := row.enabled
  task := row.task
  revision := if row.revision = 0 then 1 else row.revision
  policy := match row.policy_json with
    | some policy => parseSchedulePolicy policy
    | none => DEFAULT_SCHEDULE_POLICY
  nextRunAt := truthy row.next_run_at
  lastClaimedAt := truthy row.last_claimed_at
  lastFiredMinute := truthy row.last_fired_minute
  updatedAt := row.updated_at

def get (id : String) : Agent (Option StoredScheduler) := do
  let row ← call (.selectScheduler id)
  pure (row.map rowToScheduler)

section wire

variable (platform : Platform)

def canonicalText (text : Option String) : Option String :=
  (truthy text).bind fun raw => canonicalUtcIso (platform.dateParse raw)

def writeRowStatement (id cron timezone : String) (enabled : Bool) (task : CreateTaskInput) (revision : Int)
    (policy : SchedulePolicy) (nextRunAt : Option String) (now : Int) : Statement :=
  .upsertScheduler id cron timezone enabled task (canonicalText platform nextRunAt) revision (policyJson policy) now

def mergeLocal (schedule : StoredScheduler) : SchedulerMergeLocal CreateTaskInput where
  revision := schedule.revision
  cron := schedule.cron
  timezone := schedule.timezone
  enabled := schedule.enabled
  task := schedule.task
  policy := schedule.policy
  nextRunAt := truthy schedule.nextRunAt

def mergeIncoming (current : Option StoredScheduler) (input : SchedulerWire) : SchedulerMergeIncoming CreateTaskInput where
  revision := input.revision.getD ((current.map StoredScheduler.revision).getD 1)
  cron := input.cron
  timezone := input.timezone
  enabled := input.enabled
  task := input.task
  policy := input.policy.getD ((current.map StoredScheduler.policy).getD DEFAULT_SCHEDULE_POLICY)
  nextRunAt := input.nextRunAt

-- The cursor written for a merge result: the computed one where it has none, and none when disabled.
def wireCursor (input : SchedulerWire) (enabled : Bool) (merged : Option String) : Option String :=
  let filled := if enabled && (truthy merged).isNone then input.computeNextIfMissing.getD merged else merged
  if enabled then (truthy filled).bind fun raw => canonicalUtcIso (platform.dateParse raw) else none

def wireStatement (current : Option StoredScheduler) (input : SchedulerWire) (now : Int) : Option Statement :=
  match mergeSchedulerWire platform (current.map mergeLocal) (mergeIncoming current input) with
  | .ignore => none
  | .apply revision cron timezone enabled task policy nextRunAt =>
      some (writeRowStatement platform input.id cron timezone enabled task revision policy
        (wireCursor platform input enabled nextRunAt) now)

def upsertFromWire (input : SchedulerWire) (now : Int) : Agent Bool := do
  let current ← get input.id
  match wireStatement platform current input now with
  | none => pure false
  | some statement =>
      let _ ← call (.run statement)
      pure true

end wire

def remove (id : String) : Agent Unit := do
  let _ ← call (.run (.deleteScheduler id))
  pure ()

def listDue (nowMs : Int) (limit : Nat) : Agent (List StoredScheduler) := do
  let rows ← call (.selectDueSchedulers (toISOString nowMs) limit)
  pure (rows.map rowToScheduler)

section claim

variable (platform : Platform) (schedule : StoredScheduler)

-- Every planned slot is canonical text, so Date.parse reads it.
def plannedSlots (plan : MisfirePlan) : List ClaimEnqueueSlot :=
  plan.enqueueSlots.map fun iso =>
    let ms := (platform.dateParse iso).getD 0
    ⟨occurrenceId schedule.id schedule.revision ms, iso, ms, schedule.revision⟩

def slotDispatch (slot : ClaimEnqueueSlot) : TaskDispatch where
  toCreateTaskInput := { schedule.task with idempotency_key := some slot.occurrenceId }
  task_id := slot.occurrenceId
  source := some .schedule
  schedule_id := some schedule.id

def slotStatement (now : Int) (slot : ClaimEnqueueSlot) : Statement :=
  .insertOccurrence (slotDispatch schedule slot) ⟨schedule.id, slot.revision, slot.scheduledForMs⟩
    schedule.policy.concurrency now

def claimStatement (plan : MisfirePlan) (now : Int) : Statement :=
  .claimScheduler plan.advancedNext (toISOString plan.scheduledForMs) now schedule.id schedule.revision plan.scheduledForRaw

def claimSteps (plan : MisfirePlan) (now : Int) : List TransactionStep :=
  ⟨claimStatement schedule plan now, none⟩ ::
    (plannedSlots platform schedule plan).map fun slot => ⟨slotStatement schedule now slot, none⟩

def insertedSlots (slots : List ClaimEnqueueSlot) (results : List Nat) : List ClaimEnqueueSlot :=
  ((slots.zip results).filter fun pair => pair.2 == 1).map Prod.fst

def schedulePlan (nowMs : Int) (raw : String) : Option MisfirePlan :=
  planMisfire platform
    { cron := schedule.cron, timezone := schedule.timezone, policy := schedule.policy, nextRunAtRaw := raw, nowMs := nowMs }

def notClaimed (reason : ClaimReason) (plan : Option MisfirePlan) : ClaimResult := ⟨false, some reason, plan, [], none⟩

def claimResult (plan : MisfirePlan) (results : List Nat) : ClaimResult :=
  if results.head?.getD 0 ≠ 1 then notClaimed .cas_miss (some plan)
  else ⟨true, none, some plan, insertedSlots (plannedSlots platform schedule plan) (results.drop 1), plan.advancedNext⟩

def claimAndEnqueue (nowMs now : Int) : Agent ClaimResult :=
  if !schedule.enabled then pure (notClaimed .disabled none)
  else
    match truthy schedule.nextRunAt with
    | none => pure (notClaimed .no_cursor none)
    | some raw =>
        match schedulePlan platform schedule nowMs raw with
        | none => pure (notClaimed .not_due none)
        | some plan => do
            let results ← call (.transaction (claimSteps platform schedule plan now))
            pure (claimResult platform schedule plan results)

end claim

-- A task, a schedule and an agent for concrete runs.
def nightlyTask : CreateTaskInput where
  backend_id := "backend"
  kind := .command "true" []
  profile := "full"
  timeout_seconds := 60
  verify := none
  retry := none
  environment := none
  idempotency_key := none
  output := ⟨true, true, 86400, 10485760⟩

def minutely (revision : Int) (policy : Option SchedulePolicy) : SchedulerRow where
  id := "schedule"
  cron := "* * * * *"
  timezone := "UTC"
  enabled := true
  task := nightlyTask
  last_fired_minute := none
  next_run_at := some "1970-01-01T00:00:00.000Z"
  revision := revision
  last_claimed_at := none
  policy_json := policy.map policyJson
  updated_at := 0

def agentWith (row : SchedulerRow) : AgentState := AgentState.booting (Database.empty.upsertScheduler row) [] []

end Vacps.SchedulerStore
