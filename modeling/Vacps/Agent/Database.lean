import Vacps.Agent.ScheduleLogic
import Vacps.Contracts.Task
import Vacps.Library.Table

/- The agent's SQLite tables (storage/schema.ts) and the statements the stores send. Timestamps the
   agent writes for itself are kept as time values: canonical ISO text is in bijection with them. -/
set_option autoImplicit false

namespace Vacps

open Library

-- The columns an UPDATE of a task row may change.
structure TaskState where
  status : TaskStatus
  result : Option Json
  error : Option TaskError
  cancelRequested : Bool
  startedAt : Option Int
  finishedAt : Option Int
  updatedAt : Int

structure StoredTask extends TaskState where
  task : TaskDispatch
  createdAt : Int

structure Occurrence where
  scheduleId : String
  scheduleRevision : Int
  scheduledForMs : Int
deriving DecidableEq, Repr

-- The columns id, backend_id, kind and profile repeat fields of input_json and are read off it.
structure TaskRow extends StoredTask where
  occurrence : Option Occurrence

abbrev TaskRow.id (row : TaskRow) : String := row.task.task_id

def TaskRow.with (row : TaskRow) (state : TaskState) : TaskRow :=
  { row with toTaskState := state }

@[simp] theorem task_with_id (row : TaskRow) (state : TaskState) : (row.with state).id = row.id := rfl

@[simp] theorem task_with_occurrence (row : TaskRow) (state : TaskState) : (row.with state).occurrence = row.occurrence := rfl

def TaskRow.active (scheduleId : String) (row : TaskRow) : Bool :=
  row.occurrence.any (fun occurrence => occurrence.scheduleId = scheduleId) &&
    (row.status == .queued || row.status == .running)

structure TaskTable extends Table String TaskRow TaskRow.id where
  occurrences : (rows.filterMap TaskRow.occurrence).Nodup

structure IdempotencyRow where
  idempotency_key : String
  task_id : String
  created_at : Int

inductive LogStream where
  | stdout
  | stderr
  | system
deriving DecidableEq, Repr

structure LogRow where
  task_id : String
  sequence : Nat
  stream : LogStream
  data : String
deriving DecidableEq, Repr

abbrev LogRow.key (row : LogRow) : String × Nat := (row.task_id, row.sequence)

structure SchedulerRow where
  id : String
  cron : String
  timezone : String
  enabled : Bool
  task : CreateTaskInput
  last_fired_minute : Option String
  next_run_at : Option String
  revision : Int
  last_claimed_at : Option String
  policy_json : Option Json
  updated_at : Int

-- The foreign keys hold in every database: foreign_keys is ON.
structure Database where
  tasks : TaskTable
  idempotency : Table String IdempotencyRow IdempotencyRow.idempotency_key
  logs : Table (String × Nat) LogRow LogRow.key
  schedulers : Table String SchedulerRow SchedulerRow.id
  keyed : ∀ row ∈ idempotency.rows, tasks.find? row.task_id ≠ none
  logged : ∀ row ∈ logs.rows, tasks.find? row.task_id ≠ none

inductive StoreError where
  | unique (index : String)
  | foreignKey
  | expectedChanges (message : String)
deriving DecidableEq, Repr

section tables

def TaskTable.update (table : TaskTable) (selects : TaskRow → Bool) (change : TaskRow → TaskState) : TaskTable where
  toTable := table.toTable.update selects (fun row => row.with (change row)) fun row => task_with_id row (change row)
  occurrences := by
    have same : ∀ row : TaskRow, (if selects row then row.with (change row) else row).occurrence = row.occurrence := by
      intro row
      split <;> rfl
    simpa only [Table.update, List.filterMap_map, Function.comp_def, same] using table.occurrences

def TaskTable.taken (table : TaskTable) (occurrence : Option Occurrence) : Bool :=
  occurrence.any fun slot => (table.rows.filterMap TaskRow.occurrence).contains slot

def TaskTable.insert (table : TaskTable) (row : TaskRow) (fresh : table.find? row.id = none)
    (free : table.taken row.occurrence = false) : TaskTable where
  toTable := table.toTable.insert row fresh
  occurrences := by
    cases slot : row.occurrence with
    | none => simpa [Table.insert, slot] using table.occurrences
    | some occurrence =>
        have absent : occurrence ∉ table.rows.filterMap TaskRow.occurrence := by
          intro member
          rw [TaskTable.taken, slot, Option.any_some, List.contains_iff_mem.mpr member] at free
          cases free
        simp only [Table.insert, List.filterMap_append, List.filterMap_cons, slot, List.filterMap_nil]
        refine List.nodup_append.mpr ⟨table.occurrences, List.nodup_singleton _, ?_⟩
        intro a before b last same
        rw [List.mem_singleton] at last
        exact absent (last ▸ same ▸ before)

theorem find_inserted_task (table : TaskTable) (row : TaskRow) (fresh : table.find? row.id = none)
    (free : table.taken row.occurrence = false) (id : String) :
    (table.insert row fresh free).find? id = if row.id = id then some row else table.find? id :=
  table.toTable.find_insert row fresh id

theorem find_updated_task (table : TaskTable) (selects : TaskRow → Bool) (change : TaskRow → TaskState) (id : String) :
    (table.update selects change).find? id =
      (table.find? id).map fun row => if selects row then row.with (change row) else row :=
  table.toTable.find_update selects _ (fun row => task_with_id row (change row)) id

theorem task_insert_keeps (table : TaskTable) (row : TaskRow) (fresh : table.find? row.id = none)
    (free : table.taken row.occurrence = false) (id : String) (stored : table.find? id ≠ none) :
    (table.insert row fresh free).find? id ≠ none := by
  rw [find_inserted_task]
  split
  · exact Option.some_ne_none row
  · exact stored

theorem task_update_keeps (table : TaskTable) (selects : TaskRow → Bool) (change : TaskRow → TaskState) (id : String)
    (stored : table.find? id ≠ none) : (table.update selects change).find? id ≠ none := by
  rw [find_updated_task]
  simpa using stored

end tables

def Database.empty : Database where
  tasks := ⟨Table.empty, List.nodup_nil⟩
  idempotency := Table.empty
  logs := Table.empty
  schedulers := Table.empty
  keyed := by
    intro row member
    cases member
  logged := by
    intro row member
    cases member

theorem task_table_ext (a b : TaskTable) (same : a.rows = b.rows) : a = b := by
  obtain ⟨⟨aRows, aUnique⟩, aOccurrences⟩ := a
  obtain ⟨⟨bRows, bUnique⟩, bOccurrences⟩ := b
  cases same
  rfl

def Database.withTasks (db : Database) (tasks : TaskTable)
    (keeps : ∀ id, db.tasks.find? id ≠ none → tasks.find? id ≠ none) : Database :=
  { db with
    tasks := tasks
    keyed := fun row member => keeps row.task_id (db.keyed row member)
    logged := fun row member => keeps row.task_id (db.logged row member) }

def Database.updateTasks (db : Database) (selects : TaskRow → Bool) (change : TaskRow → TaskState) : Nat × Database :=
  (db.tasks.rows.countP selects, db.withTasks (db.tasks.update selects change) (task_update_keeps db.tasks selects change))

def Database.insertTask (db : Database) (row : TaskRow) : Except StoreError (Nat × Database) :=
  if fresh : db.tasks.find? row.id = none then
    if free : db.tasks.taken row.occurrence = false then
      .ok (1, db.withTasks (db.tasks.insert row fresh free) (task_insert_keeps db.tasks row fresh free))
    else .error (.unique "tasks_schedule_occurrence_unique")
  else .error (.unique "tasks.id")

def Database.insertIdempotency (db : Database) (row : IdempotencyRow) : Except StoreError (Nat × Database) :=
  if fresh : db.idempotency.find? row.idempotency_key = none then
    if owned : db.tasks.find? row.task_id ≠ none then
      .ok (1,
        { db with
          idempotency := db.idempotency.insert row fresh
          keyed := by
            intro other member
            rcases List.mem_append.mp member with before | last
            · exact db.keyed other before
            · exact (List.mem_singleton.mp last) ▸ owned })
    else .error .foreignKey
  else .error (.unique "task_idempotency.idempotency_key")

def Database.insertLog (db : Database) (row : LogRow) : Except StoreError (Nat × Database) :=
  if fresh : db.logs.find? row.key = none then
    if owned : db.tasks.find? row.task_id ≠ none then
      .ok (1,
        { db with
          logs := db.logs.insert row fresh
          logged := by
            intro other member
            rcases List.mem_append.mp member with before | last
            · exact db.logged other before
            · exact (List.mem_singleton.mp last) ▸ owned })
    else .error .foreignKey
  else .error (.unique "task_logs.task_id, task_logs.sequence")

-- WHERE id, revision, enabled = 1 and next_run_at still are what the claim was planned from.
def SchedulerRow.matches (id : String) (revision : Int) (scheduledForRaw : String) (row : SchedulerRow) : Bool :=
  decide (row.id = id) && (row.revision == revision && row.enabled && row.next_run_at == some scheduledForRaw)

def SchedulerRow.claim (advanced : Option String) (claimedAt : String) (now : Int) (row : SchedulerRow) : SchedulerRow :=
  { row with
    next_run_at := advanced
    last_claimed_at := some claimedAt
    last_fired_minute := some (String.ofList (claimedAt.toList.take 16))
    updated_at := now }

def Database.claimScheduler (db : Database) (advanced : Option String) (claimedAt : String) (now : Int) (id : String)
    (revision : Int) (scheduledForRaw : String) : Nat × Database :=
  (db.schedulers.rows.countP (SchedulerRow.matches id revision scheduledForRaw),
    { db with
      schedulers :=
        db.schedulers.update (SchedulerRow.matches id revision scheduledForRaw)
          (SchedulerRow.claim advanced claimedAt now) fun _ => rfl })

-- ON CONFLICT(id) DO UPDATE leaves the two claim columns of the stored row.
def SchedulerRow.excluded (incoming row : SchedulerRow) : SchedulerRow :=
  { incoming with id := row.id, last_fired_minute := row.last_fired_minute, last_claimed_at := row.last_claimed_at }

def Database.upsertScheduler (db : Database) (incoming : SchedulerRow) : Database :=
  if fresh : db.schedulers.find? incoming.id = none then { db with schedulers := db.schedulers.insert incoming fresh }
  else
    { db with
      schedulers := db.schedulers.update (fun row => decide (row.id = incoming.id)) incoming.excluded fun _ => rfl }

theorem find_upserted_scheduler (db : Database) (incoming : SchedulerRow) (id : String) :
    (db.upsertScheduler incoming).schedulers.find? id =
      if incoming.id = id then some (((db.schedulers.find? id).map incoming.excluded).getD incoming)
      else db.schedulers.find? id := by
  unfold Database.upsertScheduler
  by_cases fresh : db.schedulers.find? incoming.id = none
  · rw [dif_pos fresh, Table.find_insert]
    by_cases same : incoming.id = id
    · rw [if_pos same, if_pos same, ← same, fresh]
      rfl
    · rw [if_neg same, if_neg same]
  · rw [dif_neg fresh]
    have updated := db.schedulers.find_update (fun row => decide (row.id = incoming.id)) incoming.excluded (fun _ => rfl) id
    refine updated.trans ?_
    cases found : db.schedulers.find? id with
    | none =>
        have different : incoming.id ≠ id := fun same => fresh (same ▸ found)
        rw [if_neg different]
        rfl
    | some row =>
        have rowId := db.schedulers.find_key id row found
        by_cases same : incoming.id = id
        · rw [if_pos same, Option.map_some, if_pos (decide_eq_true (rowId.trans same.symm))]
          rfl
        · rw [if_neg same, Option.map_some, if_neg (by simpa [rowId] using Ne.symm same)]

def newTask (task : TaskDispatch) (status : TaskStatus) (occurrence : Option Occurrence) (now : Int) : TaskRow where
  status := status
  result := none
  error := none
  cancelRequested := false
  startedAt := none
  finishedAt := none
  updatedAt := now
  task := task
  createdAt := now
  occurrence := occurrence

inductive Statement where
  -- createTask: INSERT … WHERE the id and the optional key are free.
  | insertTask (task : TaskDispatch) (status : TaskStatus) (occurrence : Option Occurrence) (now : Int)
  | insertIdempotency (key taskId : String) (now : Int)
  -- claimAndEnqueue: INSERT … WHERE queue or no active task, ON CONFLICT(id) DO NOTHING.
  | insertOccurrence (task : TaskDispatch) (occurrence : Occurrence) (concurrency : Concurrency) (now : Int)
  | claimScheduler (advanced : Option String) (claimedAt : String) (now : Int) (id : String) (revision : Int)
      (scheduledForRaw : String)
  | upsertScheduler (id cron timezone : String) (enabled : Bool) (task : CreateTaskInput) (next : Option String)
      (revision : Int) (policy : Json) (now : Int)
  | deleteScheduler (id : String)
  | failInterrupted (id : String) (now : Int)
  | setCancelRequested (id : String) (now : Int)
  | writeTask (id : String) (status : TaskStatus) (result : Option Json) (error : Option TaskError)
      (startedAt finishedAt : Option Int) (now : Int)
  | insertLog (taskId : String) (sequence : Nat) (stream : LogStream) (data : String)

def agentRestarted : TaskError := ⟨"agent_restarted", "Agent restarted while task was running; not re-executed."⟩

-- sqlite3_changes and the database after one statement.
def Statement.exec (db : Database) : Statement → Except StoreError (Nat × Database)
  | .insertTask task status occurrence now =>
      let keyFree := task.idempotency_key.all fun key => (db.idempotency.find? key).isNone
      if (db.tasks.find? task.task_id).isNone && keyFree then db.insertTask (newTask task status occurrence now)
      else .ok (0, db)
  | .insertIdempotency key taskId now =>
      let mine := (db.tasks.find? taskId).any fun row => row.createdAt = now
      if mine && (db.idempotency.find? key).isNone then db.insertIdempotency ⟨key, taskId, now⟩ else .ok (0, db)
  | .insertOccurrence task occurrence concurrency now =>
      if concurrency == .queue || !db.tasks.rows.any (TaskRow.active occurrence.scheduleId) then
        if (db.tasks.find? task.task_id).isSome then .ok (0, db)
        else db.insertTask (newTask task .queued (some occurrence) now)
      else .ok (0, db)
  | .claimScheduler advanced claimedAt now id revision scheduledForRaw =>
      .ok (db.claimScheduler advanced claimedAt now id revision scheduledForRaw)
  | .upsertScheduler id cron timezone enabled task next revision policy now =>
      .ok (1, db.upsertScheduler ⟨id, cron, timezone, enabled, task, none, next, revision, none, some policy, now⟩)
  | .deleteScheduler id =>
      .ok (db.schedulers.rows.countP fun row => decide (row.id = id),
        { db with schedulers := db.schedulers.delete fun row => decide (row.id = id) })
  | .failInterrupted id now =>
      .ok (db.updateTasks (fun row => decide (row.id = id) && (row.status == .running || row.status == .starting)) fun row =>
        { row.toTaskState with
          status := .failed
          error := some agentRestarted
          finishedAt := row.finishedAt.or (some now)
          updatedAt := now
          cancelRequested := false })
  | .setCancelRequested id now =>
      .ok (db.updateTasks (fun row => decide (row.id = id)) fun row =>
        { row.toTaskState with cancelRequested := true, updatedAt := now })
  | .writeTask id status result error startedAt finishedAt now =>
      .ok (db.updateTasks (fun row => decide (row.id = id)) fun row =>
        { row.toTaskState with
          status := status
          result := result
          error := error
          startedAt := startedAt
          finishedAt := finishedAt
          updatedAt := now })
  | .insertLog taskId sequence stream data => db.insertLog ⟨taskId, sequence, stream, data⟩

inductive ExpectedChanges where
  | exactly (n : Nat)
  | atLeast (n : Nat)
  | atMost (n : Nat)
deriving DecidableEq, Repr

structure TransactionStep where
  statement : Statement
  expectedChanges : Option ExpectedChanges

def checkExpectedChanges (expected : Option ExpectedChanges) (changes : Nat) : Except StoreError Unit :=
  let reject (kind : String) (n : Nat) : Except StoreError Unit :=
    .error (.expectedChanges
      ("store.transaction: expectedChanges " ++ kind ++ " " ++ toString n ++ " but got " ++ toString changes))
  match expected with
  | none => .ok ()
  | some (.exactly n) => if changes ≠ n then reject "exactly" n else .ok ()
  | some (.atLeast n) => if changes < n then reject "atLeast" n else .ok ()
  | some (.atMost n) => if n < changes then reject "atMost" n else .ok ()

def runSteps (db : Database) : List TransactionStep → Except StoreError (List Nat × Database)
  | [] => .ok ([], db)
  | step :: rest =>
      match step.statement.exec db with
      | .error error => .error error
      | .ok (changes, after) =>
          match checkExpectedChanges step.expectedChanges changes with
          | .error error => .error error
          | .ok () => (runSteps after rest).map fun (later, final) => (changes :: later, final)

-- Store::transaction: all steps or none, an error rolls back.
def Database.transaction (db : Database) (steps : List TransactionStep) : Except StoreError (List Nat) × Database :=
  match runSteps db steps with
  | .ok (results, after) => (.ok results, after)
  | .error error => (.error error, db)

def Database.run (db : Database) (statement : Statement) : Except StoreError Nat × Database :=
  match statement.exec db with
  | .ok (changes, after) => (.ok changes, after)
  | .error error => (.error error, db)

end Vacps
