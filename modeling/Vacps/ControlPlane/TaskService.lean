import Vacps.ControlPlane.TaskTables
import Vacps.Library.Aims

/- control-worker/src/tasks/task-service.ts: what creates, refreshes, cancels, retries, deletes, protects and
   cleans up the task rows of D1. -/
set_option autoImplicit false

namespace Vacps.Tasks

open Library

structure CleanupFilters where
  backendId : Option String
  scheduleId : Option String
  status : Option String
  source : Option String
  environment : Option String
  labels : Option Labels
  createdBefore : Option String
  createdAfter : Option String
  terminalBefore : Option String
  expiresBefore : Option String
  expiredOnly : Bool
  testOnly : Bool
  includeDeleted : Bool
  deletedBefore : Option String

-- The values the service hashes with stableStringify and SHA-256.
inductive Hashed where
  | create (input : CreateTaskInput)
  | cancel (task_id : String)
  | retry (task_id : String)
  | delete (task_id : String) (mode : DeleteMode) (reason : String)
  | cleanup (filters : CleanupFilters) (mode : DeleteMode) (reason : String) (expectedMatchedCount : Option Nat) (limit : Nat)

abbrev Service (α : Type) : Type := Async TaskOp TaskOp.Result Thrown α

def call (op : TaskOp) : Service op.Result := Async.perform op

def taskNotFound (id : String) : Thrown := appError "task_not_found" ("Task '" ++ id ++ "' was not found.") 404 []

def getBackend (id : String) : Service Bool := do
  match ← call (.selectBackend id) with
  | none => .fail (appError "backend_not_found" ("Backend '" ++ id ++ "' was not found.") 404 [])
  | some enabled => pure enabled

def get (id : String) (includeDeleted : Bool) : Service TaskIndex := do
  match ← call (.selectTask id) with
  | none => .fail (taskNotFound id)
  | some row => if row.deleted_at.isSome && !includeDeleted then .fail (taskNotFound id) else pure (toTaskIndex row)

section idempotency

variable (platform : Platform) (hashOpaque : Hashed → String)

structure Idempotency where
  key : String
  replayed : Bool
  request_hash : String

def idempotencyConflict (details : List (String × Json)) : Thrown :=
  appError "idempotency_conflict" "The idempotency key was previously used with different arguments." 409 details

-- How cancel, retry, delete and cleanupRun use operation_idempotency.
def replaying (scope : Scope) (idempotencyKey : Option String) (requestHash : String) (body : Service scope.Body) :
    Service (scope.Body × Option Idempotency) :=
  match truthy idempotencyKey with
  | none => do
      let result ← body
      pure (result, none)
  | some key => do
      match ← call (.loadOpIdempotency scope key) with
      | some cached =>
          if cached.request_hash ≠ requestHash then .fail (idempotencyConflict [])
          else pure (cached.result, some ⟨key, true, requestHash⟩)
      | none =>
          let result ← body
          call (.storeOpIdempotency scope ⟨key, requestHash, result⟩)
          pure (result, some ⟨key, false, requestHash⟩)

theorem replaying_careful {Target : Type} {effect : TaskOp → Target → Prop} {observes : TaskOp → Prop}
    {granted : TaskOp → TasksState → Target → Prop} {allowed : TaskOp → Prop} (scope : Scope) (key : Option String)
    (requestHash : String) (body : Service scope.Body)
    (loads : ∀ key, allowed (.loadOpIdempotency scope key) ∧ ∀ target, ¬ effect (.loadOpIdempotency scope key) target)
    (stores : ∀ replay, allowed (.storeOpIdempotency scope replay) ∧ ∀ target, ¬ effect (.storeOpIdempotency scope replay) target)
    (careful : Careful effect observes TaskOp.exec granted allowed body) :
    Careful effect observes TaskOp.exec granted allowed (replaying scope key requestHash body) := by
  simp only [replaying]
  split
  · exact careful_bind _ _ careful fun _ => harmless_careful _ trivial
  · refine careful_bind _ _ (harmless_careful _ (uses_perform _ _ (loads _))) fun cached => ?_
    cases cached with
    | some cached =>
        dsimp only
        split <;> exact harmless_careful _ trivial
    | none =>
        refine careful_bind _ _ careful fun result => ?_
        exact careful_bind _ _ (harmless_careful _ (uses_perform _ _ (stores _))) fun _ => harmless_careful _ trivial

-- The task a create-idempotency entry stands for when its row is gone.
def tombstoneIndex (tomb : Tombstone) (taskId : String) (deletedAt : Option String) : TaskIndex where
  id := taskId
  backendId := tomb.backend_id
  kind := "command"
  source := .mcp
  status := tomb.original_status.getD .succeeded
  scheduleId := none
  idempotencyKey := some tomb.idempotency_key
  requestHash := truthy (some tomb.request_hash)
  retryOfTaskId := none
  createdAt := tomb.original_created_at.getD tomb.created_at
  updatedAt := tomb.created_at
  finishedAt := none
  terminalAt := none
  expiresAt := none
  outputExpiresAt := none
  labels := none
  environment := none
  retentionClass := none
  deletedAt := deletedAt
  deletedBy := none
  deletionReason := none
  cleanupState := none
  pinned := none
  pinnedAt := none
  pinnedBy := none
  legalHold := none
  legalHoldReason := none
  legalHoldAt := none
  legalHoldBy := none
  resourceDeleted := some true

def findByIdempotency (backendId idempotencyKey : String) : Service (Option TaskIndex) := do
  let now ← call .readClock
  let found ← (call (.selectTombstone backendId idempotencyKey (toISOString now))).attempt
  let tomb := match found with
    | .ok tomb => tomb.bind fun tomb => (truthy tomb.task_id).map fun taskId => (tomb, taskId)
    | .error _ => none
  match tomb with
  | some (tomb, taskId) =>
      if tomb.task_deleted then pure (some (tombstoneIndex tomb taskId (some tomb.created_at)))
      else
        match ← call (.selectTask taskId) with
        | some live => pure (some (toTaskIndex live))
        | none => pure (some (tombstoneIndex tomb taskId none))
  | none =>
      let row ← call (.selectTaskByIdempotency backendId idempotencyKey)
      pure (row.map toTaskIndex)

def upsertCreateIdempotency (backendId idempotencyKey requestHash taskId : String) (taskDeleted : Bool)
    (originalStatus : TaskStatus) (originalCreatedAt : String) (labels : Labels) (environment : Option String) (now : Int) :
    Service Unit :=
  call (.upsertTombstone
    { backend_id := backendId
      idempotency_key := idempotencyKey
      request_hash := requestHash
      task_id := some taskId
      task_deleted := taskDeleted
      original_status := some originalStatus
      original_created_at := some originalCreatedAt
      created_at := toISOString now
      expires_at := computeIdempotencyExpiresAt platform (toISOString now) labels environment now })

end idempotency

section status

variable (platform : Platform)

def finishStatement (row : Option TaskRow) (status : TaskStatus) (now : Int) : TaskStatement :=
  let labels := parseLabelsJson (row.bind (·.labels_json))
  let environment := (row.bind (·.environment)).or (environmentFromLabels labels)
  let retentionClass := retentionClassFor status labels environment
  let terminalAt := (row.bind (·.terminal_at)).getD (toISOString now)
  .finish status (toISOString now) terminalAt (computeExpiresAt platform terminalAt retentionClass status now)
    (computeOutputExpiresAt platform terminalAt (row.bind (·.output_retention_seconds)) now) retentionClass

def setStatus (id : String) (status : TaskStatus) : Service Unit := do
  let now ← call .readClock
  if !isTerminalTaskStatus status then call (.updateTask (.setStatus status (toISOString now)) id)
  else
    let row ← call (.selectRetention id)
    call (.updateTask (finishStatement platform row status now) id)

end status

section create

variable (platform : Platform) (hashOpaque : Hashed → String)

def kindText : TaskKind → String
  | .command _ _ => "command"
  | .shell _ _ _ => "shell"
  | .agent _ => "agent"

def capabilityUnavailable : Thrown :=
  appError "capability_unavailable" "Agent runtime (Pi) is not available on this backend." 409
    [("capability", .str "agent"), ("pi", .obj [("available", .bool false)])]

def preflight (backendId : String) : Service Unit := do
  let checked ← (do
    let available ← call (.getCapabilities backendId)
    if available = some false then .fail capabilityUnavailable else pure () : Service Unit).attempt
  match checked with
  | .error (.app error) => if error.code = "capability_unavailable" then .fail (.app error) else pure ()
  | _ => pure ()

def isCapability : Thrown → Bool
  | .app error =>
      error.code == "capability_unavailable" ||
        (error.details.lookup "backend_code").any fun code => code.asString == some "capability_unavailable"
  | .d1 _ => false

def withTaskId (taskId : String) : Thrown → Thrown
  | .app error => .app { error with details := error.details ++ [("task_id", .str taskId)] }
  | .d1 message => .d1 message

structure Created where
  task : TaskIndex
  reusedExistingTask : Option Bool

-- A task found under the key is answered with, unless it came with other arguments.
def reuse (existing : TaskIndex) (requestHash : String) : Service Created :=
  match existing.requestHash with
  | some hash =>
      if hash ≠ requestHash then
        .fail (idempotencyConflict [("expected_request_hash", .str hash), ("actual_request_hash", .str requestHash)])
      else pure ⟨existing, some true⟩
  | none => pure ⟨{ existing with requestHash := some requestHash }, some true⟩

def createdRow (input : CreateTaskInput) (source : TaskSource) (scheduleId : Option String) (requestHash taskId : String)
    (now : Int) : TaskRow :=
  let labels := input.labels.getD []
  let environment := environmentFromLabels labels
  { id := taskId
    backend_id := input.backend_id
    type := if kindText input.kind = "agent" then "agent" else "shell"
    kind := some (kindText input.kind)
    source := source
    status := .created
    schedule_id := scheduleId
    idempotency_key := input.idempotency_key
    request_hash := some requestHash
    retry_of_task_id := none
    created_at := toISOString now
    updated_at := toISOString now
    finished_at := none
    terminal_at := none
    expires_at := none
    labels_json := if labels = [] then none else some (.obj (labels.map fun (key, value) => (key, .str value)))
    environment := environment
    retention_class := if isTestTask labels environment then some .test else none
    deleted_at := none
    deleted_by := none
    deletion_reason := none
    cleanup_state := .none
    legal_hold := false
    pinned_at := none
    pinned_by := none
    legal_hold_reason := none
    legal_hold_at := none
    legal_hold_by := none
    output_expires_at := none
    output_retention_seconds := some input.output.retention_seconds }

def insertIndex (input : CreateTaskInput) (row : TaskRow) (requestHash : String) (now : Int) : Service Unit := do
  call (.insertTask row)
  match truthy input.idempotency_key with
  | some key =>
      upsertCreateIdempotency platform input.backend_id key requestHash row.id false .created (toISOString now)
        (input.labels.getD []) row.environment now
  | none => pure ()

def dispatch (input : CreateTaskInput) (source : TaskSource) (scheduleId : Option String) (taskId requestHash : String) :
    Service Created := do
  setStatus platform taskId .dispatching
  let dispatched ← (do
    call (.createTask input.backend_id { input with task_id := taskId, source := some source, schedule_id := scheduleId })
    setStatus platform taskId .queued : Service Unit).attempt
  match dispatched with
  | .ok _ =>
      let created ← get taskId false
      pure ⟨{ created with requestHash := some requestHash }, none⟩
  | .error error =>
      if isCapability error then
        call (.deleteTask taskId)
        match truthy input.idempotency_key with
        | some key =>
            let _ ← (call (.deleteTombstone input.backend_id key)).attempt
            .fail error
        | none => .fail error
      else
        setStatus platform taskId .dispatch_failed
        .fail (withTaskId taskId error)

def findExisting (input : CreateTaskInput) : Service (Option TaskIndex) :=
  match truthy input.idempotency_key with
  | some key => findByIdempotency input.backend_id key
  | none => pure none

-- The part of create that no task under the key has ended.
def file (input : CreateTaskInput) (source : TaskSource) (scheduleId : Option String) (requestHash taskId : String) (now : Int) :
    Service Created := do
  let inserted ←
    (insertIndex platform input (createdRow input source scheduleId requestHash taskId now) requestHash now).attempt
  match inserted with
  | .ok _ => dispatch platform input source scheduleId taskId requestHash
  | .error error =>
      let raced ← findExisting input
      match raced with
      | some raced => reuse raced requestHash
      | none => .fail (appError "internal_error" ("Could not create task index. " ++ error.message) 500 [])

def create (input : CreateTaskInput) (source : TaskSource) (scheduleId : Option String) : Service Created := do
  let enabled ← getBackend input.backend_id
  if !enabled then .fail (appError "backend_disabled" ("Backend '" ++ input.backend_id ++ "' is disabled.") 409 [])
  else
    if kindText input.kind = "agent" then preflight input.backend_id
    let requestHash := hashOpaque (.create { input with idempotency_key := none })
    let existing ← findExisting input
    match existing with
    | some existing => reuse existing requestHash
    | none =>
        let taskId ← call .randomUUID
        let now ← call .readClock
        file platform input source scheduleId requestHash taskId now

end create

section refresh

variable (platform : Platform) (hashOpaque : Hashed → String)

-- Commands, result and output are not kept in D1 and left out.
structure Detail where
  task : TaskIndex
  unavailable : Option String

def detail (id : String) : Service Detail := do
  let task ← get id false
  let _ ← getBackend task.backendId
  let refreshed ← (do
    let remoteStatus ← call (.getTask task.backendId id)
    match remoteStatus with
    | some status => if status ≠ task.status then setStatus platform id status
    | none => pure ()
    get id false : Service TaskIndex).attempt
  match refreshed with
  | .ok task => pure ⟨task, none⟩
  | .error error => pure ⟨task, some error.message⟩

def cancelBody (id : String) : Service CancelBody := do
  let task ← get id false
  if task.status = .cancelled then pure ⟨task, none, some true, true⟩
  else if isTerminalTaskStatus task.status then pure ⟨task, none, some true, false⟩
  else
    let _ ← getBackend task.backendId
    let result ← call (.cancelTask task.backendId id)
    if result.cancelled ≠ some false then setStatus platform id .cancelled
    let refreshed ← get id false
    pure ⟨refreshed, some result, none, result.cancelled != some false⟩

def cancel (id : String) (idempotencyKey : Option String) : Service (CancelBody × Option Idempotency) :=
  replaying .cancel idempotencyKey (hashOpaque (.cancel id)) (cancelBody platform id)

def retriedRow (original : TaskIndex) (taskId : String) (now : Int) : TaskRow where
  id := taskId
  backend_id := original.backendId
  type := if original.kind = "agent" then "agent" else "shell"
  kind := some original.kind
  source := .mcp
  status := .queued
  schedule_id := original.scheduleId
  idempotency_key := none
  request_hash := none
  retry_of_task_id := some original.id
  created_at := toISOString now
  updated_at := toISOString now
  finished_at := none
  terminal_at := none
  expires_at := none
  labels_json := (original.labels.filter (· ≠ [])).map fun labels => .obj (labels.map fun (key, value) => (key, .str value))
  environment := original.environment
  retention_class := if original.retentionClass = some .test then some .test else none
  deleted_at := none
  deleted_by := none
  deletion_reason := none
  cleanup_state := .none
  legal_hold := false
  pinned_at := none
  pinned_by := none
  legal_hold_reason := none
  legal_hold_at := none
  legal_hold_by := none
  output_expires_at := none
  output_retention_seconds := none

def retryBody (id : String) : Service RetryBody := do
  let original ← get id false
  let _ ← getBackend original.backendId
  let result ← call (.retryTask original.backendId id)
  match result.task_id.filter (· ≠ id) with
  | some taskId =>
      let now ← call .readClock
      let _ ← (call (.insertTaskOrIgnore (retriedRow original taskId now))).attempt
      let task ← (get taskId false).attempt
      match task with
      | .ok task => pure ⟨task, result, id⟩
      | .error _ => pure ⟨{ original with id := taskId, status := .queued, retryOfTaskId := some id }, result, id⟩
  | none =>
      setStatus platform id .queued
      let task ← get id false
      pure ⟨task, result, id⟩

def retry (id : String) (idempotencyKey : Option String) : Service (RetryBody × Option Idempotency) :=
  replaying .retry idempotencyKey (hashOpaque (.retry id)) (retryBody platform id)

end refresh

section deletion

variable (platform : Platform) (hashOpaque : Hashed → String)

-- options.x?.trim() || fallback
def trimmedOr (text : Option String) (fallback : String) : String := (truthy (text.map trim)).getD fallback

def hardDeleteTaskRow (row : TaskRow) : Service Unit := do
  match truthy row.idempotency_key with
  | some key =>
      let labels := parseLabelsJson row.labels_json
      let environment := row.environment.or (environmentFromLabels labels)
      let now ← call .readClock
      upsertCreateIdempotency platform row.backend_id key (row.request_hash.getD "") row.id true row.status row.created_at
        labels environment now
  | none => pure ()
  call (.deleteTask row.id)

def taskNotTerminal (row : TaskRow) : Thrown :=
  appError "task_not_terminal"
    ("Task '" ++ row.id ++ "' is still active (" ++ statusText row.status ++ "); cancel it before delete.") 409
    [("task_id", .str row.id), ("status", .str (statusText row.status))]

def taskLegalHold (row : TaskRow) : Thrown :=
  appError "task_legal_hold" ("Task '" ++ row.id ++ "' is protected (legal_hold or pinned) and cannot be deleted.") 403
    [("task_id", .str row.id), ("legal_hold", .bool row.legal_hold), ("pinned", .bool row.pinned_at.isSome)]

def deleteBody (id : String) (mode : DeleteMode) (reason deletedBy : String) : Service DeleteBody := do
  match ← call (.selectTask id) with
  | none => .fail (taskNotFound id)
  | some row =>
      if row.deleted_at.isSome && decide (mode = .soft) then pure ⟨id, false, true, .soft, some (toTaskIndex row)⟩
      else if !isTerminalTaskStatus row.status && row.deleted_at.isNone then .fail (taskNotTerminal row)
      else if row.isProtected then .fail (taskLegalHold row)
      else
        match mode with
        | .hard =>
            hardDeleteTaskRow platform row
            pure ⟨id, true, false, .hard, none⟩
        | .soft =>
            let now ← call .readClock
            call (.updateTask (.softDelete now deletedBy reason .live) id)
            let refreshed ← call (.selectTask id)
            pure ⟨id, true, false, .soft, refreshed.map toTaskIndex⟩

def delete (id : String) (mode : Option DeleteMode) (reason deletedBy idempotencyKey : Option String) :
    Service (DeleteBody × Option Idempotency) :=
  let mode := mode.getD .soft
  let reason := trimmedOr reason "manual_cleanup"
  replaying .delete idempotencyKey (hashOpaque (.delete id mode reason))
    (deleteBody platform id mode reason (trimmedOr deletedBy "mcp"))

end deletion

section protection

variable (platform : Platform)

structure Protection where
  task : TaskIndex
  held : Bool
  already : Bool

def pin (id : String) (pinnedBy : Option String) : Service Protection := do
  match ← call (.selectTask id) with
  | none => .fail (taskNotFound id)
  | some row =>
      if row.pinned_at.isSome then pure ⟨toTaskIndex row, true, true⟩
      else
        let now ← call .readClock
        call (.updateTask (.pin now (trimmedOr pinnedBy "mcp")) id)
        let task ← get id true
        pure ⟨task, true, false⟩

def unpin (id : String) : Service Protection := do
  match ← call (.selectTask id) with
  | none => .fail (taskNotFound id)
  | some row =>
      if row.pinned_at.isNone then pure ⟨toTaskIndex row, false, true⟩
      else
        let now ← call .readClock
        let labels := parseLabelsJson row.labels_json
        let environment := row.environment.or (environmentFromLabels labels)
        let expiresAt := match truthy row.terminal_at with
          | some terminalAt =>
              if isTerminalTaskStatus row.status then
                some (computeExpiresAt platform terminalAt (retentionClassFor row.status labels environment) row.status now)
              else row.expires_at
          | none => row.expires_at
        call (.updateTask (.unpin expiresAt (toISOString now)) id)
        let task ← get id true
        pure ⟨task, false, false⟩

def setLegalHold (id : String) (reason heldBy : Option String) : Service Protection := do
  match ← call (.selectTask id) with
  | none => .fail (taskNotFound id)
  | some row =>
      if row.legal_hold then pure ⟨toTaskIndex row, true, true⟩
      else
        let now ← call .readClock
        call (.updateTask (.hold (trimmedOr reason "legal_hold") (toISOString now) (trimmedOr heldBy "mcp")) id)
        let task ← get id true
        pure ⟨task, true, false⟩

def clearLegalHold (id : String) : Service Protection := do
  match ← call (.selectTask id) with
  | none => .fail (taskNotFound id)
  | some row =>
      if !row.legal_hold then pure ⟨toTaskIndex row, false, true⟩
      else
        let now ← call .readClock
        call (.updateTask (.clearHold (toISOString now)) id)
        let task ← get id true
        pure ⟨task, false, false⟩

end protection

section cleanup

variable (platform : Platform) (hashOpaque : Hashed → String)

def sourceText : TaskSource → String
  | .mcp => "mcp"
  | .web => "web"
  | .schedule => "schedule"
  | .api => "api"

def equals (column : TaskRow → Option String) (value : String) : Clause := fun row => .ok (decide (column row = some value))

def atMost (column : TaskRow → Option String) (bound : String) : Clause := fun row =>
  .ok ((column row).any fun value => decide (value ≤ bound))

def atLeast (column : TaskRow → Option String) (bound : String) : Clause := fun row =>
  .ok ((column row).any fun value => decide (bound ≤ value))

-- key.replace(/[^A-Za-z0-9_]/g, '')
def labelPath (key : String) : String := String.ofList (key.toList.filter fun char => char.isAlphanum || char == '_')

-- json_extract(labels_json, ?) = ?: NULL for a row without labels, an error on the path '$.'.
def hasLabel (key value : String) : Clause := fun row =>
  match row.labels_json with
  | none => .ok false
  | some labels =>
      if labelPath key = "" then .error "bad JSON path" else .ok ((labels.member (labelPath key)).bind Json.asString == some value)

def isTerminal : Clause := fun row => .ok (isTerminalTaskStatus row.status)

def isLive : Clause := fun row => .ok row.deleted_at.isNone

def isUnprotected : Clause := fun row => .ok (!row.legal_hold && row.pinned_at.isNone)

def clausesOf (filters : CleanupFilters) (skipProtected : Bool) (expiredAt : Option String) : List Clause :=
  ((truthy filters.backendId).map (equals fun row => some row.backend_id)).toList ++
    ((truthy filters.scheduleId).map (equals (·.schedule_id))).toList ++
    ((truthy filters.status).map (equals fun row => some (statusText row.status))).toList ++
    ((truthy filters.source).map (equals fun row => some (sourceText row.source))).toList ++
    ((truthy filters.environment).map (equals (·.environment))).toList ++
    ((truthy filters.createdAfter).map (atLeast fun row => some row.created_at)).toList ++
    ((truthy filters.createdBefore).map (atMost fun row => some row.created_at)).toList ++
    ((truthy filters.terminalBefore).map (atMost (·.terminal_at))).toList ++
    ((truthy filters.expiresBefore).map (atMost (·.expires_at))).toList ++
    (expiredAt.map (atMost (·.expires_at))).toList ++
    (if filters.testOnly then
      [fun row => .ok (decide (row.environment = some "test" ∨ row.retention_class = some .test))] else []) ++
    (if skipProtected then [isUnprotected] else []) ++
    ((truthy filters.deletedBefore).map (atMost fun row => row.deleted_at.map (·.val))).toList ++
    (filters.labels.getD []).map fun (key, value) => hasLabel key value

def buildCleanupClauses (filters : CleanupFilters) (skipProtected : Bool) : Service (List Clause) :=
  if filters.expiredOnly then do
    let now ← call .readClock
    pure (clausesOf filters skipProtected (some (toISOString now)))
  else pure (clausesOf filters skipProtected none)

structure CleanupPreview where
  matched_count : Nat
  deletable_count : Nat
  protected_count : Nat
  status_breakdown : List (TaskStatus × Nat)
  sample_task_ids : List String
  sample_protected_ids : List String
  filters : CleanupFilters

-- Math.min(Math.max(limit ?? fallback, 1), CLEANUP_MAX_PER_RUN)
def scanLimit (limit : Option Int) (fallback : Nat) : Nat := min (max (limit.getD fallback) 1).toNat CLEANUP_MAX_PER_RUN

-- The rows of each status, in the order the statuses come up.
def statusBreakdown (rows : List TaskRow) : List (TaskStatus × Nat) :=
  (rows.map (·.status)).eraseDups.map fun status => (status, rows.countP fun row => decide (row.status = status))

def cleanupPreview (filters : CleanupFilters) (limit sampleLimit : Option Int) : Service CleanupPreview := do
  let samples := min (max (sampleLimit.getD 20) 0).toNat 100
  let clauses ← buildCleanupClauses filters false
  let rows ← call (.selectTasks
    { clauses := clauses ++ [isTerminal] ++ (if filters.includeDeleted then [] else [isLive])
      order := (·.created_at)
      descending := true
      limit := scanLimit limit CLEANUP_MAX_PER_RUN })
  let protectedIds := (rows.filter (·.isProtected)).map (·.id)
  let deletable := (rows.filter (!·.isProtected)).map (·.id)
  pure
    { matched_count := rows.length
      deletable_count := deletable.length
      protected_count := protectedIds.length
      status_breakdown := statusBreakdown rows
      sample_task_ids := deletable.take samples
      sample_protected_ids := protectedIds.take samples
      filters := filters }

-- The ids whose deletion did not throw.
def deleteCandidates (mode : DeleteMode) (reason deletedBy : String) (now : Int) : List TaskRow → Service (List String)
  | [] => pure []
  | row :: rest => do
      let deleted ← (match mode with
        | .hard => hardDeleteTaskRow platform row
        | .soft => call (.updateTask (.softDelete now deletedBy reason .terminal) row.id) : Service Unit).attempt
      let later ← deleteCandidates mode reason deletedBy now rest
      match deleted with
      | .ok _ => pure (row.id :: later)
      | .error _ => pure later

def cleanupScopeChanged (expected actual : Nat) : Thrown :=
  appError "cleanup_scope_changed"
    ("Cleanup scope changed: expected " ++ toString expected ++ " deletable, found " ++ toString actual ++ ".") 409
    [("expected_matched_count", .num expected), ("actual_matched_count", .num actual),
      ("note", .str "expected_matched_count must equal cleanup.preview deletable_count (not matched_count).")]

def cleanupBody (filters : CleanupFilters) (mode : DeleteMode) (reason deletedBy : String) (expectedMatchedCount : Option Nat)
    (batchLimit : Nat) : Service CleanupBody := do
  let clauses ← buildCleanupClauses filters true
  let candidates ← call (.selectTasks
    { clauses := clauses ++ [isTerminal] ++ (if decide (mode = .soft) || !filters.includeDeleted then [isLive] else [])
      order := (·.created_at)
      descending := false
      limit := batchLimit })
  match expectedMatchedCount.filter fun expected => !scopeCountAcceptable expected candidates.length with
  | some expected => .fail (cleanupScopeChanged expected candidates.length)
  | none =>
      let now ← call .readClock
      let deleted ← deleteCandidates platform mode reason deletedBy now candidates
      pure
        { matched_count := candidates.length
          deleted_count := deleted.length
          skipped_count := candidates.length - deleted.length
          mode := mode
          reason := reason
          sample_deleted_ids := deleted.take 20 }

def cleanupRun (filters : CleanupFilters) (mode : Option DeleteMode) (reason deletedBy : Option String)
    (expectedMatchedCount : Option Nat) (limit : Option Int) (idempotencyKey : Option String) :
    Service (CleanupBody × Option Idempotency) :=
  let mode := mode.getD .soft
  let reason := trimmedOr reason "bulk_cleanup"
  let batchLimit := scanLimit limit CLEANUP_BATCH_SIZE
  replaying .cleanup idempotencyKey (hashOpaque (.cleanup filters mode reason expectedMatchedCount batchLimit))
    (cleanupBody platform filters mode reason (trimmedOr deletedBy "mcp") expectedMatchedCount batchLimit)

end cleanup

section purge

variable (platform : Platform)

structure Purged where
  soft_deleted : Nat
  hard_deleted : Nat

-- How many of the rows it got rid of: a protected one is passed over, one that throws too.
def purgeEach (step : TaskRow → Service Unit) : List TaskRow → Service Nat
  | [] => pure 0
  | row :: rest =>
      if row.isProtected then purgeEach step rest
      else do
        let purged ← (step row).attempt
        let later ← purgeEach step rest
        match purged with
        | .ok _ => pure (later + 1)
        | .error _ => pure later

def purgeExpired : Service Purged := do
  let now ← call .readClock
  let graceCutoff := addHours platform (toISOString now) (-SOFT_DELETE_GRACE_HOURS) now
  let softCandidates ← call (.selectTasks
    { clauses := [isLive, fun row => .ok row.terminal_at.isSome, atMost (·.expires_at) (toISOString now), isTerminal, isUnprotected]
      order := fun row => row.expires_at.getD ""
      descending := false
      limit := CLEANUP_BATCH_SIZE })
  let soft_deleted ← purgeEach
    (fun row => call (.updateTask (.softDelete now "system" "retention_expired" .unprotected) row.id)) softCandidates
  let hardCandidates ← call (.selectTasks
    { clauses := [atMost (fun row => row.deleted_at.map (·.val)) graceCutoff, isUnprotected]
      order := fun row => (row.deleted_at.map (·.val)).getD ""
      descending := false
      limit := CLEANUP_BATCH_SIZE })
  let hard_deleted ← purgeEach (hardDeleteTaskRow platform) hardCandidates
  let _ ← (call (.deleteExpiredTombstones (toISOString now))).attempt
  pure ⟨soft_deleted, hard_deleted⟩

end purge

section concrete

-- A row of backend b, and a state with these rows and statuses on the agent.
def rowWith (id : String) (status : TaskStatus) : TaskRow where
  id := id
  backend_id := "b"
  type := "shell"
  kind := some "command"
  source := .mcp
  status := status
  schedule_id := none
  idempotency_key := none
  request_hash := none
  retry_of_task_id := none
  created_at := "1970-01-01T00:00:00.000Z"
  updated_at := "1970-01-01T00:00:00.000Z"
  finished_at := none
  terminal_at := none
  expires_at := none
  labels_json := none
  environment := none
  retention_class := none
  deleted_at := none
  deleted_by := none
  deletion_reason := none
  cleanup_state := .none
  legal_hold := false
  pinned_at := none
  pinned_by := none
  legal_hold_reason := none
  legal_hold_at := none
  legal_hold_by := none
  output_expires_at := none
  output_retention_seconds := none

def answering : Exchange := ⟨none, none, "new", none⟩

def oneTask (row : TaskRow) (remote : Option TaskStatus) : TasksState where
  backends := [("b", true)]
  tasks := ⟨[row], List.nodup_singleton _⟩
  tombstones := Table.empty
  replays := fun _ => Table.empty
  planner := stablePlanner
  remote := fun id => if id = row.id then remote else none
  exchanges := fun _ => answering
  requests := 0
  clock := fun n => n
  readings := 0
  uuids := fun _ => "uuid"
  drawn := 0

def unhashed : Hashed → String := fun _ => ""

end concrete

end Vacps.Tasks
