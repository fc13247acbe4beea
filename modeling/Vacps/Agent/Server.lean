import Vacps.Agent.TaskQueue

/- server/app.ts, POST /tasks. -/
set_option autoImplicit false

namespace Vacps.Server

open Library TaskStore TaskQueue

structure Refusal where
  status : Nat
  code : String
  message : String
deriving DecidableEq, Repr

structure DispatchReply where
  task_id : String
  status : TaskStatus
  backend_id : String
  kind : TaskKind
  deduped : Bool
  idempotency_key : Option String
deriving DecidableEq, Repr

-- accepted is the answer with status 202.
inductive TaskReply where
  | refused (refusal : Refusal)
  | accepted (reply : DispatchReply)
deriving DecidableEq, Repr

def NATIVE_STREAM_MAX_BYTES : Int := 67108864

def isAgent : TaskKind → Bool
  | .agent _ => true
  | _ => false

def loadsUserUnderSh : TaskKind → Bool
  | .shell _ shell load_user_environment => shell == "/bin/sh" && load_user_environment
  | _ => false

def nativeTaskCapabilityRejection (task : CreateTaskInput) : Option Refusal :=
  if isAgent task.kind then
    some ⟨409, "capability_unavailable", "Pi runtime is not available on this backend."⟩
  else if task.profile ≠ "full" then
    some ⟨409, "capability_unavailable", "Only profile \"full\" is supported on this backend."⟩
  else if task.environment.isSome then
    some ⟨409, "capability_unavailable", "Task environment injection is not supported on this backend."⟩
  else if task.retry.isSome then
    some ⟨409, "capability_unavailable",
      "Automatic retry policy is not supported on this backend; use the manual retry endpoint."⟩
  else if task.verify.any fun verify => match verify with | .command _ => true | _ => false then
    some ⟨409, "capability_unavailable", "Verify mode \"command\" is not supported on this backend."⟩
  else if NATIVE_STREAM_MAX_BYTES < task.output.hard_max_bytes then
    some ⟨400, "validation_error", "output.hard_max_bytes exceeds the native vacps:process 64 MiB per-stream maximum."⟩
  else if loadsUserUnderSh task.kind then
    some ⟨400, "validation_error",
      "load_user_environment=true is not supported with shell=/bin/sh; use /bin/bash or set load_user_environment=false."⟩
  else none

-- The checks before the queue is asked; an error of `parsed` is the message of the schema.
def admitTask (ready : Bool) (backendId : String) (parsed : Except String TaskDispatch) : Except Refusal TaskDispatch :=
  if !ready then .error ⟨503, "service_unavailable", "application not initialized"⟩
  else
    match parsed with
    | .error message => .error ⟨400, "invalid_task", message⟩
    | .ok task =>
        if task.backend_id ≠ backendId then .error ⟨409, "backend_mismatch", "Task targets another backend."⟩
        else
          match nativeTaskCapabilityRejection task.toCreateTaskInput with
          | some refusal => .error refusal
          | none => .ok task

def createReply (task : TaskDispatch) (now : Int) : Agent TaskReply := do
  let created ← enqueue task now
  let stored ← getTask task.task_id
  pure (.accepted
    { task_id := task.task_id
      status := (stored.map fun stored => stored.status).getD .queued
      backend_id := task.backend_id
      kind := task.kind
      deduped := !created
      idempotency_key := none })

def priorReply (prior : StoredTask) (key : String) : TaskReply :=
  .accepted
    { task_id := prior.task.task_id
      status := prior.status
      backend_id := prior.task.backend_id
      kind := prior.task.kind
      deduped := true
      idempotency_key := some key }

def dispatchTask (task : TaskDispatch) (now : Int) : Agent TaskReply :=
  match truthy task.idempotency_key with
  | none => createReply task now
  | some key => do
      let prior ← findByIdempotencyKey key
      match prior with
      | some prior => pure (priorReply prior key)
      | none => createReply task now

def postTasks (ready : Bool) (backendId : String) (parsed : Except String TaskDispatch) (now : Int) : Agent TaskReply :=
  match admitTask ready backendId parsed with
  | .error refusal => pure (.refused refusal)
  | .ok task => dispatchTask task now

end Vacps.Server
