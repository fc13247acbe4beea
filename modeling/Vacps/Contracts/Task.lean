import Vacps.Contracts.Json

/- contracts/task.ts and task-status.ts: what the two services read of a task. -/
set_option autoImplicit false

namespace Vacps

-- `starting` is no contract status; the agent's SQL still asks for it.
inductive TaskStatus where
  | created
  | dispatching
  | queued
  | running
  | waiting_for_approval
  | succeeded
  | failed
  | cancelled
  | timed_out
  | dispatch_failed
  | starting
deriving DecidableEq, Repr

def TERMINAL_TASK_STATUSES : List TaskStatus := [.succeeded, .failed, .cancelled, .timed_out, .dispatch_failed]

def isTerminalTaskStatus (status : TaskStatus) : Bool := TERMINAL_TASK_STATUSES.contains status

inductive TaskKind where
  | command (program : String) (arguments : List String)
  | shell (command shell : String) (load_user_environment : Bool)
  | agent (prompt : String)
deriving DecidableEq, Repr

inductive TaskSource where
  | mcp
  | web
  | schedule
  | api
deriving DecidableEq, Repr

inductive TaskVerify where
  | none
  | exit_code
  | command (command : String)
deriving DecidableEq, Repr

structure TaskRetry where
  attempts : Int
  backoff_seconds : Int
deriving DecidableEq, Repr

structure TaskOutputOptions where
  capture_stdout : Bool
  capture_stderr : Bool
  retention_seconds : Int := 86400
  hard_max_bytes : Int
deriving DecidableEq, Repr

structure CreateTaskInput where
  backend_id : String
  kind : TaskKind
  profile : String
  timeout_seconds : Int
  verify : Option TaskVerify
  retry : Option TaskRetry
  labels : Option (List (String × String)) := none
  environment : Option (List (String × String))
  idempotency_key : Option String
  output : TaskOutputOptions
deriving DecidableEq, Repr

structure TaskDispatch extends CreateTaskInput where
  task_id : String
  source : Option TaskSource
  schedule_id : Option String
deriving DecidableEq, Repr

structure TaskError where
  code : String
  message : String
deriving DecidableEq, Repr

end Vacps
