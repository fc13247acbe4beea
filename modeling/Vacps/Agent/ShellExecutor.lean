import Vacps.Agent.TaskStore

/- executor/shell-executor.ts. What the host answers while a task runs (path lookup, the Process
   calls) is an Execution; the map of live processes only serves kills and is left out. -/
set_option autoImplicit false

namespace Vacps.ShellExecutor

open Library TaskStore

structure ProcessResult where
  exitCode : Option Int
  timedOut : Bool
  stdout : String
  stderr : String
  stdoutBytes : Nat
  stderrBytes : Nat
  stdoutTruncated : Bool
  stderrTruncated : Bool

-- An error is the message of what was thrown.
structure Execution where
  resolveExecutable : Except String String
  construct : Except String Unit
  start : Except String Unit
  wait : Except String ProcessResult
  now : Int

structure StreamFacts where
  captureStdout : Bool
  captureStderr : Bool
  stdout : String
  stderr : String
  stdoutBytes : Nat
  stderrBytes : Nat
  stdoutTruncated : Bool
  stderrTruncated : Bool

def streamFacts (result : Option ProcessResult) (captureStdout captureStderr : Bool) : StreamFacts :=
  match result with
  | none => ⟨captureStdout, captureStderr, "", "", 0, 0, false, false⟩
  | some result =>
      { captureStdout := captureStdout
        captureStderr := captureStderr
        stdout := if captureStdout then result.stdout else ""
        stderr := if captureStderr then result.stderr else ""
        stdoutBytes := result.stdoutBytes
        stderrBytes := result.stderrBytes
        stdoutTruncated := result.stdoutTruncated
        stderrTruncated := result.stderrTruncated }

def processResult (exitCode : Option Int) (timedOut : Bool) (facts : StreamFacts) : Json :=
  .obj
    ([("exitCode", match exitCode with | some code => .num code | none => .null),
      ("timedOut", .bool timedOut),
      ("stdoutBytes", .num facts.stdoutBytes),
      ("stderrBytes", .num facts.stderrBytes),
      ("stdoutTruncated", .bool facts.stdoutTruncated),
      ("stderrTruncated", .bool facts.stderrTruncated)] ++
      (if facts.captureStdout then [("stdout", .str facts.stdout)] else []) ++
      (if facts.captureStderr then [("stderr", .str facts.stderr)] else []))

def isPlain (char : Char) : Bool := char.isAlphanum || "_./:=+-".toList.contains char

def shellQuote (text : String) : String :=
  if text ≠ "" ∧ text.toList.all isPlain then text
  else "'" ++ String.join (text.toList.map fun char => if char = '\'' then "'\\''" else char.toString) ++ "'"

def shellArgvFlags (shell : String) (loadUserEnvironment : Bool) : List String :=
  if shell = "/bin/sh" then ["-c"] else if loadUserEnvironment then ["-lc"] else ["--noprofile", "--norc", "-c"]

def argvOf (kind : TaskKind) (resolved : String) : List String :=
  match kind with
  | .command _ arguments => resolved :: arguments
  | .shell command shell load_user_environment => resolved :: shellArgvFlags shell load_user_environment ++ [command]
  | .agent _ => []

def recordExecFailure (id message : String) (now : Int) : Agent Unit := do
  appendLog id .system ("error: " ++ message)
  let current ← getTask id
  match current with
  | none => pure ()
  | some current =>
      if isTerminalTaskStatus current.status then pure ()
      else updateTask id { status := some .failed, error := some ⟨"exec_error", message⟩ } now

def appendStreams (id : String) (facts : StreamFacts) : Agent Unit := do
  if facts.captureStdout && facts.stdout ≠ "" then appendLog id .stdout facts.stdout
  if facts.captureStderr && facts.stderr ≠ "" then appendLog id .stderr facts.stderr

def cancelledDuring : TaskError := ⟨"cancelled", "Cancelled during execution."⟩

-- The process is gone and its output known: the last status is written.
def recordResult (task : TaskDispatch) (final : ProcessResult) (facts : StreamFacts) (now : Int) : Agent Unit :=
  if final.timedOut then
    updateTask task.task_id
      { status := some .timed_out
        error := some ⟨"timed_out", "Timeout after " ++ toString task.timeout_seconds ++ "s"⟩
        result := some (processResult final.exitCode true facts) } now
  else if final.exitCode = some 0 then
    updateTask task.task_id { status := some .succeeded, result := some (processResult (some 0) false facts) } now
  else
    let code := match final.exitCode with | some code => toString code | none => "null"
    updateTask task.task_id
      { status := some .failed
        error := some ⟨"exit_nonzero", "Process exited with code " ++ code⟩
        result := some (processResult final.exitCode false facts) } now

def recordCancelled (id : String) (result : Option ProcessResult) (facts : StreamFacts) (now : Int) : Agent Unit := do
  appendStreams id facts
  let exitCode := result.bind ProcessResult.exitCode
  let timedOut := result.any ProcessResult.timedOut
  updateTask id
    { status := some .cancelled, error := some cancelledDuring, result := some (processResult exitCode timedOut facts) } now

-- From the started process on: the source's try block.
def superviseProcess (task : TaskDispatch) (run : Execution) : Agent Unit := do
  let facts (result : Option ProcessResult) := streamFacts result task.output.capture_stdout task.output.capture_stderr
  if ← isCancelRequested task.task_id then
    let result := run.wait.toOption
    recordCancelled task.task_id result (facts result) run.now
  else
    match run.wait with
    | .error message => recordExecFailure task.task_id message run.now
    | .ok final =>
        if ← isCancelRequested task.task_id then
          recordCancelled task.task_id (some final) (facts (some final)) run.now
        else
          appendStreams task.task_id (facts (some final))
          recordResult task final (facts (some final)) run.now

def startAndSupervise (task : TaskDispatch) (run : Execution) : Agent Unit := do
  match run.construct with
  | .error message => recordExecFailure task.task_id message run.now
  | .ok () =>
      let _ ← call (.startProcess task.task_id)
      match run.start with
      | .error message => recordExecFailure task.task_id message run.now
      | .ok () => superviseProcess task run

def capabilityUnavailable : TaskError := ⟨"capability_unavailable", "Pi runtime is not available on this backend."⟩

def executeProcess (task : TaskDispatch) (run : Execution) : Agent Unit := do
  match run.resolveExecutable with
  | .error message => recordExecFailure task.task_id message run.now
  | .ok resolved =>
      appendLog task.task_id .system ("exec: " ++ String.intercalate " " ((argvOf task.kind resolved).map shellQuote))
      startAndSupervise task run

def execute (task : TaskDispatch) (run : Execution) : Agent Unit := do
  if ← isCancelRequested task.task_id then
    updateTask task.task_id { status := some .cancelled, error := some cancelledBeforeStart } run.now
  else
    match task.kind with
    | .agent _ =>
        updateTask task.task_id { status := some .failed, error := some capabilityUnavailable } run.now
        appendLog task.task_id .system "Pi runtime not available on native"
    | _ => executeProcess task run

end Vacps.ShellExecutor
