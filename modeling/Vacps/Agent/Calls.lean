import Vacps.Agent.Server

/- The agent's calls that touch tasks, and what each of their programs asks of the database. -/
set_option autoImplicit false

namespace Vacps

open Library TaskStore ShellExecutor SchedulerStore TaskQueue

inductive AgentCall where
  -- Start-up: recovery first, and only then requests and loops.
  | boot (now : Int)
  | post (backendId : String) (parsed : Except String TaskDispatch) (now : Int)
  | runScheduleNow (scheduleId : String) (task : CreateTaskInput) (taskId : String) (now : Int)
  | upsertScheduler (platform : Platform) (input : SchedulerWire) (nowMs now : Int)
  | fireDueSchedulers (platform : Platform) (nowMs now : Int)
  | cancel (taskId : String) (flaggedAt finishedAt now : Int)
  | retry (taskId newId : String) (now : Int)
  | stop (flaggedAt finishedAt now : Int)
  | pumpOnce (run : PumpRun)

-- The part of Application's start-up that touches tasks.
def bootAgent (now : Int) : Agent Unit := do
  let _ ← recoverInterruptedOnBoot now
  let _ ← call .setReady
  pure ()

def AgentCall.body : AgentCall → Agent Unit
  | .boot now => bootAgent now
  | .post backendId parsed now => do
      let _ ← Server.postTasks true backendId parsed now
      pure ()
  | .runScheduleNow scheduleId task taskId now => do
      let _ ← TaskQueue.runScheduleNow scheduleId task taskId now
      pure ()
  | .upsertScheduler platform input nowMs now => TaskQueue.upsertScheduler platform input nowMs now
  | .fireDueSchedulers platform nowMs now => do
      let _ ← TaskQueue.fireDueSchedulers platform nowMs now
      pure ()
  | .cancel taskId flaggedAt finishedAt now => do
      let _ ← TaskQueue.cancel taskId flaggedAt finishedAt now
      pure ()
  | .retry taskId newId now => do
      let _ ← TaskQueue.retry taskId newId now
      pure ()
  | .stop flaggedAt finishedAt now => TaskQueue.stop flaggedAt finishedAt now
  | .pumpOnce run => do
      let _ ← TaskQueue.pumpOnce run
      pure ()

-- A statement that leaves the stored tasks as they are.
def Statement.addsOnly : Statement → Bool
  | .failInterrupted _ _ => false
  | .setCancelRequested _ _ => false
  | .writeTask _ _ _ _ _ _ _ => false
  | _ => true

-- A statement that stores an occurrence under its own id only.
def Statement.named : Statement → Bool
  | .insertTask _ _ occurrence _ => occurrence.isNone
  | .insertOccurrence task occurrence _ _ =>
      task.task_id == occurrenceId occurrence.scheduleId occurrence.scheduleRevision occurrence.scheduledForMs
  | _ => true

def Statement.adds (statement : Statement) : Bool := statement.addsOnly && statement.named

-- The calls that read no single task and leave all of them as they are.
def AgentOp.passive : AgentOp → Bool
  | .run statement => statement.adds
  | .transaction steps => steps.all fun step => step.statement.adds
  | .selectTask _ => false
  | .claimNextQueued _ => false
  | .beginPump => false
  | .endPump => false
  | .beginStop => false
  | .enterExecutor _ => false
  | .leaveExecutor _ => false
  | .startProcess _ => false
  | .setReady => false
  | _ => true

-- The passive calls and the read of one task.
def AgentOp.reading : AgentOp → Bool
  | .selectTask _ => true
  | op => op.passive

-- A statement that puts no stored task into the queue.
def Statement.leavesQueue : Statement → Bool
  | .writeTask _ status _ _ _ _ _ => status != .queued
  | _ => true

-- The calls outside the pump's own protocol.
def AgentOp.ordinary : AgentOp → Bool
  | .run statement => statement.leavesQueue && statement.named
  | .transaction steps => steps.all fun step => step.statement.adds
  | .claimNextQueued _ => false
  | .beginPump => false
  | .endPump => false
  | .enterExecutor _ => false
  | .leaveExecutor _ => false
  | _ => true

abbrev Passive {α : Type} (program : Agent α) : Prop := program.Uses fun op => op.passive = true

abbrev Reading {α : Type} (program : Agent α) : Prop := program.Uses fun op => op.reading = true

abbrev Ordinary {α : Type} (program : Agent α) : Prop := program.Uses fun op => op.ordinary = true

theorem adds_only_leaves (statement : Statement) (adds : statement.addsOnly = true) : statement.leavesQueue = true := by
  cases statement <;> first | rfl | cases adds

theorem passive_ordinary (op : AgentOp) (passive : op.passive = true) : op.ordinary = true := by
  cases op with
  | run statement =>
      obtain ⟨adds, named⟩ := Bool.and_eq_true_iff.mp passive
      exact Bool.and_eq_true_iff.mpr ⟨adds_only_leaves statement adds, named⟩
  | transaction steps => exact passive
  | _ => first | rfl | cases passive

theorem passive_reading (op : AgentOp) (passive : op.passive = true) : op.reading = true := by
  cases op with
  | selectTask id => rfl
  | _ => exact passive

theorem reading_ordinary (op : AgentOp) (reading : op.reading = true) : op.ordinary = true := by
  cases op with
  | selectTask id => rfl
  | _ => exact passive_ordinary _ reading

section passive

theorem passive_call (op : AgentOp) (passive : op.passive = true) : Passive (call op) := uses_perform _ op passive

theorem passive_bind {α β : Type} (program : Agent α) (continue_ : α → Agent β) (first : Passive program)
    (later : ∀ value, Passive (continue_ value)) : Passive (program >>= continue_) :=
  uses_bind _ program continue_ first later

theorem append_log_passive (id : String) (stream : LogStream) (data : String) : Passive (appendLog id stream data) :=
  passive_bind _ _ (passive_call _ rfl) fun _ => passive_bind _ _ (passive_call _ rfl) fun _ => trivial

theorem append_streams_passive (id : String) (facts : StreamFacts) : Passive (appendStreams id facts) := by
  have second : Passive (if facts.captureStderr && facts.stderr ≠ "" then appendLog id .stderr facts.stderr else pure ()) := by
    split
    · exact append_log_passive id _ _
    · exact trivial
  unfold appendStreams
  by_cases first : (facts.captureStdout && facts.stdout ≠ "") = true
  · simp only [first, if_true]
    exact passive_bind _ _ (append_log_passive id _ _) fun _ => second
  · simp only [first]
    exact second

theorem cancel_requested_passive (id : String) : Passive (isCancelRequested id) :=
  passive_bind _ _ (passive_call _ rfl) fun _ => trivial

theorem create_task_passive (task : TaskDispatch) (status : TaskStatus) (now : Int) :
    Passive (createTask task status none now) := by
  refine passive_bind _ _ (passive_call _ ?_) fun _ => trivial
  simp only [AgentOp.passive, createTaskSteps]
  split <;> rfl

theorem claim_passive (platform : Platform) (schedule : StoredScheduler) (nowMs now : Int) :
    Passive (claimAndEnqueue platform schedule nowMs now) := by
  unfold claimAndEnqueue
  split
  · exact trivial
  · split
    · exact trivial
    · split
      · exact trivial
      · refine passive_bind _ _ (passive_call _ ?_) fun _ => trivial
        simp [AgentOp.passive, claimSteps, claimStatement, slotStatement, slotDispatch, plannedSlots, Statement.adds,
          Statement.addsOnly, Statement.named]

theorem fire_each_passive (platform : Platform) (nowMs now : Int) (due : List StoredScheduler) :
    Passive (fireEach platform nowMs now due) := by
  induction due with
  | nil => exact trivial
  | cons current rest ih =>
      refine passive_bind _ _ (claim_passive platform current nowMs now) fun result => passive_bind _ _ ih fun later => ?_
      split <;> exact trivial

theorem fire_passive (platform : Platform) (nowMs now : Int) : Passive (TaskQueue.fireDueSchedulers platform nowMs now) :=
  passive_bind _ _ (passive_bind _ _ (passive_call _ rfl) fun _ => trivial) fun due => fire_each_passive platform nowMs now due

theorem upsert_passive (platform : Platform) (input : SchedulerWire) (nowMs now : Int) :
    Passive (TaskQueue.upsertScheduler platform input nowMs now) := by
  refine passive_bind _ _ (passive_bind _ _ (passive_bind _ _ (passive_call _ rfl) fun _ => trivial) fun current => ?_)
    fun _ => trivial
  cases built : wireStatement platform current _ now with
  | none => exact trivial
  | some statement =>
      refine passive_bind _ _ (passive_call _ ?_) fun _ => trivial
      unfold wireStatement at built
      split at built
      · cases built
      · cases built
        rfl

theorem run_now_passive (scheduleId : String) (task : CreateTaskInput) (taskId : String) (now : Int) :
    Passive (TaskQueue.runScheduleNow scheduleId task taskId now) := by
  refine passive_bind _ _ (create_task_passive _ _ _) fun created => ?_
  split <;> exact trivial

end passive

section reading

theorem reading_call (op : AgentOp) (reading : op.reading = true) : Reading (call op) := uses_perform _ op reading

theorem reading_bind {α β : Type} (program : Agent α) (continue_ : α → Agent β) (first : Reading program)
    (later : ∀ value, Reading (continue_ value)) : Reading (program >>= continue_) :=
  uses_bind _ program continue_ first later

theorem reading_passive {α : Type} (program : Agent α) (passive : Passive program) : Reading program :=
  uses_mono _ _ passive_reading program passive

theorem get_task_reading (id : String) : Reading (getTask id) :=
  reading_bind _ _ (reading_call _ rfl) fun _ => trivial

theorem create_reply_reading (task : TaskDispatch) (now : Int) : Reading (Server.createReply task now) :=
  reading_bind _ _ (reading_passive _ (create_task_passive task _ now)) fun _ =>
    reading_bind _ _ (get_task_reading _) fun _ => trivial

theorem post_reading (ready : Bool) (backendId : String) (parsed : Except String TaskDispatch) (now : Int) :
    Reading (Server.postTasks ready backendId parsed now) := by
  unfold Server.postTasks
  split
  · exact trivial
  · unfold Server.dispatchTask
    split
    · exact create_reply_reading _ now
    · refine reading_bind _ _ (reading_bind _ _ (reading_call _ rfl) fun row => ?_) fun prior => ?_
      · cases row with
        | none => exact trivial
        | some row => exact get_task_reading _
      · cases prior with
        | none => exact create_reply_reading _ now
        | some prior => exact trivial

theorem retry_reading (id newId : String) (now : Int) : Reading (TaskQueue.retry id newId now) := by
  refine reading_bind _ _ (reading_bind _ _ (get_task_reading id) fun current => ?_) fun enqueued => ?_
  · cases current with
    | none => exact trivial
    | some current =>
        simp only
        split
        · exact trivial
        · exact reading_bind _ _ (reading_passive _ (create_task_passive _ _ now)) fun _ =>
            reading_bind _ _ (reading_passive _ (append_log_passive newId _ _)) fun _ => get_task_reading newId
  · cases enqueued <;> exact trivial

end reading

section programs

theorem passive_program {α : Type} (program : Agent α) (passive : Passive program) : Ordinary program :=
  uses_mono _ _ passive_ordinary program passive

theorem reading_program {α : Type} (program : Agent α) (reading : Reading program) : Ordinary program :=
  uses_mono _ _ reading_ordinary program reading

theorem ordinary_call (op : AgentOp) (ordinary : op.ordinary = true) : Ordinary (call op) := uses_perform _ op ordinary

theorem ordinary_bind {α β : Type} (program : Agent α) (continue_ : α → Agent β) (first : Ordinary program)
    (later : ∀ value, Ordinary (continue_ value)) : Ordinary (program >>= continue_) :=
  uses_bind _ program continue_ first later

theorem append_log_ordinary (id : String) (stream : LogStream) (data : String) : Ordinary (appendLog id stream data) :=
  passive_program _ (append_log_passive id stream data)

theorem cancel_requested_ordinary (id : String) : Ordinary (isCancelRequested id) :=
  passive_program _ (cancel_requested_passive id)

theorem get_task_ordinary (id : String) : Ordinary (getTask id) := reading_program _ (get_task_reading id)

theorem update_task_ordinary (id : String) (update : TaskUpdate) (status : TaskStatus) (now : Int)
    (written : update.status = some status) (left : status ≠ .queued) : Ordinary (updateTask id update now) := by
  refine ordinary_bind _ _ (get_task_ordinary id) fun current => ?_
  cases current with
  | none => exact trivial
  | some current =>
      refine ordinary_bind _ _ (ordinary_call _ ?_) fun _ => trivial
      simp [AgentOp.ordinary, updateStatement, Statement.leavesQueue, Statement.named, written, left]

theorem request_cancel_ordinary (id : String) (flaggedAt finishedAt now : Int) :
    Ordinary (requestCancel id flaggedAt finishedAt now) := by
  refine ordinary_bind _ _ (get_task_ordinary id) fun current => ?_
  cases current with
  | none => exact trivial
  | some current =>
      simp only
      split
      · exact trivial
      · refine ordinary_bind _ _ (ordinary_call _ rfl) fun _ => ?_
        split
        · exact ordinary_bind _ _ (update_task_ordinary id _ .cancelled now rfl (by decide)) fun _ => trivial
        · exact trivial

theorem recover_ordinary (now : Int) : Ordinary (recoverInterruptedOnBoot now) := by
  refine ordinary_bind _ _ (ordinary_call _ rfl) fun ids => ordinary_bind _ _ ?_ fun _ => trivial
  refine uses_for_each _ ids _ fun id => ?_
  exact ordinary_bind _ _ (ordinary_call _ rfl) fun _ => append_log_ordinary id _ _

theorem exec_failure_ordinary (id message : String) (now : Int) : Ordinary (recordExecFailure id message now) := by
  refine ordinary_bind _ _ (append_log_ordinary id _ _) fun _ => ordinary_bind _ _ (get_task_ordinary id) fun current => ?_
  cases current with
  | none => exact trivial
  | some current =>
      simp only
      split
      · exact trivial
      · exact update_task_ordinary id _ .failed now rfl (by decide)

theorem record_result_ordinary (task : TaskDispatch) (final : ProcessResult) (facts : StreamFacts) (now : Int) :
    Ordinary (recordResult task final facts now) := by
  unfold recordResult
  split
  · exact update_task_ordinary _ _ .timed_out now rfl (by decide)
  · split
    · exact update_task_ordinary _ _ .succeeded now rfl (by decide)
    · exact update_task_ordinary _ _ .failed now rfl (by decide)

theorem record_cancelled_ordinary (id : String) (result : Option ProcessResult) (facts : StreamFacts) (now : Int) :
    Ordinary (recordCancelled id result facts now) :=
  ordinary_bind _ _ (passive_program _ (append_streams_passive id facts)) fun _ => update_task_ordinary id _ .cancelled now rfl (by decide)

theorem supervise_ordinary (task : TaskDispatch) (run : Execution) : Ordinary (superviseProcess task run) := by
  refine ordinary_bind _ _ (cancel_requested_ordinary _) fun flagged => ?_
  split
  · exact record_cancelled_ordinary _ _ _ _
  · split
    · exact exec_failure_ordinary _ _ _
    · refine ordinary_bind _ _ (cancel_requested_ordinary _) fun raced => ?_
      split
      · exact record_cancelled_ordinary _ _ _ _
      · exact ordinary_bind _ _ (passive_program _ (append_streams_passive _ _)) fun _ => record_result_ordinary _ _ _ _

theorem start_ordinary (task : TaskDispatch) (run : Execution) : Ordinary (startAndSupervise task run) := by
  unfold startAndSupervise
  split
  · exact exec_failure_ordinary _ _ _
  · refine ordinary_bind _ _ (ordinary_call _ rfl) fun _ => ?_
    split
    · exact exec_failure_ordinary _ _ _
    · exact supervise_ordinary task run

theorem execute_ordinary (task : TaskDispatch) (run : Execution) : Ordinary (execute task run) := by
  refine ordinary_bind _ _ (cancel_requested_ordinary _) fun flagged => ?_
  split
  · exact update_task_ordinary _ _ .cancelled _ rfl (by decide)
  · split
    · exact ordinary_bind _ _ (update_task_ordinary _ _ .failed _ rfl (by decide)) fun _ => append_log_ordinary _ _ _
    · unfold executeProcess
      split
      · exact exec_failure_ordinary _ _ _
      · exact ordinary_bind _ _ (append_log_ordinary _ _ _) fun _ => start_ordinary task run

theorem cancel_ordinary (id : String) (flaggedAt finishedAt now : Int) :
    Ordinary (TaskQueue.cancel id flaggedAt finishedAt now) := by
  refine ordinary_bind _ _ (get_task_ordinary id) fun before => ?_
  cases before with
  | none => exact trivial
  | some before =>
      refine ordinary_bind _ _ (request_cancel_ordinary id _ _ _) fun done => ?_
      split
      · exact trivial
      · exact ordinary_bind _ _ (get_task_ordinary id) fun _ => trivial

theorem stop_ordinary (flaggedAt finishedAt now : Int) : Ordinary (TaskQueue.stop flaggedAt finishedAt now) := by
  refine ordinary_bind _ _ (ordinary_call _ rfl) fun active => ?_
  cases active with
  | none => exact trivial
  | some id => exact ordinary_bind _ _ (request_cancel_ordinary id _ _ _) fun _ => trivial

end programs

end Vacps
