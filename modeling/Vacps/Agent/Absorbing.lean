import Vacps.Agent.AtMostOnce

/- Terminal task rows over runs of the whole agent, and the one write that can overrule them. -/
set_option autoImplicit false

namespace Vacps

open Library TaskStore TaskQueue ShellExecutor SchedulerStore

-- What is told of a task's end.
structure SameOutcome (before after : TaskRow) : Prop where
  status : after.status = before.status
  result : after.result = before.result
  error : after.error = before.error

def TaskRow.unstarted (row : TaskRow) : Prop := row.status = .cancelled ∧ row.error = some cancelledBeforeStart

instance (row : TaskRow) : Decidable row.unstarted :=
  inferInstanceAs (Decidable (row.status = .cancelled ∧ row.error = some cancelledBeforeStart))

-- The calls that change no stored task's outcome and start no process.
def AgentOp.lasting : AgentOp → Bool
  | .run (.setCancelRequested _ _) => true
  | .beginPump => true
  | .endPump => true
  | .beginStop => true
  | .enterExecutor _ => true
  | .leaveExecutor _ => true
  | op => op.passive

-- Where a program stands towards the tasks: recovering them, owning none (and what it last read of
-- one), or running the one it claimed, of which a process may have been started. A program that
-- finds its own task not running any more is astray.
inductive TaskPlace where
  | booting
  | clear (seen : Option (String × Option Json))
  | works (id : String) (started : Bool) (seen : Option (Option Json))
  | astray

open Classical in
noncomputable def taskNext (worker : Bool) : TaskPlace → AgentOp → AgentState → Option TaskPlace
  | .booting, .run (.failInterrupted _ _), _ => some .booting
  | .booting, .setReady, _ => some (.clear none)
  | .booting, .selectTask _, _ => some .booting
  | .clear _, .selectTask id, agent => some (.clear ((agent.db.tasks.find? id).map fun row => (id, row.result)))
  | .clear seen, .run (.writeTask id status result error _ _ _), _ =>
      if worker = false ∧ status = .cancelled ∧ error = some cancelledBeforeStart ∧ seen = some (id, result) then
        some (.clear none)
      else none
  | .clear _, .claimNextQueued now, agent =>
      some (match (claimOldest agent.db now).1 with | none => .clear none | some row => .works row.id false none)
  | .works id started seen, .selectTask other, agent =>
      if other = id then
        some (match agent.db.tasks.find? id with
          | some row => if row.status = .running then .works id started (some row.result) else .astray
          | none => .astray)
      else some (.works id started seen)
  | .works id _ seen, .startProcess other, _ => if other = id then some (.works id true seen) else none
  | .works id started seen, .run (.writeTask other status result error _ _ _), _ =>
      if other = id ∧ isTerminalTaskStatus status = true ∧
        (status = .cancelled → error = some cancelledBeforeStart → started = false ∧ seen = some result)
      then some (.clear none) else none
  | .astray, _, _ => some .astray
  | place, op, _ => if op.lasting then some place else none

theorem lasting_stays (worker : Bool) (place : TaskPlace) (op : AgentOp) (agent : AgentState) (lasting : op.lasting = true) :
    taskNext worker place op agent = some place := by
  unfold taskNext
  split
  all_goals first | cases lasting | exact if_pos lasting | rfl

theorem passive_lasting (op : AgentOp) (passive : op.passive = true) : op.lasting = true := by
  unfold AgentOp.lasting
  split
  all_goals first | rfl | exact passive

section programs

variable {α β : Type} (worker : Bool)

-- The program can be run from the place, whatever place it ends at.
abbrev Runs (place : TaskPlace) (program : Agent α) : Prop :=
  program.Follows AgentOp.exec (taskNext worker) place fun _ _ => True

abbrev Lasting (program : Agent α) : Prop := program.Uses fun op => op.lasting = true

theorem lasting_passive (program : Agent α) (passive : Passive program) : Lasting program :=
  uses_mono _ _ passive_lasting program passive

theorem lasting_call (op : AgentOp) (lasting : op.lasting = true) : Lasting (call op) := uses_perform _ op lasting

theorem lasting_follows (place : TaskPlace) (program : Agent α) (lasting : Lasting program) :
    program.Follows AgentOp.exec (taskNext worker) place fun there _ => there = place :=
  follows_within _ AgentOp.exec (taskNext worker) (fun there => there = place)
    (fun there op agent same here => ⟨there, lasting_stays worker there op agent here, same⟩) program lasting place rfl

theorem lasting_then (place : TaskPlace) (first : Agent α) (continue_ : α → Agent β) (lasting : Lasting first)
    (later : ∀ value, Runs worker place (continue_ value)) : Runs worker place (first >>= continue_) := by
  refine follows_bind AgentOp.exec (taskNext worker) place first continue_ _ _ (lasting_follows worker place first lasting) ?_ fun _ _ _ => trivial
  intro there value same
  exact same ▸ later value

theorem lasting_runs (place : TaskPlace) (program : Agent α) (lasting : Lasting program) : Runs worker place program :=
  follows_mono AgentOp.exec (taskNext worker) place program _ _ (fun _ _ _ => trivial) (lasting_follows worker place program lasting)

theorem runs_bind (place : TaskPlace) (first : Agent α) (continue_ : α → Agent β) (here : Runs worker place first)
    (later : ∀ there value, Runs worker there (continue_ value)) : Runs worker place (first >>= continue_) :=
  follows_bind AgentOp.exec (taskNext worker) place first continue_ _ _ here (fun there value _ => later there value) fun _ _ _ => trivial

theorem astray_follows (program : Agent α) :
    program.Follows AgentOp.exec (taskNext worker) .astray fun there _ => there = .astray := by
  induction program with
  | ret value => exact rfl
  | fail error => exact rfl
  | call op rest ih =>
      intro agent
      exact ⟨.astray, rfl, ih _⟩

theorem astray_runs (program : Agent α) : Runs worker .astray program :=
  follows_mono AgentOp.exec (taskNext worker) .astray program _ _ (fun _ _ _ => trivial) (astray_follows worker program)

end programs

section clear

variable {α β : Type}

def TaskPlace.isClear : TaskPlace → Prop
  | .clear _ => True
  | _ => False

-- A program without a task of its own stays so.
abbrev Free (program : Agent α) : Prop :=
  ∀ place : TaskPlace, place.isClear → program.Follows AgentOp.exec (taskNext false) place fun there _ => there.isClear

theorem free_bind (first : Agent α) (continue_ : α → Agent β) (here : Free first) (later : ∀ value, Free (continue_ value)) :
    Free (first >>= continue_) := by
  intro place clear
  exact follows_bind AgentOp.exec (taskNext false) place first continue_ _ _ (here place clear)
    (fun there value kept => later value there kept) fun _ _ kept => kept

theorem free_reading (program : Agent α) (reading : Reading program) : Free program := by
  refine follows_within _ AgentOp.exec (taskNext false) TaskPlace.isClear ?_ program reading
  intro place op agent clear allowed
  cases place with
  | clear seen =>
      by_cases read : ∃ id, op = .selectTask id
      · obtain ⟨id, rfl⟩ := read
        exact ⟨_, rfl, trivial⟩
      · refine ⟨.clear seen, lasting_stays false _ op agent (passive_lasting op ?_), trivial⟩
        cases op with
        | selectTask id => exact absurd ⟨id, rfl⟩ read
        | _ => exact allowed
  | _ => exact clear.elim

theorem free_lasting (program : Agent α) (lasting : Lasting program) : Free program := by
  intro place clear
  refine follows_mono AgentOp.exec (taskNext false) place program _ _ ?_ (lasting_follows false place program lasting)
  intro there _ same
  exact same ▸ clear

-- The write of requestCancel is made from what its updateTask has just read.
theorem cancel_update_free (id : String) (finishedAt : Option Int) (now : Int) :
    Free (updateTask id { status := some .cancelled, finishedAt := finishedAt, error := some cancelledBeforeStart } now) := by
  intro place clear
  cases place with
  | clear seen =>
      intro agent
      refine ⟨_, rfl, ?_⟩
      cases stored : agent.db.tasks.find? id with
      | none =>
          simp only [AgentOp.exec, stored]
          exact trivial
      | some row =>
          simp only [AgentOp.exec, stored]
          intro later
          exact ⟨.clear none, if_pos ⟨rfl, rfl, rfl, rfl⟩, by cases (AgentOp.exec _ later).1 <;> exact trivial⟩
  | _ => exact clear.elim

theorem request_cancel_free (id : String) (flaggedAt finishedAt now : Int) :
    Free (requestCancel id flaggedAt finishedAt now) := by
  refine free_bind _ _ (free_reading _ (get_task_reading id)) fun current => ?_
  cases current with
  | none => exact fun place clear => clear
  | some current =>
      simp only
      split
      · exact fun place clear => clear
      · refine free_bind _ _ (free_lasting _ (lasting_call _ rfl)) fun _ => ?_
        split
        · exact free_bind _ _ (cancel_update_free id _ now) fun _ place clear => clear
        · exact fun place clear => clear

theorem cancel_free (id : String) (flaggedAt finishedAt now : Int) : Free (TaskQueue.cancel id flaggedAt finishedAt now) := by
  refine free_bind _ _ (free_reading _ (get_task_reading id)) fun before => ?_
  cases before with
  | none => exact fun place clear => clear
  | some before =>
      refine free_bind _ _ (request_cancel_free id _ _ _) fun done => ?_
      split
      · exact fun place clear => clear
      · exact free_bind _ _ (free_reading _ (get_task_reading id)) fun _ place clear => clear

theorem stop_free (flaggedAt finishedAt now : Int) : Free (TaskQueue.stop flaggedAt finishedAt now) := by
  refine free_bind _ _ (free_lasting _ (lasting_call _ rfl)) fun active => ?_
  cases active with
  | none => exact fun place clear => clear
  | some id => exact free_bind _ _ (request_cancel_free id _ _ _) fun _ place clear => clear

end clear

section worker

variable {α β : Type} (id : String) (started : Bool)

def TaskPlace.working (place : TaskPlace) : Prop := place = .astray ∨ ∃ seen, place = .works id started seen

-- The program can be run by the worker of the task.
abbrev Worker (program : Agent α) : Prop := ∀ place : TaskPlace, place.working id started → Runs true place program

theorem worker_runs (program : Agent α) (runs : ∀ seen, Runs true (.works id started seen) program) : Worker id started program := by
  intro place working
  rcases working with rfl | ⟨seen, rfl⟩
  · exact astray_runs true program
  · exact runs seen

theorem worker_lasting (first : Agent α) (continue_ : α → Agent β) (lasting : Lasting first)
    (later : ∀ value, Worker id started (continue_ value)) : Worker id started (first >>= continue_) :=
  fun place working => lasting_then true place first continue_ lasting fun value => later value place working

-- The worker finds its task running, or is astray.
theorem worker_reads (continue_ : Option StoredTask → Agent β) (final : TaskPlace → Except AgentError β → Prop)
    (lost : ∀ result, final .astray result)
    (later : ∀ stored : StoredTask, stored.status = .running →
      (continue_ (some stored)).Follows AgentOp.exec (taskNext true) (.works id started (some stored.result)) final)
    (place : TaskPlace) (working : place.working id started) :
    (getTask id >>= continue_).Follows AgentOp.exec (taskNext true) place final := by
  have strayed : ∀ program : Agent β, program.Follows AgentOp.exec (taskNext true) .astray final := by
    intro program
    refine follows_mono AgentOp.exec (taskNext true) .astray program _ _ ?_ (astray_follows true program)
    intro there result same
    exact same ▸ lost result
  rcases working with rfl | ⟨seen, rfl⟩
  · exact strayed _
  · intro agent
    refine ⟨_, if_pos rfl, ?_⟩
    simp only [AgentOp.exec]
    cases stored : agent.db.tasks.find? id with
    | none => exact strayed _
    | some row =>
        simp only
        split
        · exact later row.toStoredTask ‹_›
        · exact strayed _

theorem worker_update (update : TaskUpdate) (status : TaskStatus) (now : Int) (written : update.status = some status)
    (ends : isTerminalTaskStatus status = true)
    (honest : status = .cancelled → update.error = some cancelledDuring ∨
      (update.error = some cancelledBeforeStart ∧ started = false ∧ update.result = none)) :
    Worker id started (updateTask id update now) := by
  refine worker_reads id started _ _ (fun _ => trivial) fun stored running => ?_
  intro agent
  refine ⟨.clear none, if_pos ⟨rfl, ?_, ?_⟩, by cases (AgentOp.exec _ agent).1 <;> exact trivial⟩
  · rw [written]
    exact ends
  · rw [written]
    intro cancelled before
    rcases honest cancelled with during | ⟨_, waiting, silent⟩
    · rw [during] at before
      have same : cancelledDuring = cancelledBeforeStart := Option.some.inj before
      exact absurd same (by decide)
    · rw [silent]
      exact ⟨waiting, rfl⟩

-- A worker that cancels its own task only flags it.
theorem worker_cancel (flaggedAt finishedAt now : Int) (continue_ : Bool → Agent β)
    (later : ∀ value, Worker id started (continue_ value)) :
    Worker id started (requestCancel id flaggedAt finishedAt now >>= continue_) := by
  intro place working
  refine follows_bind AgentOp.exec (taskNext true) place _ _ (fun there _ => there.working id started) _ ?_
    (fun there value kept => later value there kept) fun _ _ _ => trivial
  refine worker_reads id started _ _ (fun _ => Or.inl rfl) (fun stored running => ?_) place working
  simp only [running]
  intro agent
  exact ⟨_, rfl, Or.inr ⟨_, rfl⟩⟩

theorem failure_works (message : String) (now : Int) : Worker id started (recordExecFailure id message now) := by
  refine worker_lasting id started _ _ (lasting_passive _ (append_log_passive id _ _)) fun _ => ?_
  refine worker_reads id started _ _ (fun _ => trivial) fun stored running => ?_
  simp only [running]
  exact worker_update id started _ .failed now rfl rfl (fun same => nomatch same) _ (Or.inr ⟨_, rfl⟩)

theorem cancelled_works (result : Option ProcessResult) (facts : StreamFacts) (now : Int) :
    Worker id started (recordCancelled id result facts now) :=
  worker_lasting id started _ _ (lasting_passive _ (append_streams_passive id facts)) fun _ =>
    worker_update id started _ .cancelled now rfl rfl fun _ => Or.inl rfl

end worker

section executor

variable (task : TaskDispatch) (run : Execution)

theorem result_works (started : Bool) (final : ProcessResult) (facts : StreamFacts) (now : Int) :
    Worker task.task_id started (recordResult task final facts now) := by
  unfold recordResult
  split
  · exact worker_update _ started _ .timed_out now rfl rfl fun same => nomatch same
  · split
    · exact worker_update _ started _ .succeeded now rfl rfl fun same => nomatch same
    · exact worker_update _ started _ .failed now rfl rfl fun same => nomatch same

theorem supervise_works (started : Bool) : Worker task.task_id started (superviseProcess task run) := by
  refine worker_lasting _ started _ _ (lasting_passive _ (cancel_requested_passive _)) fun flagged => ?_
  split
  · exact cancelled_works _ started _ _ _
  · split
    · exact failure_works _ started _ _
    · refine worker_lasting _ started _ _ (lasting_passive _ (cancel_requested_passive _)) fun raced => ?_
      split
      · exact cancelled_works _ started _ _ _
      · exact worker_lasting _ started _ _ (lasting_passive _ (append_streams_passive _ _)) fun _ => result_works task started _ _ _

theorem start_works : Worker task.task_id false (startAndSupervise task run) := by
  unfold startAndSupervise
  split
  · exact failure_works _ false _ _
  · refine worker_runs _ false _ fun seen => ?_
    intro agent
    refine ⟨.works task.task_id true seen, if_pos rfl, ?_⟩
    simp only [AgentOp.exec]
    cases run.start with
    | error message => exact failure_works _ true message run.now _ (Or.inr ⟨seen, rfl⟩)
    | ok _ => exact supervise_works task run true _ (Or.inr ⟨seen, rfl⟩)

theorem execute_works : Worker task.task_id false (execute task run) := by
  refine worker_lasting _ false _ _ (lasting_passive _ (cancel_requested_passive _)) fun flagged => ?_
  split
  · exact worker_update _ false _ .cancelled _ rfl rfl fun _ => Or.inr ⟨rfl, rfl, rfl⟩
  · split
    · intro place working
      refine runs_bind true place _ _ (worker_update _ false _ .failed _ rfl rfl (fun same => nomatch same) place working) ?_
      exact fun there _ => lasting_runs true there _ (lasting_passive _ (append_log_passive _ _ _))
    · unfold executeProcess
      split
      · exact failure_works _ false _ _
      · exact worker_lasting _ false _ _ (lasting_passive _ (append_log_passive _ _ _)) fun _ => start_works task run

theorem read_runs {β : Type} (worker : Bool) (place : TaskPlace) (id : String) (continue_ : Option StoredTask → Agent β)
    (later : ∀ there value, Runs worker there (continue_ value)) : Runs worker place (getTask id >>= continue_) := by
  intro agent
  cases place with
  | booting => exact ⟨_, rfl, later _ _⟩
  | clear seen => exact ⟨_, rfl, later _ _⟩
  | astray => exact ⟨_, rfl, later _ _⟩
  | works own started seen =>
      by_cases mine : id = own
      · exact ⟨_, if_pos mine, later _ _⟩
      · exact ⟨_, if_neg mine, later _ _⟩

theorem handed_works (claimed : StoredTask) : Worker claimed.task.task_id false (do
    let _ ← call (.enterExecutor claimed.task.task_id)
    Async.finally_ (execute claimed.task run) (call (.leaveExecutor claimed.task.task_id))
    let _ ← getTask claimed.task.task_id
    pure true : Agent Bool) := by
  refine worker_lasting _ false _ _ (lasting_call _ rfl) fun _ => ?_
  intro place working
  refine runs_bind true place _ _ ?_ fun there _ => read_runs true there _ _ fun _ _ => trivial
  refine follows_finally AgentOp.exec (taskNext true) place _ _ _ _ (execute_works claimed.task run place working) ?_
  intro there result _
  refine follows_mono AgentOp.exec (taskNext true) there _ _ _ ?_ (lasting_runs true there _ (lasting_call _ rfl))
  intro last outcome _
  cases outcome <;> exact trivial

end executor

theorem claimed_works (claimed : StoredTask) (run : PumpRun) : Worker claimed.task.task_id false (runClaimed claimed run) := by
  refine worker_lasting _ false _ _ (lasting_call _ rfl) fun _ => ?_
  refine worker_lasting _ false _ _ (lasting_call _ rfl) fun stopping => ?_
  cases stopping with
  | false => exact handed_works run.execution claimed
  | true => exact worker_cancel _ false _ _ _ _ fun _ => handed_works run.execution claimed

theorem pump_body_runs (run : PumpRun) (seen : Option (String × Option Json)) : Runs true (.clear seen) (pumpBody run) := by
  refine lasting_then true _ _ _ (lasting_call _ rfl) fun running => ?_
  cases running with
  | true => exact trivial
  | false =>
      refine lasting_then true _ _ _ (lasting_call _ rfl) fun stopping => ?_
      cases stopping with
      | true => exact trivial
      | false =>
          intro agent
          refine ⟨_, rfl, ?_⟩
          simp only [AgentOp.exec]
          cases (claimOldest agent.db run.claimedAt).1 with
          | none => exact trivial
          | some row => exact claimed_works row.toStoredTask run _ (Or.inr ⟨none, rfl⟩)

theorem pump_runs (run : PumpRun) (seen : Option (String × Option Json)) : Runs true (.clear seen) (pumpOnce run) := by
  refine lasting_then true _ _ _ (lasting_call _ rfl) fun taken => ?_
  cases taken with
  | false => exact trivial
  | true =>
      refine follows_finally AgentOp.exec (taskNext true) _ _ _ _ _ (pump_body_runs run seen) ?_
      intro there result _
      refine follows_mono AgentOp.exec (taskNext true) there _ _ _ ?_ (lasting_runs true there _ (lasting_call _ rfl))
      intro last outcome _
      cases outcome <;> exact trivial

theorem boot_runs (now : Int) : Runs false .booting (bootAgent now) := by
  have recovered : (recoverInterruptedOnBoot now).Follows AgentOp.exec (taskNext false) .booting fun there _ => there = .booting := by
    refine follows_within (fun op => op.lasting = true ∨ ∃ id, op = .run (.failInterrupted id now)) AgentOp.exec (taskNext false)
      (fun there => there = .booting) ?_ _ ?_ .booting rfl
    · intro there op agent same allowed
      subst same
      rcases allowed with lasting | ⟨id, rfl⟩
      · exact ⟨.booting, lasting_stays false _ op agent lasting, rfl⟩
      · exact ⟨.booting, rfl, rfl⟩
    · refine uses_bind _ _ _ (uses_perform _ _ (Or.inl rfl)) fun ids => uses_bind _ _ _ ?_ fun _ => trivial
      refine uses_for_each _ ids _ fun id => uses_bind _ _ _ (uses_perform _ _ (Or.inr ⟨id, rfl⟩)) fun _ => ?_
      exact uses_mono _ _ (fun op lasting => Or.inl lasting) _ (lasting_passive _ (append_log_passive id _ _))
  refine follows_bind AgentOp.exec (taskNext false) _ _ _ _ _ recovered ?_ fun _ _ _ => trivial
  intro there value same
  subst same
  intro agent
  exact ⟨.clear none, rfl, trivial⟩

def taskEntry : AgentCall → TaskPlace
  | .boot _ => .booting
  | _ => .clear none

def AgentCall.pumps : AgentCall → Bool
  | .pumpOnce _ => true
  | _ => false

theorem call_runs (callMade : AgentCall) : Runs callMade.pumps (taskEntry callMade) callMade.body := by
  have discard : ∀ {α : Type} (program : Agent α), Free program → Runs false (.clear none) (program >>= fun _ => pure ()) := by
    intro α program free
    refine runs_bind false _ _ _ ?_ fun _ _ => trivial
    exact follows_mono AgentOp.exec (taskNext false) _ _ _ _ (fun _ _ _ => trivial) (free (.clear none) trivial)
  cases callMade with
  | boot now => exact boot_runs now
  | post backendId parsed now => exact discard _ (free_reading _ (post_reading true backendId parsed now))
  | runScheduleNow scheduleId task taskId now =>
      exact discard _ (free_reading _ (reading_passive _ (run_now_passive scheduleId task taskId now)))
  | upsertScheduler platform input nowMs now =>
      exact lasting_runs false _ _ (lasting_passive _ (upsert_passive platform input nowMs now))
  | fireDueSchedulers platform nowMs now =>
      exact discard _ (free_reading _ (reading_passive _ (fire_passive platform nowMs now)))
  | cancel taskId flaggedAt finishedAt now => exact discard _ (cancel_free taskId flaggedAt finishedAt now)
  | retry taskId newId now => exact discard _ (free_reading _ (retry_reading taskId newId now))
  | stop flaggedAt finishedAt now =>
      exact follows_mono AgentOp.exec (taskNext false) _ _ _ _ (fun _ _ _ => trivial) (stop_free flaggedAt finishedAt now (.clear none) trivial)
  | pumpOnce run => exact runs_bind true _ _ _ (pump_runs run none) fun _ _ => trivial

-- A result that no execution has had a hand in.
def TaskRow.pending (row : TaskRow) : Prop := row.status = .queued ∨ row.status = .running ∨ row.unstarted

-- The worker's task is running and nobody else's; what a program read of a pending task still is its
-- result; a task whose process was started is out of the queue and not recorded as never started.
structure Absorbing (agent : AgentState) (places : List TaskPlace) : Prop where
  booting : ∀ i : Nat, places[i]? = some TaskPlace.booting → agent.ready = false ∧ places.length = 1
  sound : ∀ i : Nat, places[i]? ≠ some TaskPlace.astray
  owned : ∀ (i : Nat) id started seen, places[i]? = some (TaskPlace.works id started seen) →
    ∃ row, agent.db.tasks.find? id = some row ∧ row.status = .running ∧ ∀ result, seen = some result → row.result = result
  fresh : ∀ (i : Nat) id seen, places[i]? = some (TaskPlace.works id false seen) → id ∉ agent.started
  single : ∀ (i j : Nat) id a b s t, places[i]? = some (TaskPlace.works id a s) → places[j]? = some (TaskPlace.works id b t) → i = j
  seen : ∀ (i : Nat) id result, places[i]? = some (TaskPlace.clear (some (id, result))) →
    ∃ row, agent.db.tasks.find? id = some row ∧ (row.pending → row.result = result)
  begun : ∀ id ∈ agent.started, ∃ row, agent.db.tasks.find? id = some row ∧ row.status ≠ .queued ∧ ¬ row.unstarted

theorem same_outcome_refl (row : TaskRow) : SameOutcome row row := ⟨rfl, rfl, rfl⟩

theorem same_outcome_trans (a b c : TaskRow) (first : SameOutcome a b) (second : SameOutcome b c) : SameOutcome a c :=
  ⟨second.status.trans first.status, second.result.trans first.result, second.error.trans first.error⟩

-- The end of every task that has one stays as it is.
def endsLast (before after : Database) : Prop :=
  ∀ id row, before.tasks.find? id = some row → isTerminalTaskStatus row.status = true →
    ∃ last, after.tasks.find? id = some last ∧ SameOutcome row last

theorem ends_last_refl (db : Database) : endsLast db db := fun _ row found _ => ⟨row, found, same_outcome_refl row⟩

section invariant

variable (agent after : AgentState) (places : List TaskPlace) (holds : Absorbing agent places)

include holds

theorem absorbing_kept (outcomes : ∀ id row, agent.db.tasks.find? id = some row →
      ∃ last, after.db.tasks.find? id = some last ∧ SameOutcome row last)
    (started : after.started = agent.started) (ready : after.ready = agent.ready) : Absorbing after places := by
  refine ⟨?_, holds.sound, ?_, ?_, holds.single, ?_, ?_⟩
  · exact fun i here => ⟨ready.trans (holds.booting i here).1, (holds.booting i here).2⟩
  · intro i id begun seen here
    obtain ⟨row, found, running, read⟩ := holds.owned i id begun seen here
    obtain ⟨last, there, same⟩ := outcomes id row found
    exact ⟨last, there, same.status.trans running, fun result known => same.result.trans (read result known)⟩
  · exact fun i id seen here => started ▸ holds.fresh i id seen here
  · intro i id result here
    obtain ⟨row, found, read⟩ := holds.seen i id result here
    obtain ⟨last, there, same⟩ := outcomes id row found
    refine ⟨last, there, fun pending => same.result.trans (read ?_)⟩
    rwa [TaskRow.pending, TaskRow.unstarted, same.status, same.error] at pending
  · intro id member
    obtain ⟨row, found, left, honest⟩ := holds.begun id (started ▸ member)
    obtain ⟨last, there, same⟩ := outcomes id row found
    refine ⟨last, there, same.status ▸ left, ?_⟩
    rwa [TaskRow.unstarted, same.status, same.error]

-- One row is rewritten, which no worker runs.
theorem absorbing_written (id : String) (row next : TaskRow) (stored : agent.db.tasks.find? id = some row)
    (rows : ∀ other, after.db.tasks.find? other = if other = id then some next else agent.db.tasks.find? other)
    (started : after.started = agent.started) (ready : after.ready = agent.ready)
    (unowned : ∀ (i : Nat) begun seen, places[i]? ≠ some (TaskPlace.works id begun seen))
    (kept : next.pending → row.pending ∧ next.result = row.result)
    (honest : id ∈ agent.started → next.status ≠ .queued ∧ ¬ next.unstarted) : Absorbing after places := by
  refine ⟨?_, holds.sound, ?_, ?_, holds.single, ?_, ?_⟩
  · exact fun i here => ⟨ready.trans (holds.booting i here).1, (holds.booting i here).2⟩
  · intro i other begun seen here
    have different : other ≠ id := fun same => unowned i begun seen (same ▸ here)
    rw [rows other, if_neg different]
    exact holds.owned i other begun seen here
  · exact fun i other seen here => started ▸ holds.fresh i other seen here
  · intro i other result here
    obtain ⟨stale, found, read⟩ := holds.seen i other result here
    by_cases same : other = id
    · subst same
      cases stored.symm.trans found
      refine ⟨next, (rows other).trans (if_pos rfl), fun pending => ?_⟩
      obtain ⟨open_, result⟩ := kept pending
      exact result.trans (read open_)
    · exact ⟨stale, (rows other).trans ((if_neg same).trans found), read⟩
  · intro other member
    obtain ⟨stale, found, left, true_⟩ := holds.begun other (started ▸ member)
    by_cases same : other = id
    · subst same
      exact ⟨next, (rows other).trans (if_pos rfl), honest (started ▸ member)⟩
    · exact ⟨stale, (rows other).trans ((if_neg same).trans found), left, true_⟩

-- What a place must say of the tasks for its thread to stand there.
structure Stands (i : Nat) (there : TaskPlace) : Prop where
  settled : there ≠ .booting ∧ there ≠ .astray
  owned : ∀ id started seen, there = .works id started seen → ∃ row, agent.db.tasks.find? id = some row ∧
    row.status = .running ∧ ∀ result, seen = some result → row.result = result
  fresh : ∀ id seen, there = .works id false seen → id ∉ agent.started
  single : ∀ id started seen, there = .works id started seen →
    ∀ (j : Nat) begun read, j ≠ i → places[j]? ≠ some (TaskPlace.works id begun read)
  seen : ∀ id result, there = .clear (some (id, result)) →
    ∃ row, agent.db.tasks.find? id = some row ∧ (row.pending → row.result = result)

omit holds in
theorem stands_clear (i : Nat) (seen : Option (String × Option Json)) (read : ∀ id result, seen = some (id, result) →
    ∃ row, agent.db.tasks.find? id = some row ∧ (row.pending → row.result = result)) :
    Stands agent places i (.clear seen) where
  settled := ⟨nofun, nofun⟩
  owned := nofun
  fresh := nofun
  single _ _ _ same := nomatch same
  seen id result same := read id result (TaskPlace.clear.inj same)

omit holds in
theorem stands_works (i : Nat) (id : String) (started : Bool) (seen : Option (Option Json)) (row : TaskRow)
    (found : agent.db.tasks.find? id = some row) (running : row.status = .running)
    (read : ∀ result, seen = some result → row.result = result) (fresh : started = false → id ∉ agent.started)
    (single : ∀ (j : Nat) begun read, j ≠ i → places[j]? ≠ some (TaskPlace.works id begun read)) :
    Stands agent places i (.works id started seen) where
  settled := ⟨nofun, nofun⟩
  owned other begun known same := by
    cases same
    exact ⟨row, found, running, read⟩
  fresh other known same := by
    cases same
    exact fresh rfl
  single other begun known same := by
    cases same
    exact single
  seen _ _ same := nomatch same

theorem absorbing_moved (i : Nat) (place there : TaskPlace) (here : places[i]? = some place)
    (stands : Stands agent places i there) : Absorbing agent (places.set i there) := by
  have cases_ : ∀ (j : Nat) (p : TaskPlace), (places.set i there)[j]? = some p → (j = i ∧ p = there) ∨ (j ≠ i ∧ places[j]? = some p) :=
    fun j p found => (located_set places i j place there p here).mp found
  refine ⟨?_, ?_, ?_, ?_, ?_, ?_, holds.begun⟩
  · intro j found
    rcases cases_ j _ found with ⟨_, same⟩ | ⟨_, old⟩
    · exact absurd same.symm stands.settled.1
    · rw [List.length_set]
      exact holds.booting j old
  · intro j found
    rcases cases_ j _ found with ⟨_, same⟩ | ⟨_, old⟩
    · exact stands.settled.2 same.symm
    · exact holds.sound j old
  · intro j id started seen found
    rcases cases_ j _ found with ⟨_, same⟩ | ⟨_, old⟩
    · exact stands.owned id started seen same.symm
    · exact holds.owned j id started seen old
  · intro j id seen found
    rcases cases_ j _ found with ⟨_, same⟩ | ⟨_, old⟩
    · exact stands.fresh id seen same.symm
    · exact holds.fresh j id seen old
  · intro j k id a b s t first second
    rcases cases_ j _ first with ⟨rfl, same⟩ | ⟨jOther, oldJ⟩
    · rcases cases_ k _ second with ⟨rfl, _⟩ | ⟨kOther, oldK⟩
      · rfl
      · exact absurd oldK (stands.single id a s same.symm k b t kOther)
    · rcases cases_ k _ second with ⟨rfl, same⟩ | ⟨_, oldK⟩
      · exact absurd oldJ (stands.single id b t same.symm j a s jOther)
      · exact holds.single j k id a b s t oldJ oldK
  · intro j id result found
    rcases cases_ j _ found with ⟨_, same⟩ | ⟨_, old⟩
    · exact stands.seen id result same.symm
    · exact holds.seen j id result old

end invariant

theorem lasting_outcomes (op : AgentOp) (agent : AgentState) (lasting : op.lasting = true) :
    (∀ id row, agent.db.tasks.find? id = some row →
      ∃ last, (op.exec agent).2.db.tasks.find? id = some last ∧ SameOutcome row last) ∧
    (op.exec agent).2.started = agent.started ∧ (op.exec agent).2.ready = agent.ready := by
  by_cases passive : op.passive = true
  · have untouched := passive_untouched op agent passive
    exact ⟨fun id row found => ⟨row, untouched.rows id row found, same_outcome_refl row⟩, untouched.started, untouched.ready⟩
  · have still : ∀ id row, agent.db.tasks.find? id = some row →
        ∃ last, agent.db.tasks.find? id = some last ∧ SameOutcome row last :=
      fun id row found => ⟨row, found, same_outcome_refl row⟩
    unfold AgentOp.lasting at lasting
    split at lasting
    · rename_i taskId now
      refine ⟨?_, rfl, rfl⟩
      intro id row found
      have flagged := find_changed_task agent.db taskId
        (fun row => { row.toTaskState with cancelRequested := true, updatedAt := now }) id
      by_cases same : id = taskId
      · subst same
        rw [if_pos rfl, found, Option.map_some] at flagged
        exact ⟨_, flagged, rfl, rfl, rfl⟩
      · rw [if_neg same, found] at flagged
        exact ⟨row, flagged, same_outcome_refl row⟩
    · rw [AgentOp.exec]
      split <;> exact ⟨still, rfl, rfl⟩
    · exact ⟨still, rfl, rfl⟩
    · exact ⟨still, rfl, rfl⟩
    · exact ⟨still, rfl, rfl⟩
    · exact ⟨still, rfl, rfl⟩
    · exact absurd lasting passive

section step

variable (agent : AgentState) (places : List TaskPlace) (holds : Absorbing agent places) (i : Nat)

include holds

-- A queued row, or one recorded as never started, is no worker's.
theorem unowned_of (id : String) (row : TaskRow) (found : agent.db.tasks.find? id = some row) (idle : row.status ≠ .running)
    (j : Nat) (begun : Bool) (seen : Option (Option Json)) : places[j]? ≠ some (TaskPlace.works id begun seen) := by
  intro here
  obtain ⟨stored, there, running, _⟩ := holds.owned j id begun seen here
  cases found.symm.trans there
  exact idle running

theorem absorbing_claim (now : Int) (seen : Option (String × Option Json)) (here : places[i]? = some (.clear seen)) :
    Absorbing (AgentOp.exec (.claimNextQueued now) agent).2
      (places.set i (match (claimOldest agent.db now).1 with | none => .clear none | some row => .works row.id false none)) ∧
    endsLast agent.db (claimOldest agent.db now).2 := by
  have moved := absorbing_moved agent places holds i _ _ here (stands_clear agent places i none (by intro _ _ same; cases same))
  cases chosen : (claimOldest agent.db now).1 with
  | none =>
      have same : (claimOldest agent.db now).2 = agent.db := by
        unfold claimOldest at chosen ⊢
        split at chosen
        · rfl
        · cases chosen
      simp only [AgentOp.exec, same]
      exact ⟨moved, ends_last_refl agent.db⟩
  | some row =>
      obtain ⟨running, ⟨queued, found, ⟨waiting, _⟩, result⟩, after⟩ := claim_takes agent.db now row chosen
      have idle : queued.status ≠ .running := by
        rw [waiting]
        decide
      have unstarted : row.id ∉ agent.started := by
        intro member
        obtain ⟨stored, there, left, _⟩ := holds.begun row.id member
        cases found.symm.trans there
        exact left waiting
      have written : Absorbing (AgentOp.exec (.claimNextQueued now) agent).2 (places.set i (.clear none)) :=
        absorbing_written agent _ _ moved row.id queued row found after rfl rfl
          (unowned_of agent _ moved row.id queued found idle) (fun _ => ⟨Or.inl waiting, result⟩)
          fun member => absurd member unstarted
      have mine : (places.set i (.clear none))[i]? = some (TaskPlace.clear none) :=
        (located_set places i i (.clear seen) _ _ here).mpr (Or.inl ⟨rfl, rfl⟩)
      have claimed := absorbing_moved _ _ written i _ (.works row.id false none) mine
        (stands_works _ _ i row.id false none row ((after row.id).trans (if_pos rfl)) running (by intro _ same; cases same) (fun _ => unstarted)
          fun j begun read _ => unowned_of agent _ moved row.id queued found idle j begun read)
      rw [List.set_set] at claimed
      refine ⟨claimed, ?_⟩
      intro id stored there terminal
      by_cases same : id = row.id
      · subst same
        cases found.symm.trans there
        rw [waiting] at terminal
        cases terminal
      · exact ⟨stored, (after id).trans ((if_neg same).trans there), same_outcome_refl stored⟩

theorem absorbing_process (id : String) (started : Bool) (seen : Option (Option Json))
    (here : places[i]? = some (.works id started seen)) :
    Absorbing (AgentOp.exec (.startProcess id) agent).2 (places.set i (.works id true seen)) := by
  obtain ⟨row, found, running, read⟩ := holds.owned i id started seen here
  have alone : ∀ (j : Nat) begun known, j ≠ i → places[j]? ≠ some (TaskPlace.works id begun known) :=
    fun j begun known different there => different (holds.single j i id begun started known seen there here)
  have moved := absorbing_moved agent places holds i _ _ here
    (stands_works agent places i id true seen row found running read (fun same => nomatch same) alone)
  refine ⟨moved.booting, moved.sound, moved.owned, ?_, moved.single, moved.seen, ?_⟩
  · intro j other known there member
    rcases List.mem_cons.mp member with rfl | old
    · rcases (located_set places i j _ _ _ here).mp there with ⟨_, same⟩ | ⟨different, before⟩
      · cases same
      · exact alone j false known different before
    · exact moved.fresh j other known there old
  · intro other member
    rcases List.mem_cons.mp member with rfl | old
    · refine ⟨row, found, ?_, ?_⟩
      · rw [running]
        decide
      · rw [TaskRow.unstarted, running]
        exact fun same => nomatch same.1
    · exact holds.begun other old

section write

variable (id : String) (status : TaskStatus) (result : Option Json) (error : Option TaskError) (startedAt finishedAt : Option Int)
  (now : Int)

omit holds in
theorem find_written (row : TaskRow) (found : agent.db.tasks.find? id = some row) (other : String) :
    (AgentOp.exec (.run (.writeTask id status result error startedAt finishedAt now)) agent).2.db.tasks.find? other =
      if other = id then some (row.with { row.toTaskState with
        status := status, result := result, error := error, startedAt := startedAt, finishedAt := finishedAt, updatedAt := now })
      else agent.db.tasks.find? other := by
  have written := find_changed_task agent.db id (fun row => { row.toTaskState with
    status := status, result := result, error := error, startedAt := startedAt, finishedAt := finishedAt, updatedAt := now }) other
  rw [found] at written
  exact written

theorem absorbing_finish (started : Bool) (seen : Option (Option Json)) (here : places[i]? = some (.works id started seen))
    (ends : isTerminalTaskStatus status = true)
    (honest : status = .cancelled → error = some cancelledBeforeStart → started = false ∧ seen = some result) :
    Absorbing (AgentOp.exec (.run (.writeTask id status result error startedAt finishedAt now)) agent).2
      (places.set i (.clear none)) ∧
    endsLast agent.db (AgentOp.exec (.run (.writeTask id status result error startedAt finishedAt now)) agent).2.db := by
  obtain ⟨row, found, running, read⟩ := holds.owned i id started seen here
  have rows := find_written agent id status result error startedAt finishedAt now row found
  have moved := absorbing_moved agent places holds i _ _ here (stands_clear agent places i none nofun)
  have left : status ≠ .queued ∧ status ≠ .running := by
    refine ⟨?_, ?_⟩ <;> rintro rfl <;> cases ends
  refine ⟨absorbing_written agent _ _ moved id row _ found rows rfl rfl ?_ ?_ ?_, ?_⟩
  · intro j begun known there
    rcases (located_set places i j _ _ _ here).mp there with ⟨_, same⟩ | ⟨different, before⟩
    · cases same
    · exact different (holds.single j i id begun started known seen before here)
  · intro pending
    rcases pending with queued | again | ⟨cancelled, before⟩
    · exact absurd queued left.1
    · exact absurd again left.2
    · exact ⟨Or.inr (Or.inl running), (read result (honest cancelled before).2).symm⟩
  · intro member
    refine ⟨left.1, ?_⟩
    rintro ⟨cancelled, before⟩
    obtain ⟨rfl, _⟩ := honest cancelled before
    exact holds.fresh i id seen here member
  · intro other stored there terminal
    by_cases same : other = id
    · subst same
      cases found.symm.trans there
      rw [running] at terminal
      cases terminal
    · exact ⟨stored, (rows other).trans ((if_neg same).trans there), same_outcome_refl stored⟩

-- The write of a request: it may meet the task in the queue, or as another request has left it.
theorem absorbing_cancel (here : places[i]? = some (.clear (some (id, result))))
    (unraced : ∀ row, agent.db.tasks.find? id = some row → row.status = .queued ∨ row.unstarted) :
    Absorbing
      (AgentOp.exec (.run (.writeTask id .cancelled result (some cancelledBeforeStart) startedAt finishedAt now)) agent).2
      (places.set i (.clear none)) ∧
    endsLast agent.db
      (AgentOp.exec (.run (.writeTask id .cancelled result (some cancelledBeforeStart) startedAt finishedAt now)) agent).2.db := by
  obtain ⟨row, found, read⟩ := holds.seen i id result here
  have rows := find_written agent id .cancelled result (some cancelledBeforeStart) startedAt finishedAt now row found
  have moved := absorbing_moved agent places holds i _ _ here (stands_clear agent places i none nofun)
  have waits := unraced row found
  have pending : row.pending := waits.elim Or.inl fun recorded => Or.inr (Or.inr recorded)
  have idle : row.status ≠ .running := by
    rcases waits with queued | ⟨cancelled, _⟩
    · rw [queued]
      decide
    · rw [cancelled]
      decide
  refine ⟨absorbing_written agent _ _ moved id row _ found rows rfl rfl (unowned_of agent _ moved id row found idle) ?_ ?_, ?_⟩
  · exact fun _ => ⟨pending, (read pending).symm⟩
  · intro member
    obtain ⟨stored, there, left, honest⟩ := holds.begun id member
    cases found.symm.trans there
    exact absurd waits (not_or.mpr ⟨left, honest⟩)
  · intro other stored there terminal
    by_cases same : other = id
    · subst same
      cases found.symm.trans there
      rcases waits with queued | ⟨cancelled, before⟩
      · rw [queued] at terminal
        cases terminal
      · exact ⟨_, (rows other).trans (if_pos rfl), cancelled.symm, (read pending).symm, before.symm⟩
    · exact ⟨stored, (rows other).trans ((if_neg same).trans there), same_outcome_refl stored⟩

end write

theorem absorbing_recover (id : String) (now : Int) (here : places[i]? = some .booting) :
    Absorbing (AgentOp.exec (.run (.failInterrupted id now)) agent).2 places ∧
      endsLast agent.db (AgentOp.exec (.run (.failInterrupted id now)) agent).2.db := by
  have rows : ∀ other, (AgentOp.exec (.run (.failInterrupted id now)) agent).2.db.tasks.find? other = _ :=
    find_tested_task agent.db id (fun row => row.status == .running || row.status == .starting) _
  have unchanged : (∀ other, (AgentOp.exec (.run (.failInterrupted id now)) agent).2.db.tasks.find? other =
        agent.db.tasks.find? other) → Absorbing (AgentOp.exec (.run (.failInterrupted id now)) agent).2 places ∧
      endsLast agent.db (AgentOp.exec (.run (.failInterrupted id now)) agent).2.db := by
    intro same
    refine ⟨absorbing_kept agent _ places holds ?_ rfl rfl, ?_⟩
    · exact fun other row found => ⟨row, (same other).trans found, same_outcome_refl row⟩
    · exact fun other row found _ => ⟨row, (same other).trans found, same_outcome_refl row⟩
  have alone : ∀ (j : Nat) begun seen, places[j]? ≠ some (TaskPlace.works id begun seen) := by
    intro j begun seen there
    have size := (holds.booting i here).2
    have iBound := (List.getElem?_eq_some_iff.mp here).1
    have jBound := (List.getElem?_eq_some_iff.mp there).1
    have same : i = j := by omega
    subst same
    cases here.symm.trans there
  cases found : agent.db.tasks.find? id with
  | none =>
      refine unchanged fun other => (rows other).trans ?_
      by_cases same : other = id
      · rw [if_pos same, same, found]
        rfl
      · rw [if_neg same]
  | some row =>
      cases interrupted : row.status == .running || row.status == .starting with
      | false =>
          refine unchanged fun other => (rows other).trans ?_
          by_cases same : other = id
          · rw [if_pos same, same, found, Option.map_some, interrupted]
            rfl
          · rw [if_neg same]
      | true =>
          rw [found, Option.map_some, interrupted] at rows
          refine ⟨absorbing_written agent _ places holds id row _ found rows rfl rfl alone ?_ ?_, ?_⟩
          · rintro (queued | running | ⟨cancelled, _⟩)
            · cases queued
            · cases running
            · cases cancelled
          · exact fun _ => ⟨nofun, fun unstarted => nomatch unstarted.1⟩
          · intro other stored there terminal
            by_cases same : other = id
            · subst same
              cases found.symm.trans there
              rcases Bool.or_eq_true_iff.mp interrupted with running | starting
              · rw [eq_of_beq running] at terminal
                cases terminal
              · rw [eq_of_beq starting] at terminal
                cases terminal
            · exact ⟨stored, (rows other).trans ((if_neg same).trans there), same_outcome_refl stored⟩

theorem absorbing_ready (here : places[i]? = some .booting) :
    Absorbing { agent with ready := true } (places.set i (.clear none)) := by
  have moved := absorbing_moved agent places holds i _ _ here (stands_clear agent places i none nofun)
  refine ⟨?_, moved.sound, moved.owned, moved.fresh, moved.single, moved.seen, moved.begun⟩
  intro j there
  rcases (located_set places i j _ _ _ here).mp there with ⟨_, same⟩ | ⟨different, before⟩
  · cases same
  · have size := (holds.booting i here).2
    have iBound := (List.getElem?_eq_some_iff.mp here).1
    have jBound := (List.getElem?_eq_some_iff.mp before).1
    omega

theorem absorbing_request_read (id : String) (seen : Option (String × Option Json)) (here : places[i]? = some (.clear seen)) :
    Absorbing agent (places.set i (.clear ((agent.db.tasks.find? id).map fun row => (id, row.result)))) := by
  refine absorbing_moved agent places holds i _ _ here (stands_clear agent places i _ ?_)
  intro other result known
  cases found : agent.db.tasks.find? id with
  | none =>
      rw [found] at known
      cases known
  | some row =>
      rw [found] at known
      cases known
      exact ⟨row, found, fun _ => rfl⟩

theorem absorbing_worker_read (id : String) (started : Bool) (seen : Option (Option Json))
    (here : places[i]? = some (.works id started seen)) (there : TaskPlace)
    (moved : there = match agent.db.tasks.find? id with
      | some row => if row.status = .running then .works id started (some row.result) else .astray
      | none => .astray) : Absorbing agent (places.set i there) := by
  obtain ⟨row, found, running, _⟩ := holds.owned i id started seen here
  rw [found] at moved
  simp only [running, if_true] at moved
  subst moved
  refine absorbing_moved agent places holds i _ _ here (stands_works agent places i id started _ row found running ?_ ?_ ?_)
  · intro result known
    exact Option.some.inj known
  · intro waiting
    subst waiting
    exact holds.fresh i id seen here
  · intro j begun read different again
    exact different (holds.single j i id begun started read seen again here)

theorem absorbing_step (worker : Bool) (op : AgentOp) (place there : TaskPlace) (here : places[i]? = some place)
    (moved : taskNext worker place op agent = some there)
    (unraced : ∀ id status result error startedAt finishedAt now,
      op = .run (.writeTask id status result error startedAt finishedAt now) → worker = false →
        ∀ row, agent.db.tasks.find? id = some row → row.status = .queued ∨ row.unstarted) :
    Absorbing (op.exec agent).2 (places.set i there) ∧ endsLast agent.db (op.exec agent).2.db := by
  unfold taskNext at moved
  split at moved
  · cases moved
    rw [set_here places i _ here]
    exact absorbing_recover agent places holds i _ _ here
  · cases moved
    exact ⟨absorbing_ready agent places holds i here, ends_last_refl agent.db⟩
  · cases moved
    rw [set_here places i _ here]
    exact ⟨holds, ends_last_refl agent.db⟩
  · cases moved
    exact ⟨absorbing_request_read agent places holds i _ _ here, ends_last_refl agent.db⟩
  · rename_i seen id status result error startedAt finishedAt now
    split at moved
    · rename_i write
      obtain ⟨request, rfl, rfl, rfl⟩ := write
      cases moved
      exact absorbing_cancel agent places holds i id result startedAt finishedAt now here
        (unraced id _ result _ startedAt finishedAt now rfl request)
    · cases moved
  · cases moved
    exact absorbing_claim agent places holds i _ _ here
  · split at moved
    · rename_i same
      subst same
      exact ⟨absorbing_worker_read agent places holds i _ _ _ here there (Option.some.inj moved).symm, ends_last_refl agent.db⟩
    · cases moved
      rw [set_here places i _ here]
      exact ⟨holds, ends_last_refl agent.db⟩
  · split at moved
    · rename_i same
      subst same
      cases moved
      exact ⟨absorbing_process agent places holds i _ _ _ here, ends_last_refl agent.db⟩
    · cases moved
  · split at moved
    · rename_i write
      obtain ⟨rfl, ends, honest⟩ := write
      cases moved
      exact absorbing_finish agent places holds i _ _ _ _ _ _ _ _ _ here ends honest
    · cases moved
  · exact absurd here (holds.sound i)
  · split at moved
    · cases moved
      obtain ⟨outcomes, started, ready⟩ := lasting_outcomes op agent ‹_›
      rw [set_here places i _ here]
      exact ⟨absorbing_kept agent _ places holds outcomes started ready, fun id row found _ => outcomes id row found⟩
    · cases moved

end step

section runs

variable (db : Database) (now : Int)

def taskOutlined (pool : AgentPool) : Prop :=
  Outlined AgentOp.exec (fun callMade => taskNext callMade.pumps) (fun _ _ _ => True) Absorbing pool

-- The task whose end the thread is about to write, where the thread serves a request.
def requestWrite : Thread AgentOp AgentOp.Result AgentError Unit AgentCall → Option String
  | ⟨callMade, .call (.run (.writeTask id _ _ _ _ _ _)) _⟩ => if callMade.pumps then none else some id
  | _ => none

-- A request that writes a task's end finds it still in the queue, or already recorded as never started.
def unracedCancel (pool : AgentPool) : AgentEvent → Prop
  | .step i => ∀ id ∈ pool.threads[i]?.bind requestWrite, ∀ row ∈ pool.state.db.tasks.find? id,
      row.status = .queued ∨ row.unstarted
  | _ => True

instance (pool : AgentPool) : (event : AgentEvent) → Decidable (unracedCancel pool event)
  | .step i => inferInstanceAs (Decidable (∀ id ∈ pool.threads[i]?.bind requestWrite,
      ∀ row ∈ pool.state.db.tasks.find? id, row.status = .queued ∨ row.unstarted))
  | .start _ => .isTrue trivial
  | .crash _ => .isTrue trivial

def agentGuarded (guard : AgentPool → AgentEvent → Prop) (pool : AgentPool) (events : List AgentEvent) : Prop :=
  ∀ before event after, events = before ++ event :: after → guard (before.foldl agentPerform pool) event

theorem agent_guarded_nil (guard : AgentPool → AgentEvent → Prop) (pool : AgentPool) : agentGuarded guard pool [] := by
  intro before event after split
  simp at split

theorem agent_guarded_cons (guard : AgentPool → AgentEvent → Prop) (pool : AgentPool) (first : AgentEvent)
    (rest : List AgentEvent) (allowed : guard pool first) (later : agentGuarded guard (agentPerform pool first) rest) :
    agentGuarded guard pool (first :: rest) := by
  intro before event after split
  cases before with
  | nil =>
      cases split
      exact allowed
  | cons head front =>
      cases split
      exact later front event after rfl

theorem task_boot_outlined (handed started : List String)
    (begun : ∀ id ∈ started, ∃ row, db.tasks.find? id = some row ∧ row.status ≠ .queued ∧ ¬ row.unstarted) :
    taskOutlined (bootPool db handed started now) := by
  have single : ∀ (i : Nat) (place : TaskPlace), [TaskPlace.booting][i]? = some place → place = .booting := by
    intro i place found
    exact List.mem_singleton.mp (List.mem_of_getElem? found)
  refine ⟨[.booting], ⟨rfl, ?_⟩, fun _ _ => ⟨rfl, rfl⟩, ?_, ?_, ?_, ?_, ?_, begun⟩
  · intro i thread place found located
    cases single i place located
    cases List.mem_singleton.mp (List.mem_of_getElem? found)
    exact call_runs (.boot now)
  · exact fun i found => nomatch single i _ found
  · exact fun i id begun seen found => nomatch single i _ found
  · exact fun i id seen found => nomatch single i _ found
  · exact fun i j id a b s t found => nomatch single i _ found
  · exact fun i id result found => nomatch single i _ found

theorem absorbing_spawn (agent : AgentState) (places : List TaskPlace) (callMade : AgentCall)
    (admitted : callMade.admitted agent = true) (holds : Absorbing agent places) :
    Absorbing agent (places ++ [taskEntry callMade]) := by
  have entry : taskEntry callMade = .clear none := by
    cases callMade with
    | boot now => cases admitted
    | _ => rfl
  have ready : agent.ready = true := by
    cases callMade with
    | boot now => cases admitted
    | _ => exact admitted
  have old : ∀ (j : Nat) (place : TaskPlace), (places ++ [taskEntry callMade])[j]? = some place → place ≠ .clear none →
      places[j]? = some place := by
    intro j place found different
    rcases located_append places j _ place found with same | before
    · exact absurd (same.trans entry) different
    · exact before
  refine ⟨?_, ?_, ?_, ?_, ?_, ?_, holds.begun⟩
  · intro j found
    have waiting := (holds.booting j (old j _ found nofun)).1
    rw [ready] at waiting
    cases waiting
  · exact fun j found => holds.sound j (old j _ found nofun)
  · exact fun j id begun seen found => holds.owned j id begun seen (old j _ found nofun)
  · exact fun j id seen found => holds.fresh j id seen (old j _ found nofun)
  · exact fun j k id a b s t first second => holds.single j k id a b s t (old j _ first nofun) (old k _ second nofun)
  · exact fun j id result found => holds.seen j id result (old j _ found nofun)

theorem task_step_outlined (pool : AgentPool) (event : AgentEvent) (allowed : unracedCancel pool event)
    (here : taskOutlined pool) :
    taskOutlined (agentPerform pool event) ∧ endsLast pool.state.db (agentPerform pool event).state.db := by
  obtain ⟨places, aligned, holds⟩ := here
  cases event with
  | start callMade =>
      by_cases admitted : callMade.admitted pool.state = true
      · rw [agentPerform, if_pos admitted]
        refine ⟨⟨places ++ [taskEntry callMade], ?_, absorbing_spawn _ places callMade admitted holds⟩, ends_last_refl _⟩
        exact aligned_append _ _ _ _ _ aligned _ _ (call_runs callMade)
      · rw [agentPerform, if_neg admitted]
        exact ⟨⟨places, aligned, holds⟩, ends_last_refl _⟩
  | crash now => exact ⟨task_boot_outlined _ now _ _ holds.begun, ends_last_refl _⟩
  | step i =>
      rcases advance_cases AgentOp.exec pool i with lost | ⟨callMade, op, rest, found, taken⟩
      · rw [agentPerform, lost]
        exact ⟨⟨places, aligned, holds⟩, ends_last_refl _⟩
      · obtain ⟨place, located, follows⟩ := aligned_place _ _ _ _ _ aligned i _ found
        obtain ⟨there, moved, later⟩ := follows pool.state
        have step := absorbing_step pool.state places holds i callMade.pumps op place there located moved (by
          intro id status result error startedAt finishedAt now same request
          subst same
          refine allowed id ?_
          rw [found, Option.bind_some, requestWrite, request]
          exact rfl)
        rw [agentPerform, taken]
        refine ⟨⟨places.set i there, ?_, step.1⟩, step.2⟩
        exact aligned_set _ _ _ _ _ aligned i ⟨callMade, rest (op.exec pool.state).1⟩ there later

theorem task_run_outlined (events : List AgentEvent) (guarded : agentGuarded unracedCancel (bootPool db [] [] now) events) :
    taskOutlined (agentRun db now events) := by
  induction events using List.reverseRecOn with
  | nil => exact task_boot_outlined db now [] [] fun _ member => nomatch member
  | append_singleton front last ih =>
      have before : taskOutlined (agentRun db now front) := by
        refine ih fun before event after split => ?_
        exact guarded before event (after ++ [last]) (by rw [split]; simp)
      rw [agent_run_append]
      exact (task_step_outlined _ last (guarded front last [] rfl) before).1

-- In every run of the whole agent, crashes included, in which no request writes its end over a task
-- that has been claimed meanwhile: an end lasts, and no process runs for a task that never started.
theorem unraced_ends_last (events : List AgentEvent) (guarded : agentGuarded unracedCancel (bootPool db [] [] now) events) :
    (∀ before after, events = before ++ after → endsLast (agentRun db now before).state.db (agentRun db now events).state.db) ∧
      ∀ id ∈ (agentRun db now events).state.started, ∀ row,
        (agentRun db now events).state.db.tasks.find? id = some row → ¬ row.unstarted := by
  refine ⟨?_, ?_⟩
  · intro before after split
    induction after generalizing before with
    | nil =>
        rw [List.append_nil] at split
        subst split
        exact ends_last_refl _
    | cons event rest ih =>
        have reached : taskOutlined (agentRun db now before) := by
          refine task_run_outlined db now before fun front next later same => ?_
          exact guarded front next (later ++ event :: rest) (by rw [split, same]; simp)
        have step := (task_step_outlined _ event (guarded before event rest split) reached).2
        intro id row found terminal
        obtain ⟨middle, there, first⟩ := step id row found terminal
        obtain ⟨last, reached, second⟩ := ih (before ++ [event]) (by rw [split]; simp) id middle
          (by rw [agent_run_append]; exact there) (by rw [first.status]; exact terminal)
        exact ⟨last, reached, same_outcome_trans row middle last first second⟩
  · intro id member row found unstarted
    obtain ⟨places, _, holds⟩ := task_run_outlined db now events guarded
    obtain ⟨stored, there, _, honest⟩ := holds.begun id member
    cases found.symm.trans there
    exact honest unstarted

end runs

-- Ready after two steps; the request reads the task twice, flags it, reads it again and writes.
theorem unraced_cancel_ends :
    let events : List AgentEvent :=
      [.step 0, .step 0, .start (.cancel "task" 1 2 3), .step 1, .step 1, .step 1, .step 1, .step 1]
    endsLast (agentRun queuedDb 0 (events.take 7)).state.db (agentRun queuedDb 0 events).state.db := by
  intro events
  refine (unraced_ends_last queuedDb 0 events ?_).1 (events.take 7) (events.drop 7) rfl
  refine agent_guarded_cons _ _ _ _ ?_ <| agent_guarded_cons _ _ _ _ ?_ <| agent_guarded_cons _ _ _ _ trivial <|
    agent_guarded_cons _ _ _ _ ?_ <| agent_guarded_cons _ _ _ _ ?_ <| agent_guarded_cons _ _ _ _ ?_ <|
    agent_guarded_cons _ _ _ _ ?_ <| agent_guarded_cons _ _ _ _ ?_ <| agent_guarded_nil _ _
  all_goals decide

-- What the host answers for a command that runs and exits with 0.
def quietRun : Execution where
  resolveExecutable := .ok "/bin/true"
  construct := .ok ()
  start := .ok ()
  wait := .ok ⟨some 0, false, "", "", 0, 0, false, false⟩
  now := 6

-- The request reads the task in the queue; the worker claims it, runs it and records its success; then
-- the request writes its end over it.
theorem raced_cancel_overrules :
    let events : List AgentEvent :=
      [.step 0, .step 0, .start (.cancel "task" 1 2 3), .step 1, .step 1, .start (.pumpOnce ⟨4, 5, 5, 5, quietRun⟩)] ++
        List.replicate 15 (.step 2) ++ List.replicate 3 (.step 1)
    let stored (n : Nat) := ((agentRun queuedDb 0 (events.take n)).state.db.tasks.find? "task").map fun row =>
      (row.status, row.error)
    stored 21 = some (.succeeded, none) ∧ stored 24 = some (.cancelled, some cancelledBeforeStart) ∧
      (agentRun queuedDb 0 events).state.started = ["task"] := by
  decide

end Vacps
