import Vacps.ControlPlane.TaskService

/- The status D1 stores of a task, over interleaved create, detail, cancel and retry calls and the agent's
   own moves. What a call writes it has decided on something it read before. -/
set_option autoImplicit false

namespace Vacps.Tasks

open Library

def isFinal (status : TaskStatus) : Bool := [TaskStatus.succeeded, .failed, .cancelled, .timed_out].contains status

-- Outcomes the service has from the agent only.
def isReported (status : TaskStatus) : Bool := [TaskStatus.succeeded, .failed, .timed_out].contains status

theorem reported_terminal (status : TaskStatus) (reported : isReported status = true) : isTerminalTaskStatus status = true := by
  cases status <;> first | rfl | cases reported

theorem reported_final (status : TaskStatus) (reported : isReported status = true) : isFinal status = true := by
  cases status <;> first | rfl | cases reported

theorem final_cases (status : TaskStatus) (final : isFinal status = true) : status = .cancelled ∨ isReported status = true := by
  cases status <;> first | exact Or.inl rfl | exact Or.inr rfl | cases final

-- The row a statement gives a status, or none where it takes the row away.
def writes : TaskOp → Option (String × Option TaskStatus)
  | .updateTask (.setStatus status _) id => some (id, some status)
  | .updateTask (.finish status _ _ _ _ _) id => some (id, some status)
  | .deleteTask id => some (id, none)
  | _ => none

def effect (op : TaskOp) (target : String × Option TaskStatus) : Prop := writes op = some target

def observes : TaskOp → Prop
  | .selectTask _ => True
  | .insertTask _ => True
  | .getTask _ _ => True
  | .cancelTask _ _ => True
  | .retryTask _ _ => True
  -- After a final status is written the call starts anew.
  | op => ∃ id status, writes op = some (id, some status) ∧ isFinal status = true

section rows

variable (state : TasksState)

theorem request_tasks {Reply : Type} (serve : TasksState → Except AppError Reply × TasksState)
    (keeps : ∀ sent, (serve sent).2.tasks = sent.tasks) : (state.request serve).2.tasks = state.tasks := by
  simp only [TasksState.request]
  split
  · rfl
  · split
    · exact keeps _
    · exact keeps _

theorem request_remote {Reply : Type} (serve : TasksState → Except AppError Reply × TasksState) (id : String) (status : TaskStatus)
    (keeps : ∀ sent : TasksState, sent.remote id = some status → (serve sent).2.remote id = some status)
    (here : state.remote id = some status) : (state.request serve).2.remote id = some status := by
  simp only [TasksState.request]
  split
  · exact here
  · split
    · exact keeps _ here
    · exact keeps _ here

theorem request_answer {Reply : Type} (serve : TasksState → Except AppError Reply × TasksState) (reply : Reply)
    (answered : (state.request serve).1 = .ok reply) :
    ∃ sent : TasksState, sent.remote = state.remote ∧ sent.tasks = state.tasks ∧ (serve sent).1 = .ok reply := by
  simp only [TasksState.request] at answered
  split at answered
  · cases answered
  · split at answered
    · cases answered
    · refine ⟨{ state with requests := state.requests + 1 }, rfl, rfl, ?_⟩
      revert answered
      cases (serve { state with requests := state.requests + 1 }).1 with
      | ok value =>
          intro same
          cases same
          rfl
      | error error =>
          intro same
          cases same

theorem serve_create_tasks (id : String) : (serveCreate id state).2.tasks = state.tasks := by
  simp only [serveCreate]
  split <;> rfl

theorem serve_get_state (id : String) : (serveGet id state).2 = state := by
  simp only [serveGet]
  split <;> rfl

theorem serve_cancel_tasks (id : String) : (serveCancel id state).2.tasks = state.tasks := by
  simp only [serveCancel]
  split
  · rfl
  · split
    · rfl
    · dsimp only
      split <;> rfl

theorem serve_retry_tasks (id newId : String) : (serveRetry id newId state).2.tasks = state.tasks := by
  simp only [serveRetry]
  split
  · rfl
  · split
    · exact serve_create_tasks state newId
    · rfl

theorem serve_create_remote (newId id : String) (status : TaskStatus) (here : state.remote id = some status) :
    (serveCreate newId state).2.remote id = some status := by
  simp only [serveCreate]
  split
  · rename_i absent
    have apart : id ≠ newId := by
      rintro rfl
      rw [here] at absent
      cases absent
    simp only [TasksState.agentHas, if_neg apart, here]
  · exact here

theorem serve_cancel_remote (cancelled id : String) (status : TaskStatus) (terminal : isTerminalTaskStatus status = true)
    (here : state.remote id = some status) : (serveCancel cancelled state).2.remote id = some status := by
  simp only [serveCancel]
  split
  · exact here
  · split
    · exact here
    · rename_i other found live
      dsimp only
      split
      · have apart : id ≠ cancelled := by
          rintro rfl
          rw [here] at found
          cases found
          exact live terminal
        simp only [TasksState.agentHas, if_neg apart, here]
      · exact here

-- The agent's own life cycle is monotone.
theorem remote_stays (op : TaskOp) (id : String) (status : TaskStatus) (terminal : isTerminalTaskStatus status = true)
    (here : state.remote id = some status) : (op.exec state).2.remote id = some status := by
  cases op with
  | insertTask row =>
      simp only [TaskOp.exec]
      split
      · exact here
      · simp only [TasksState.insert]
        split <;> exact here
  | insertTaskOrIgnore row =>
      simp only [TaskOp.exec]
      split
      · exact here
      · simp only [TasksState.insert]
        split <;> exact here
  | upsertTombstone tombstone =>
      simp only [TaskOp.exec]
      split <;> exact here
  | getCapabilities backendId => exact request_remote state _ id status (fun _ same => same) here
  | createTask backendId task =>
      exact request_remote state _ id status (fun sent same => serve_create_remote sent task.task_id id status same) here
  | getTask backendId other =>
      refine request_remote state _ id status (fun sent same => ?_) here
      rw [serve_get_state]
      exact same
  | cancelTask backendId other =>
      exact request_remote state _ id status (fun sent same => serve_cancel_remote sent other id status terminal same) here
  | retryTask backendId other =>
      refine request_remote state _ id status (fun sent same => ?_) here
      simp only [serveRetry]
      split
      · exact same
      · split
        · exact serve_create_remote sent _ id status same
        · exact same
  | agentMoves other next =>
      simp only [TaskOp.exec]
      split
      · by_cases moved : id = other
        · subst moved
          simp only [TasksState.agentHas, if_true, here, advance, terminal]
        · simp only [TasksState.agentHas, if_neg moved, here]
      · exact here
  | _ => exact here

-- A statement that changes a row without giving it a status.
theorem change_status (statement : TaskStatement) (id : String) (unwritten : writes (.updateTask statement id) = none)
    (row : TaskRow) : (statement.change row).status = row.status := by
  cases statement <;> first | rfl | cases unwritten

def permitted : TaskOp → Prop
  | .insertTask row => row.status = .created
  | .insertTaskOrIgnore row => row.status = .queued
  | _ => True

-- What a call does to the row under an id.
inductive RowStep (op : TaskOp) (id : String) : Option TaskStatus → Option TaskStatus → Prop where
  | same (status : Option TaskStatus) : RowStep op id status status
  | written (before after : TaskStatus) (write : writes op = some (id, some after)) : RowStep op id (some before) (some after)
  | gone (before : Option TaskStatus) (write : writes op = some (id, none)) : RowStep op id before none
  | inserted (after : TaskStatus) (fresh : after = .created ∨ after = .queued) : RowStep op id none (some after)

def TasksState.statusOf (state : TasksState) (id : String) : Option TaskStatus := (state.tasks.find? id).map (·.status)

theorem insert_step (op : TaskOp) (id : String) (row : TaskRow) (fresh : row.status = .created ∨ row.status = .queued) :
    RowStep op id (state.statusOf id) ((state.insert row).statusOf id) := by
  rw [TasksState.insert]
  split
  · rename_i free
    simp only [TasksState.statusOf, Table.find_insert]
    by_cases same : row.id = id
    · subst same
      rw [if_pos rfl, free]
      exact .inserted row.status fresh
    · rw [if_neg same]
      exact .same _
  · exact .same _

theorem row_step (op : TaskOp) (allowed : permitted op) (id : String) :
    RowStep op id (state.statusOf id) ((op.exec state).2.statusOf id) := by
  have untouched : (op.exec state).2.tasks = state.tasks → RowStep op id (state.statusOf id) ((op.exec state).2.statusOf id) := by
    intro still
    rw [TasksState.statusOf, TasksState.statusOf, still]
    exact .same _
  cases op with
  | insertTask row =>
      simp only [TaskOp.exec]
      split
      · exact .same _
      · exact insert_step state _ id row (Or.inl allowed)
  | insertTaskOrIgnore row =>
      simp only [TaskOp.exec]
      split
      · exact .same _
      · exact insert_step state _ id row (Or.inr allowed)
  | updateTask statement other =>
      have found := Table.find_update state.tasks (fun row => decide (row.id = other) && statement.selects row) statement.change
        (change_id statement) id
      have here : (TaskOp.exec (.updateTask statement other) state).2.statusOf id =
          (state.tasks.find? id).map fun row => (if decide (row.id = other) && statement.selects row then statement.change row else row).status := by
        refine (congrArg (Option.map (·.status)) found).trans ?_
        rw [Option.map_map]
        rfl
      rw [here, TasksState.statusOf]
      cases stored : state.tasks.find? id with
      | none => exact .same none
      | some row =>
          have key := Table.find_key state.tasks id row stored
          simp only [Option.map_some]
          split
          · rename_i selected
            rw [Bool.and_eq_true, decide_eq_true_eq] at selected
            have same : id = other := key.symm.trans selected.1
            subst same
            cases write : writes (.updateTask statement id) with
            | none =>
                rw [change_status statement id write]
                exact .same _
            | some target =>
                refine .written _ _ ?_
                cases statement <;> first | rfl | cases write
          · exact .same _
  | deleteTask other =>
      have found := Table.find_delete state.tasks other id
      have here : (TaskOp.exec (.deleteTask other) state).2.statusOf id =
          (if other = id then none else state.tasks.find? id).map (·.status) :=
        congrArg (Option.map fun row : TaskRow => row.status) found
      rw [here]
      by_cases same : other = id
      · subst same
        rw [if_pos rfl]
        exact .gone _ rfl
      · rw [if_neg same]
        exact .same _
  | upsertTombstone tombstone =>
      apply untouched
      simp only [TaskOp.exec]
      split <;> rfl
  | getCapabilities backendId => exact untouched (request_tasks state _ fun _ => rfl)
  | createTask backendId task => exact untouched (request_tasks state _ fun sent => serve_create_tasks sent task.task_id)
  | getTask backendId other =>
      refine untouched (request_tasks state _ fun sent => ?_)
      rw [serve_get_state]
  | cancelTask backendId other => exact untouched (request_tasks state _ fun sent => serve_cancel_tasks sent other)
  | retryTask backendId other => exact untouched (request_tasks state _ fun sent => serve_retry_tasks sent other _)
  | agentMoves other next =>
      apply untouched
      simp only [TaskOp.exec]
      split <;> rfl
  | _ => exact .same _

end rows

-- Every outcome D1 has of a task is the one its agent has.
def Agrees (state : TasksState) : Prop :=
  ∀ id status, state.statusOf id = some status → isReported status = true → state.remote id = some status

-- The row may be given the status: it has no final one or just this, and an outcome is the agent's.
structure Licensed (state : TasksState) (target : String × Option TaskStatus) : Prop where
  row : ∀ status, state.statusOf target.1 = some status → isFinal status = true → target.2 = some status
  outcome : ∀ status, target.2 = some status → isReported status = true → state.remote target.1 = some status

section licences

variable (state : TasksState) (op : TaskOp)

theorem agrees_next (allowed : permitted op) (agrees : Agrees state)
    (own : ∀ target, effect op target → Licensed state target) : Agrees (op.exec state).2 := by
  intro id status stored reported
  have step := row_step state op allowed id
  rw [stored] at step
  have before : state.remote id = some status := by
    generalize earlier : state.statusOf id = old at step
    cases step with
    | same => exact agrees id status earlier reported
    | written before after write => exact (own _ write).outcome status rfl reported
    | inserted after fresh =>
        rcases fresh with rfl | rfl <;> cases reported
  exact remote_stays state op id status (reported_terminal status reported) before

-- A licence is lost only to a final status that another call writes.
theorem licensed_next (allowed : permitted op) (target : String × Option TaskStatus) (licensed : Licensed state target)
    (unfinished : ∀ status, writes op = some (target.1, some status) → isFinal status = true → target.2 = some status) :
    Licensed (op.exec state).2 target where
  row := by
    intro status stored final
    have step := row_step state op allowed target.1
    rw [stored] at step
    generalize earlier : state.statusOf target.1 = old at step
    cases step with
    | same => exact licensed.row status earlier final
    | written before after write => exact unfinished status write final
    | inserted after fresh =>
        rcases fresh with rfl | rfl <;> cases final
  outcome := by
    intro status same reported
    exact remote_stays state op target.1 status (reported_terminal status reported) (licensed.outcome status same reported)

-- What an observation lets the call decide.
def granted : TaskOp → TasksState → String × Option TaskStatus → Prop
  | .insertTask row, state, target =>
      target.1 = row.id ∧ (∀ status, target.2 = some status → isFinal status = false) ∧
        (TaskOp.exec (.insertTask row) state).1 = .ok ()
  | .getTask backendId id, state, target =>
      target.1 = id ∧ ∃ status, target.2 = some status ∧ (TaskOp.exec (.getTask backendId id) state).1 = .ok (some status)
  | .cancelTask backendId id, state, target =>
      target = (id, some .cancelled) ∧ ∃ reply, (TaskOp.exec (.cancelTask backendId id) state).1 = .ok reply
  | .retryTask _ id, state, _ => (state.exchanges state.requests).newId = id
  | _, _, _ => False

theorem inserted_licensed (row : TaskRow) (created : row.status = .created) (target : String × Option TaskStatus)
    (grants : granted (.insertTask row) state target) : Licensed (TaskOp.exec (.insertTask row) state).2 target := by
  obtain ⟨same, open_, ok⟩ := grants
  have fresh : (TaskOp.exec (.insertTask row) state).2.statusOf target.1 = some .created := by
    simp only [TaskOp.exec] at ok ⊢
    split at ok
    · cases ok
    · rename_i free
      have absent : state.tasks.find? row.id = none := by
        cases stored : state.tasks.find? row.id with
        | none => rfl
        | some other => simp [taken, stored] at free
      rw [if_neg free, TasksState.insert, dif_pos absent, TasksState.statusOf, Table.find_insert, if_pos same.symm,
        Option.map_some, created]
  constructor
  · intro status stored final
    rw [fresh] at stored
    cases stored
    cases final
  · intro status here reported
    have never := open_ status here
    rw [reported_final status reported] at never
    cases never

theorem answered_licensed (agrees : Agrees state) (backendId id : String) (target : String × Option TaskStatus)
    (grants : granted (.getTask backendId id) state target)
    (honest : ∀ status, (TaskOp.exec (.getTask backendId id) state).1 = .ok (some status) →
      state.statusOf id = some .cancelled → status = .cancelled) :
    Licensed (TaskOp.exec (.getTask backendId id) state).2 target := by
  obtain ⟨same, status, here, answered⟩ := grants
  have remote : state.remote id = some status := by
    obtain ⟨sent, remotes, _, served⟩ := request_answer state _ _ answered
    rw [← remotes]
    simp only [serveGet] at served
    split at served
    · cases served
    · rename_i found known
      rw [known]
      simp only [extractStatus] at served
      split at served
      · cases served
      · cases served
        rfl
  have tasks : (TaskOp.exec (.getTask backendId id) state).2.statusOf id = state.statusOf id := by
    have still : (TaskOp.exec (.getTask backendId id) state).2.tasks = state.tasks := by
      refine request_tasks state _ fun sent => ?_
      rw [serve_get_state]
    rw [TasksState.statusOf, still, TasksState.statusOf]
  constructor
  · intro stored found final
    rw [same, tasks] at found
    rcases final_cases stored final with rfl | reported
    · rw [here, honest status answered found]
    · have known := agrees id stored found reported
      rw [remote] at known
      rw [here, known]
  · intro other again reported
    rw [here] at again
    cases again
    rw [same]
    exact remote_stays state _ id status (reported_terminal status reported) remote

theorem cancelled_licensed (agrees : Agrees state) (backendId id : String) (target : String × Option TaskStatus)
    (grants : granted (.cancelTask backendId id) state target) :
    Licensed (TaskOp.exec (.cancelTask backendId id) state).2 target := by
  obtain ⟨rfl, reply, answered⟩ := grants
  have live : ∀ status, state.remote id = some status → isTerminalTaskStatus status = false := by
    intro status known
    obtain ⟨sent, remotes, _, served⟩ := request_answer state _ _ answered
    simp only [serveCancel, remotes, known] at served
    split at served
    · cases served
    · rename_i open_
      simpa using open_
  have tasks : (TaskOp.exec (.cancelTask backendId id) state).2.statusOf id = state.statusOf id := by
    have still := request_tasks state _ fun sent => serve_cancel_tasks sent id
    exact congrArg (fun tasks : Table String TaskRow TaskRow.id => (tasks.find? id).map (·.status)) still
  constructor
  · intro status found final
    rw [tasks] at found
    rcases final_cases status final with rfl | reported
    · rfl
    · have known := live status (agrees id status found reported)
      rw [reported_terminal status reported] at known
      cases known
  · intro status same reported
    cases same
    cases reported

end licences

section programs

variable (platform : Platform) (hashOpaque : Hashed → String)

-- Neither writes a status nor inserts a row.
def harmless (op : TaskOp) : Prop := permitted op ∧ ∀ target, ¬ effect op target

-- Writes the status only of this task, and looks at nothing.
def openWrite (id : String) (op : TaskOp) : Prop :=
  permitted op ∧ ¬ observes op ∧
    ∀ target, effect op target → target.1 = id ∧ ∀ status, target.2 = some status → isFinal status = false

def onlyWrite (id : String) (status : TaskStatus) (op : TaskOp) : Prop :=
  permitted op ∧ ∀ target, effect op target → target = (id, some status)

theorem unwritten (op : TaskOp) (still : writes op = none) (target : String × Option TaskStatus) : ¬ effect op target := by
  intro here
  rw [effect, still] at here
  cases here

theorem call_harmless (op : TaskOp) (allowed : permitted op) (still : writes op = none) : (call op).Uses harmless := by
  apply uses_perform
  exact ⟨allowed, unwritten op still⟩

theorem harmless_idle {α : Type} (program : Service α) (uses : program.Uses harmless) (target : String × Option TaskStatus) :
    ¬ program.Aims effect observes target :=
  harmless_aims effect observes program (uses_mono _ _ (fun _ here => here.2) program uses) target

theorem harmless_sound {α : Type} (program : Service α) (uses : program.Uses harmless) :
    program.Grounded effect observes TaskOp.exec granted :=
  harmless_grounded effect observes TaskOp.exec granted program (uses_mono _ _ (fun _ here => here.2) program uses)

theorem get_harmless (id : String) (includeDeleted : Bool) : (get id includeDeleted).Uses harmless := by
  refine uses_bind _ _ _ (call_harmless _ trivial rfl) fun row => ?_
  cases row with
  | none => exact trivial
  | some row =>
      dsimp only
      split <;> exact trivial

theorem backend_harmless (id : String) : (getBackend id).Uses harmless := by
  refine uses_bind _ _ _ (call_harmless _ trivial rfl) fun enabled => ?_
  cases enabled <;> exact trivial

theorem find_harmless (backendId key : String) : (findByIdempotency backendId key).Uses harmless := by
  refine uses_bind _ _ _ (call_harmless _ trivial rfl) fun now => ?_
  refine uses_bind _ _ _ (uses_attempt _ _ (call_harmless _ trivial rfl)) fun found => ?_
  have fallback : (do
      let row ← call (.selectTaskByIdempotency backendId key)
      pure (row.map toTaskIndex) : Service (Option TaskIndex)).Uses harmless :=
    uses_bind _ _ _ (call_harmless _ trivial rfl) fun _ => trivial
  cases found with
  | error error => exact fallback
  | ok tomb =>
      dsimp only
      cases tomb.bind fun tomb => (truthy tomb.task_id).map fun taskId => (tomb, taskId) with
      | none => exact fallback
      | some tomb =>
          dsimp only
          split
          · exact trivial
          · refine uses_bind _ _ _ (call_harmless _ trivial rfl) fun live => ?_
            cases live <;> exact trivial

theorem reuse_harmless (existing : TaskIndex) (requestHash : String) : (reuse existing requestHash).Uses harmless := by
  simp only [reuse]
  split
  · split <;> exact trivial
  · exact trivial

theorem preflight_harmless (backendId : String) : (preflight backendId).Uses harmless := by
  refine uses_bind _ _ _ (uses_attempt _ _ (uses_bind _ _ _ (call_harmless _ trivial rfl) fun available => ?_)) fun checked => ?_
  · split <;> exact trivial
  · split
    · split <;> exact trivial
    · exact trivial

-- setStatus reads what the final columns are made of and writes once.
theorem set_status_writes (id : String) (status : TaskStatus) : (setStatus platform id status).Uses (onlyWrite id status) := by
  refine uses_bind _ _ _ (uses_perform _ _ ⟨trivial, fun _ never => by cases never⟩) fun now => ?_
  split
  · refine uses_perform _ _ ⟨trivial, fun target here => ?_⟩
    exact (Option.some.inj here).symm
  · refine uses_bind _ _ _ (uses_perform _ _ ⟨trivial, fun _ never => by cases never⟩) fun row => ?_
    refine uses_perform _ _ ⟨trivial, fun target here => ?_⟩
    exact (Option.some.inj here).symm

theorem set_status_sound (id : String) (status : TaskStatus) :
    (setStatus platform id status).Grounded effect observes TaskOp.exec granted := by
  have last : ∀ statement, (call (.updateTask statement id)).Grounded effect observes TaskOp.exec granted := by
    intro statement state
    exact ⟨fun _ _ aims => False.elim aims, trivial⟩
  have clock : (call .readClock).Uses fun op => ¬ observes op := by
    apply uses_perform
    rintro ⟨_, _, never, _⟩
    cases never
  refine grounded_blind effect observes TaskOp.exec granted _ _ clock fun now => ?_
  split
  · exact last _
  · have columns : (call (.selectRetention id)).Uses fun op => ¬ observes op := by
      apply uses_perform
      rintro ⟨_, _, never, _⟩
      cases never
    exact grounded_blind effect observes TaskOp.exec granted _ _ columns fun row => last _

theorem set_status_aims (id : String) (status : TaskStatus) (target : String × Option TaskStatus)
    (aims : (setStatus platform id status).Aims effect observes target) : target = (id, some status) := by
  obtain ⟨op, allowed, here⟩ := aims_used effect observes (onlyWrite id status) _ (set_status_writes platform id status) target aims
  exact allowed.2 target here

-- A status that is not final is written blindly.
theorem open_writes (id : String) (status : TaskStatus) (unfinished : isFinal status = false) :
    (setStatus platform id status).Uses (openWrite id) := by
  have updates : ∀ statement, writes (.updateTask statement id) = some (id, some status) →
      openWrite id (.updateTask statement id) := by
    intro statement write
    refine ⟨trivial, ?_, ?_⟩
    · rintro ⟨other, again, here, final⟩
      rw [write] at here
      cases here
      rw [unfinished] at final
      cases final
    · intro target here
      cases write.symm.trans here
      refine ⟨rfl, fun again same => ?_⟩
      cases same
      exact unfinished
  have reads : ∀ op, permitted op → writes op = none → ¬ observes op → openWrite id op := by
    intro op allowed still blind
    refine ⟨allowed, blind, fun target here => ?_⟩
    rw [effect, still] at here
    cases here
  refine uses_bind _ _ _ (uses_perform _ _ (reads _ trivial rfl ?_)) fun now => ?_
  · rintro ⟨_, _, never, _⟩
    cases never
  · split
    · exact uses_perform _ _ (updates _ rfl)
    · refine uses_bind _ _ _ (uses_perform _ _ (reads _ trivial rfl ?_)) fun row => uses_perform _ _ (updates _ rfl)
      rintro ⟨_, _, never, _⟩
      cases never

abbrev StatusCareful {α : Type} (program : Service α) : Prop := Careful effect observes TaskOp.exec granted permitted program

-- What follows a look: a write of a status, and then another look.
structure Decided {α : Type} (id : String) (status : TaskStatus) (program : Service α) : Prop where
  uses : program.Uses permitted
  sound : program.Grounded effect observes TaskOp.exec granted
  aims : ∀ target, program.Aims effect observes target → target = (id, some status)

theorem careful_decided {α : Type} (id : String) (status : TaskStatus) (program : Service α) (careful : StatusCareful program) :
    Decided id status program := ⟨careful.uses, careful.sound, fun target aims => absurd aims (careful.idle target)⟩

theorem status_decided {α : Type} (id : String) (status : TaskStatus) (later : Service α) (careful : StatusCareful later) :
    Decided id status (do setStatus platform id status; later) where
  uses := uses_bind _ _ _ (uses_mono _ _ (fun _ here => here.1) _ (set_status_writes platform id status)) fun _ => careful.uses
  sound := grounded_bind effect observes TaskOp.exec granted _ _ (set_status_sound platform id status) (fun _ => careful.sound)
    fun _ => careful.idle
  aims := by
    intro target aims
    rcases aims_bind effect observes _ _ target aims with here | ⟨_, there⟩
    · exact set_status_aims platform id status target here
    · exact absurd there (careful.idle target)

theorem detail_careful (id : String) : StatusCareful (detail platform id) := by
  refine careful_bind _ _ (harmless_careful _ (get_harmless id false)) fun task => ?_
  refine careful_bind _ _ (harmless_careful _ (backend_harmless task.backendId)) fun _ => ?_
  refine careful_bind _ _ (careful_attempt _ ?_) fun refreshed => ?_
  · have row : StatusCareful (get id false) := harmless_careful _ (get_harmless id false)
    have decided : ∀ status, Decided id status (do
        if status ≠ task.status then setStatus platform id status
        get id false : Service TaskIndex) := by
      intro status
      by_cases changed : status ≠ task.status
      · simp only [if_pos changed]
        exact status_decided platform id status _ row
      · simp only [if_neg changed]
        exact careful_decided id status _ row
    refine careful_look _ _ trivial trivial (unwritten _ rfl) ?_ ?_ ?_
    · intro status
      cases status with
      | none => exact row.uses
      | some status => exact (decided status).uses
    · intro status
      cases status with
      | none => exact row.sound
      | some status => exact (decided status).sound
    · intro state status answered target aims
      cases status with
      | none => exact absurd aims (row.idle target)
      | some status =>
          rw [(decided status).aims target aims]
          exact ⟨rfl, status, rfl, answered⟩
  · cases refreshed <;> exact harmless_careful _ trivial

theorem cancel_careful (id : String) (key : Option String) : StatusCareful (cancel platform hashOpaque id key) := by
  apply replaying_careful _ _ _ _ (fun _ => ⟨trivial, unwritten _ rfl⟩) fun _ => ⟨trivial, unwritten _ rfl⟩
  refine careful_bind _ _ (harmless_careful _ (get_harmless id false)) fun task => ?_
  dsimp only
  split
  · exact harmless_careful _ trivial
  · split
    · exact harmless_careful _ trivial
    · refine careful_bind _ _ (harmless_careful _ (backend_harmless task.backendId)) fun _ => ?_
      have decided : ∀ result : CancelReply, Decided id .cancelled (do
          if result.cancelled ≠ some false then setStatus platform id .cancelled
          let refreshed ← get id false
          pure ⟨refreshed, some result, none, result.cancelled != some false⟩ : Service CancelBody) := by
        intro result
        have row : StatusCareful (do
            let refreshed ← get id false
            pure ⟨refreshed, some result, none, result.cancelled != some false⟩ : Service CancelBody) :=
          careful_bind _ _ (harmless_careful _ (get_harmless id false)) fun _ => harmless_careful _ trivial
        by_cases stopped : result.cancelled ≠ some false
        · simp only [if_pos stopped]
          exact status_decided platform id .cancelled _ row
        · simp only [if_neg stopped]
          exact careful_decided id .cancelled _ row
      refine careful_look _ _ trivial trivial (unwritten _ rfl) (fun result => (decided result).uses) (fun result => (decided result).sound) ?_
      intro state result answered target aims
      exact ⟨(decided result).aims target aims, result, answered⟩

-- The agent took the retry under a new id, or under the task's own.
def renamedRetry (id : String) (original : TaskIndex) (taskId : String) (result : RetryReply) : Service RetryBody := do
  let now ← call .readClock
  let _ ← (call (.insertTaskOrIgnore (retriedRow original taskId now))).attempt
  let task ← (get taskId false).attempt
  match task with
  | .ok task => pure ⟨task, result, id⟩
  | .error _ => pure ⟨{ original with id := taskId, status := .queued, retryOfTaskId := some id }, result, id⟩

theorem retry_careful (id : String) (key : Option String) : StatusCareful (retry platform hashOpaque id key) := by
  apply replaying_careful _ _ _ _ (fun _ => ⟨trivial, unwritten _ rfl⟩) fun _ => ⟨trivial, unwritten _ rfl⟩
  refine careful_bind _ _ (harmless_careful _ (get_harmless id false)) fun original => ?_
  refine careful_bind _ _ (harmless_careful _ (backend_harmless original.backendId)) fun _ => ?_
  have renamed : ∀ taskId (result : RetryReply), StatusCareful (renamedRetry id original taskId result) := by
    intro taskId result
    refine careful_bind _ _ (harmless_careful _ (call_harmless _ trivial rfl)) fun now => ?_
    refine careful_bind _ _ (careful_attempt _ (harmless_careful _ (call_harmless _ rfl rfl))) fun _ => ?_
    refine careful_bind _ _ (careful_attempt _ (harmless_careful _ (get_harmless taskId false))) fun task => ?_
    cases task <;> exact harmless_careful _ trivial
  have same : ∀ result : RetryReply, Decided id .queued (do
      setStatus platform id .queued
      let task ← get id false
      pure ⟨task, result, id⟩ : Service RetryBody) := by
    intro result
    apply status_decided
    exact careful_bind _ _ (harmless_careful _ (get_harmless id false)) fun _ => harmless_careful _ trivial
  refine careful_look _ _ trivial trivial (unwritten _ rfl) ?_ ?_ ?_
  · intro result
    split
    · exact (renamed _ result).uses
    · exact (same result).uses
  · intro result
    split
    · exact (renamed _ result).sound
    · exact (same result).sound
  · intro state result answered target aims
    split at aims
    · exact absurd aims ((renamed _ result).idle target)
    · rename_i kept
      obtain ⟨sent, _, _, served⟩ := request_answer state _ _ answered
      simp only [serveRetry] at served
      split at served
      · cases served
      · split at served
        · cases served
          simpa [granted] using kept
        · cases served

-- A new task's row gets no final status before the call looks at it again.
def startWrite (id : String) (op : TaskOp) : Prop :=
  permitted op ∧ ∀ target, effect op target → target.1 = id ∧ ∀ status, target.2 = some status → isFinal status = false

theorem harmless_start (id : String) {α : Type} (program : Service α) (uses : program.Uses harmless) :
    program.Uses (startWrite id) :=
  uses_mono _ _ (fun _ here => ⟨here.1, fun target effect => absurd effect (here.2 target)⟩) program uses

theorem open_start (id : String) {α : Type} (program : Service α) (uses : program.Uses (openWrite id)) :
    program.Uses (startWrite id) := uses_mono _ _ (fun _ here => ⟨here.1, here.2.2⟩) program uses

theorem open_blind (id : String) {α : Type} (program : Service α) (uses : program.Uses (openWrite id)) :
    program.Uses fun op => ¬ observes op := uses_mono _ _ (fun _ here => here.2.1) program uses

theorem create_task_open (id backendId : String) (task : TaskDispatch) :
    (call (.createTask backendId task)).Uses (openWrite id) := by
  refine uses_perform _ _ ⟨trivial, ?_, fun target never => by cases never⟩
  rintro ⟨_, _, never, _⟩
  cases never

theorem dispatch_uses (input : CreateTaskInput) (source : TaskSource) (scheduleId : Option String) (taskId requestHash : String) :
    (dispatch platform input source scheduleId taskId requestHash).Uses (startWrite taskId) := by
  have writes : ∀ status, isFinal status = false → (setStatus platform taskId status).Uses (startWrite taskId) :=
    fun status unfinished => open_start taskId _ (open_writes platform taskId status unfinished)
  refine uses_bind _ _ _ (writes .dispatching rfl) fun _ => ?_
  refine uses_bind _ _ _ (uses_attempt _ _ ?_) fun dispatched => ?_
  · exact uses_bind _ _ _ (open_start taskId _ (create_task_open taskId _ _)) fun _ => writes .queued rfl
  · cases dispatched with
    | ok _ => exact uses_bind _ _ _ (harmless_start taskId _ (get_harmless taskId false)) fun _ => trivial
    | error error =>
        dsimp only
        split
        · refine uses_bind _ _ _ (uses_perform _ _ ⟨trivial, fun target here => ?_⟩) fun _ => ?_
          · cases here
            exact ⟨rfl, fun _ never => by cases never⟩
          · split
            · refine uses_bind _ _ _ (uses_attempt _ _ (harmless_start taskId _ (call_harmless _ trivial rfl))) fun _ => trivial
            · exact trivial
        · exact uses_bind _ _ _ (writes .dispatch_failed rfl) fun _ => trivial

theorem dispatch_sound (input : CreateTaskInput) (source : TaskSource) (scheduleId : Option String) (taskId requestHash : String) :
    (dispatch platform input source scheduleId taskId requestHash).Grounded effect observes TaskOp.exec granted := by
  have blind : ∀ status, isFinal status = false → (setStatus platform taskId status).Uses fun op => ¬ observes op :=
    fun status unfinished => open_blind taskId _ (open_writes platform taskId status unfinished)
  refine grounded_blind effect observes TaskOp.exec granted _ _ (blind .dispatching rfl) fun _ => ?_
  refine grounded_blind effect observes TaskOp.exec granted _ _ (uses_attempt _ _ ?_) fun dispatched => ?_
  · exact uses_bind _ _ _ (open_blind taskId _ (create_task_open taskId _ _)) fun _ => blind .queued rfl
  · cases dispatched with
    | ok _ => exact harmless_sound _ (uses_bind _ _ _ (get_harmless taskId false) fun _ => trivial)
    | error error =>
        dsimp only
        split
        · refine grounded_blind effect observes TaskOp.exec granted _ _ (uses_perform _ _ ?_) fun _ => ?_
          · rintro ⟨_, _, never, _⟩
            cases never
          · split
            · refine harmless_sound _ (uses_bind _ _ _ (uses_attempt _ _ (call_harmless _ trivial rfl)) fun _ => trivial)
            · exact trivial
        · exact grounded_blind effect observes TaskOp.exec granted _ _ (blind .dispatch_failed rfl) fun _ => trivial

theorem existing_harmless (input : CreateTaskInput) : (findExisting input).Uses harmless := by
  rw [findExisting]
  split
  · exact find_harmless _ _
  · exact trivial

def recovered (input : CreateTaskInput) (requestHash : String) (error : Thrown) : Service Created := do
  let raced ← findExisting input
  match raced with
  | some raced => reuse raced requestHash
  | none => .fail (appError "internal_error" ("Could not create task index. " ++ error.message) 500 [])

theorem recovered_harmless (input : CreateTaskInput) (requestHash : String) (error : Thrown) :
    (recovered input requestHash error).Uses harmless := by
  refine uses_bind _ _ _ (existing_harmless input) fun raced => ?_
  cases raced with
  | none => exact trivial
  | some raced => exact reuse_harmless _ _

def filedKey (input : CreateTaskInput) (requestHash taskId : String) (now : Int) : Service Unit :=
  match truthy input.idempotency_key with
  | some key =>
      upsertCreateIdempotency platform input.backend_id key requestHash taskId false .created (toISOString now)
        (input.labels.getD []) (environmentFromLabels (input.labels.getD [])) now
  | none => pure ()

theorem filed_harmless (input : CreateTaskInput) (requestHash taskId : String) (now : Int) :
    (filedKey platform input requestHash taskId now).Uses fun op => harmless op ∧ ¬ observes op := by
  rw [filedKey]
  split
  · refine uses_perform _ _ ⟨⟨trivial, fun _ never => by cases never⟩, ?_⟩
    rintro ⟨_, _, never, _⟩
    cases never
  · exact trivial

def filed (input : CreateTaskInput) (source : TaskSource) (scheduleId : Option String) (requestHash taskId : String) :
    Except Thrown Unit → Service Created
  | .ok _ => dispatch platform input source scheduleId taskId requestHash
  | .error error => recovered input requestHash error

theorem file_careful (input : CreateTaskInput) (source : TaskSource) (scheduleId : Option String) (requestHash taskId : String)
    (now : Int) : StatusCareful (file platform input source scheduleId requestHash taskId now) := by
  have recovers := recovered_harmless input requestHash
  have logged := filed_harmless platform input requestHash taskId now
  refine ⟨?_, ?_, ?_⟩
  · refine uses_bind _ _ _ (uses_attempt _ _ (uses_bind _ _ _ (uses_perform _ _ rfl) fun _ => ?_)) fun inserted => ?_
    · exact uses_mono _ _ (fun _ here => here.1.1) _ logged
    · cases inserted with
      | ok _ => exact uses_mono _ _ (fun _ here => here.1) _ (dispatch_uses platform input source scheduleId taskId requestHash)
      | error error => exact uses_mono _ _ (fun _ here => here.1) _ (recovers error)
  · refine grounded_tried effect observes TaskOp.exec granted _ _ _ ?_ ?_
    · intro state value inserted
      have quiet := harmless_idle _ (uses_mono _ _ (fun _ here => here.1) _ (uses_attempt _ _ logged))
      have later : ∀ result : Except Thrown Unit,
          (filed platform input source scheduleId requestHash taskId result).Grounded effect observes TaskOp.exec granted := by
        intro result
        cases result with
        | ok _ => exact dispatch_sound platform input source scheduleId taskId requestHash
        | error error => exact harmless_sound _ (recovers error)
      refine ⟨?_, ?_⟩
      · intro _ target aims
        rcases aims_bind effect observes _ _ target aims with here | ⟨result, there⟩
        · exact absurd here (quiet target)
        · cases result with
          | ok _ =>
              obtain ⟨op, allowed, here⟩ := aims_used effect observes (startWrite taskId) _
                (dispatch_uses platform input source scheduleId taskId requestHash) target there
              obtain ⟨same, open_⟩ := allowed.2 target here
              exact ⟨same, open_, inserted⟩
          | error error => exact absurd there (harmless_idle _ (recovers error) target)
      · exact grounded_blind effect observes TaskOp.exec granted _ _
          (uses_mono _ _ (fun _ here => here.2) _ (uses_attempt _ _ logged)) later
    · intro error
      exact ⟨harmless_idle _ (recovers error), harmless_sound _ (recovers error)⟩
  · intro target aims
    rcases aims with here | ⟨blind, _⟩
    · cases here
    · exact blind trivial

def created (input : CreateTaskInput) (source : TaskSource) (scheduleId : Option String) (requestHash : String) :
    Service Created := do
  let existing ← findExisting input
  match existing with
  | some existing => reuse existing requestHash
  | none =>
      let taskId ← call .randomUUID
      let now ← call .readClock
      file platform input source scheduleId requestHash taskId now

theorem create_careful (input : CreateTaskInput) (source : TaskSource) (scheduleId : Option String) :
    StatusCareful (create platform hashOpaque input source scheduleId) := by
  have rest : StatusCareful (created platform input source scheduleId
      (hashOpaque (.create { input with idempotency_key := none }))) := by
    refine careful_bind _ _ (harmless_careful _ (existing_harmless input)) fun existing => ?_
    cases existing with
    | some existing => exact harmless_careful _ (reuse_harmless _ _)
    | none =>
        refine careful_bind _ _ (harmless_careful _ (call_harmless _ trivial rfl)) fun taskId => ?_
        refine careful_bind _ _ (harmless_careful _ (call_harmless _ trivial rfl)) fun now => ?_
        exact file_careful platform input source scheduleId _ taskId now
  refine careful_bind _ _ (harmless_careful _ (backend_harmless _)) fun enabled => ?_
  split
  · exact harmless_careful _ trivial
  · split
    · exact careful_bind _ _ (harmless_careful _ (preflight_harmless _)) fun _ => rest
    · exact rest

end programs

section runs

variable (platform : Platform) (hashOpaque : Hashed → String)

inductive StatusCall where
  | create (input : CreateTaskInput) (source : TaskSource) (scheduleId : Option String)
  | detail (id : String)
  | cancel (id : String) (idempotencyKey : Option String)
  | retry (id : String) (idempotencyKey : Option String)
  -- The agent's worker takes a task on.
  | agent (id : String) (status : TaskStatus)

def StatusCall.body : StatusCall → Service Unit
  | .create input source scheduleId => do
      let _ ← Tasks.create platform hashOpaque input source scheduleId
      pure ()
  | .detail id => do
      let _ ← Tasks.detail platform id
      pure ()
  | .cancel id idempotencyKey => do
      let _ ← Tasks.cancel platform hashOpaque id idempotencyKey
      pure ()
  | .retry id idempotencyKey => do
      let _ ← Tasks.retry platform hashOpaque id idempotencyKey
      pure ()
  | .agent id status => call (.agentMoves id status)

theorem body_careful (call : StatusCall) : StatusCareful (call.body platform hashOpaque) := by
  cases call with
  | create input source scheduleId =>
      exact careful_bind _ _ (create_careful platform hashOpaque input source scheduleId) fun _ => harmless_careful _ trivial
  | detail id => exact careful_bind _ _ (detail_careful platform id) fun _ => harmless_careful _ trivial
  | cancel id key => exact careful_bind _ _ (cancel_careful platform hashOpaque id key) fun _ => harmless_careful _ trivial
  | retry id key => exact careful_bind _ _ (retry_careful platform hashOpaque id key) fun _ => harmless_careful _ trivial
  | agent id status => exact harmless_careful _ (call_harmless _ trivial rfl)

abbrev StatusPool : Type := Pool TaskOp TaskOp.Result Thrown Unit StatusCall TasksState

-- The step of a run does not let two decisions on one task cross.
structure Undisturbed (pool : StatusPool) (i : Nat) (op : TaskOp) : Prop where
  -- No other call is about to write another status into the row, or to take the row away, when this one
  -- writes a final status into it.
  alone : ∀ id status, writes op = some (id, some status) → isFinal status = true →
    ∀ thread ∈ pool.threads.eraseIdx i, ∀ other, thread.rest.Aims effect observes (id, other) → other = some status
  -- The agent does not answer with another status than cancelled while the row says cancelled.
  stopped : ∀ backendId id, op = .getTask backendId id → ∀ status,
    (TaskOp.exec (.getTask backendId id) pool.state).1 = .ok (some status) →
      pool.state.statusOf id = some .cancelled → status = .cancelled
  -- The agent retries under another id.
  renamed : ∀ backendId id, op = .retryTask backendId id → (pool.state.exchanges pool.state.requests).newId ≠ id

def undisturbed (pool : StatusPool) : PoolEvent StatusCall → Prop
  | .start _ => True
  | .step i => ∀ call op rest, pool.threads[i]? = some ⟨call, .call op rest⟩ → Undisturbed pool i op

theorem status_sound (start : TasksState) (agrees : Agrees start) (events : List (PoolEvent StatusCall))
    (guarded : (⟨start, []⟩ : StatusPool).Guarded TaskOp.exec (StatusCall.body platform hashOpaque) undisturbed events) :
    Sound effect observes TaskOp.exec granted permitted Agrees Licensed
      ((⟨start, []⟩ : StatusPool).run TaskOp.exec (StatusCall.body platform hashOpaque) events) := by
  have initial : Sound effect observes TaskOp.exec granted permitted Agrees Licensed (⟨start, []⟩ : StatusPool) := by
    refine ⟨agrees, ?_, ?_, ?_⟩ <;> intro thread member <;> cases member
  have head : ∀ (pool : StatusPool) (i : Nat) (call : StatusCall) (op : TaskOp) (rest : Except Thrown op.Result → Service Unit),
      Sound effect observes TaskOp.exec granted permitted Agrees Licensed pool → pool.threads[i]? = some ⟨call, .call op rest⟩ →
      permitted op ∧ ∀ target, effect op target → Licensed pool.state target := by
    intro pool i call op rest sound found
    have member := List.mem_of_getElem? found
    exact ⟨(sound.uses _ member).1, fun target here => sound.licensed _ member target (Or.inl here)⟩
  refine sound_run effect observes TaskOp.exec granted permitted (StatusCall.body platform hashOpaque) undisturbed Agrees
    Licensed (⟨start, []⟩ : StatusPool) initial (fun call => (body_careful platform hashOpaque call).uses)
    (fun call => (body_careful platform hashOpaque call).sound) (fun call => (body_careful platform hashOpaque call).idle)
    ?_ ?_ ?_ ?_ events guarded
  · intro pool i call op rest sound _ found
    obtain ⟨allowed, own⟩ := head pool i call op rest sound found
    exact agrees_next pool.state op allowed sound.inv own
  · intro pool i call op rest sound guard found thread member target aims licensed
    obtain ⟨allowed, _⟩ := head pool i call op rest sound found
    refine licensed_next pool.state op allowed target licensed fun status write final => ?_
    exact (guard call op rest found).alone target.1 status write final thread member target.2 aims
  · intro pool i call op rest sound _ found blind target licensed
    obtain ⟨allowed, _⟩ := head pool i call op rest sound found
    refine licensed_next pool.state op allowed target licensed fun status write final => ?_
    refine absurd ?_ blind
    cases op <;> first | exact trivial | exact ⟨_, status, write, final⟩
  · intro pool i call op rest sound guard found seen target grants
    obtain ⟨allowed, _⟩ := head pool i call op rest sound found
    have quiet := guard call op rest found
    cases op with
    | insertTask row => exact inserted_licensed pool.state row allowed target grants
    | getTask backendId id =>
        exact answered_licensed pool.state sound.inv backendId id target grants (quiet.stopped backendId id rfl)
    | cancelTask backendId id => exact cancelled_licensed pool.state sound.inv backendId id target grants
    | retryTask backendId id => exact absurd grants (quiet.renamed backendId id rfl)
    | _ => exact False.elim grants

theorem final_stays (pool : StatusPool) (event : PoolEvent StatusCall)
    (sound : Sound effect observes TaskOp.exec granted permitted Agrees Licensed pool) (id : String) (status : TaskStatus)
    (stored : pool.state.statusOf id = some status) (final : isFinal status = true) :
    (pool.perform TaskOp.exec (StatusCall.body platform hashOpaque) event).state.statusOf id = some status := by
  cases event with
  | start call => exact stored
  | step i =>
      rcases advance_cases TaskOp.exec pool i with lost | ⟨call, op, rest, found, taken⟩
      · rw [Pool.perform, lost]
        exact stored
      · have member := List.mem_of_getElem? found
        have own : ∀ target, effect op target → Licensed pool.state target :=
          fun target here => sound.licensed _ member target (Or.inl here)
        have step := row_step pool.state op (sound.uses _ member).1 id
        rw [Pool.perform, taken]
        dsimp only
        rw [stored] at step
        generalize (op.exec pool.state).2.statusOf id = after at step
        cases step with
        | same => rfl
        | written before after write => exact ((own _ write).row status stored final)
        | gone before write =>
            have kept := (own _ write).row status stored final
            cases kept

-- In a run whose steps do not let two decisions cross, a final status once stored is stored ever after.
theorem status_absorbing (start : TasksState) (agrees : Agrees start) (before later : List (PoolEvent StatusCall))
    (guarded : (⟨start, []⟩ : StatusPool).Guarded TaskOp.exec (StatusCall.body platform hashOpaque) undisturbed (before ++ later))
    (id : String) (status : TaskStatus) (final : isFinal status = true)
    (stored : ((⟨start, []⟩ : StatusPool).run TaskOp.exec (StatusCall.body platform hashOpaque) before).state.statusOf id =
      some status) :
    ((⟨start, []⟩ : StatusPool).run TaskOp.exec (StatusCall.body platform hashOpaque) (before ++ later)).state.statusOf id =
      some status := by
  induction later using List.reverseRecOn with
  | nil =>
      rw [List.append_nil]
      exact stored
  | append_singleton front last ih =>
      rw [← List.append_assoc] at guarded ⊢
      obtain ⟨earlier, _⟩ := (guarded_concat TaskOp.exec (StatusCall.body platform hashOpaque) undisturbed _ _ last).mp guarded
      have sound := status_sound platform hashOpaque start agrees (before ++ front) earlier
      rw [run_append]
      exact final_stays platform hashOpaque _ last sound id status (ih earlier) final

end runs

section concrete

theorem one_task_agrees (row : TaskRow) (remote : Option TaskStatus) (unfinished : isReported row.status = false) :
    Agrees (oneTask row remote) := by
  intro id status stored reported
  obtain ⟨found, here, same⟩ := Option.map_eq_some_iff.mp stored
  have member := Table.find_mem (oneTask row remote).tasks id found here
  rw [List.mem_singleton.mp member] at same
  rw [same, reported] at unfinished
  cases unfinished

def ran (start : TasksState) (events : List (PoolEvent StatusCall)) : StatusPool :=
  (⟨start, []⟩ : StatusPool).run TaskOp.exec (StatusCall.body utcMinutes unhashed) events

def done (thread : Thread TaskOp TaskOp.Result Thrown Unit StatusCall) : Bool :=
  match thread.rest with
  | .call _ _ => false
  | _ => true

-- One call after the other, and no status request that could contradict a cancelled row.
def inTurn (pool : StatusPool) : PoolEvent StatusCall → Bool
  | .start _ => true
  | .step i =>
      (pool.threads.eraseIdx i).all done &&
        match pool.threads[i]? with
        | some ⟨_, .call (.getTask _ id) _⟩ => pool.state.statusOf id != some .cancelled
        | some ⟨_, .call (.retryTask _ _) _⟩ => false
        | _ => true

theorem in_turn_undisturbed (pool : StatusPool) (event : PoolEvent StatusCall) (checked : inTurn pool event = true) :
    undisturbed pool event := by
  cases event with
  | start call => trivial
  | step i =>
      intro call op rest found
      rw [inTurn, Bool.and_eq_true, found] at checked
      obtain ⟨others, own⟩ := checked
      refine ⟨?_, ?_, ?_⟩
      · intro id status _ _ thread member other aims
        have finished := List.all_eq_true.mp others thread member
        obtain ⟨held, program⟩ := thread
        cases program with
        | ret value => exact False.elim aims
        | fail error => exact False.elim aims
        | call op rest => cases finished
      · intro backendId id same status _ stored
        subst same
        simp [stored] at own
      · intro backendId id same
        subst same
        cases own

-- A refresh stores the agent's outcome; a cancel and another refresh after it leave it.
theorem status_absorbing_refresh :
    (ran (oneTask (rowWith "t" .running) (some .succeeded)) ((.start (.detail "t") :: List.replicate 7 (.step 0)) ++
      (.start (.cancel "t" none) :: List.replicate 2 (.step 1) ++ .start (.detail "t") :: List.replicate 4 (.step 2)))).state.statusOf
        "t" = some .succeeded := by
  apply status_absorbing utcMinutes unhashed _ (one_task_agrees _ _ rfl) _ _ ?_ "t" .succeeded rfl
  · decide +kernel
  · apply guarded_passes _ _ _ inTurn in_turn_undisturbed
    decide +kernel

-- The status before and after the last steps of a run.
def statuses (start : TasksState) (first last : List (PoolEvent StatusCall)) : Option TaskStatus × Option TaskStatus :=
  ((ran start first).state.statusOf "t", (ran start (first ++ last)).state.statusOf "t")

-- A cancelled task is running again: because a refresh that asked the agent before the cancel writes after it, and because
-- one that comes after the cancel finds the agent still stopping the task. A finished one is cancelled: because the cancel
-- was answered before the task ended and a refresh in between stored the outcome.
theorem cancelled_overwritten :
    let refreshed := PoolEvent.start (.detail "t") :: List.replicate 3 (PoolEvent.step 0)
    let cancels := fun i => PoolEvent.start (.cancel "t" none) :: List.replicate 6 (PoolEvent.step i)
    statuses (oneTask (rowWith "t" .queued) (some .running)) (refreshed ++ cancels 1) (List.replicate 2 (.step 0)) =
        (some .cancelled, some .running) ∧
      statuses (oneTask (rowWith "t" .running) (some .running)) (cancels 0)
          (.start (.agent "t" .waiting_for_approval) :: .step 1 :: .start (.detail "t") :: List.replicate 6 (.step 2)) =
        (some .cancelled, some .waiting_for_approval) ∧
      statuses (oneTask (rowWith "t" .running) (some .running))
          (.start (.cancel "t" none) :: List.replicate 3 (.step 0) ++ .start (.agent "t" .succeeded) :: .step 1 ::
            .start (.detail "t") :: List.replicate 7 (.step 2)) (List.replicate 3 (.step 0)) =
        (some .succeeded, some .cancelled) := by
  decide +kernel

end concrete

end Vacps.Tasks
