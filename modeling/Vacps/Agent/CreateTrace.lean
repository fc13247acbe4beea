import Vacps.Agent.OutputRetention
import Vacps.Agent.TaskRows
import Vacps.Library.Runs

/- What a create that is refused leaves in the tables, and what the idempotency keys are mapped to along any
   run of the agent's writes. -/
set_option autoImplicit false

namespace Vacps.TaskStore

open Library

section create

variable (db : Database) (task : TaskDispatch) (status : TaskStatus) (occurrence : Option Occurrence) (now : Int)

def Traceless (agent : AgentState) : Prop :=
  let ran := (createTask task status occurrence now).runIn AgentOp.exec agent
  ran.1 = .ok false → ran.2.db.tasks = agent.db.tasks ∧ ran.2.db.idempotency = agent.db.idempotency

-- The id is that of a row of the same millisecond, and the key is not mapped yet.
def Rekeys : Prop :=
  (∃ row, db.tasks.find? task.task_id = some row ∧ row.createdAt = now) ∧
    ∃ key, truthy task.idempotency_key = some key ∧ db.idempotency.find? key = none

instance : Decidable (Rekeys db task now) :=
  decidable_of_iff
    (((db.tasks.find? task.task_id).any fun row => decide (row.createdAt = now)) = true ∧
      ((truthy task.idempotency_key).any fun key => (db.idempotency.find? key).isNone) = true)
    (by simp only [Rekeys, Option.any_eq_true, decide_eq_true_iff, Option.isNone_iff_eq_none])

def keyFree : Bool := task.idempotency_key.all fun key => (db.idempotency.find? key).isNone

-- What the two statements of a create do.
inductive Created : Except StoreError (List Nat) × Database → Prop where
  | refused (results : List Nat) (taken : ¬(db.tasks.find? task.task_id = none ∧ keyFree db task = true))
      (unkeyed : ¬Rekeys db task now) (first : results.head? = some 0) : Created (.ok results, db)
  | rekeyed (results : List Nat) (after : Database) (key : String) (rekeys : Rekeys db task now)
      (keyed : truthy task.idempotency_key = some key) (first : results.head? = some 0) (tasks : after.tasks = db.tasks)
      (keys : after.idempotency.rows = db.idempotency.rows ++ [⟨key, task.task_id, now⟩]) : Created (.ok results, after)
  | failed (error : StoreError) (fresh : db.tasks.find? task.task_id = none) : Created (.error error, db)
  | stored (results : List Nat) (after : Database) (first : results.head? = some 1)
      (fresh : db.tasks.find? task.task_id = none)
      (tasks : after.tasks.rows = db.tasks.rows ++ [newTask task status occurrence now])
      (keys : after.idempotency.rows = db.idempotency.rows ++
        ((truthy task.idempotency_key).map fun key => (⟨key, task.task_id, now⟩ : IdempotencyRow)).toList) :
      Created (.ok results, after)

theorem insert_passed (row : TaskRow) (changes : Nat) (after : Database) (passed : db.insertTask row = .ok (changes, after)) :
    changes = 1 ∧ after.tasks.rows = db.tasks.rows ++ [row] ∧ after.idempotency = db.idempotency ∧
      after.tasks.find? row.id = some row := by
  by_cases fresh : db.tasks.find? row.id = none
  · by_cases free : db.tasks.taken row.occurrence = false
    · rw [Database.insertTask, dif_pos fresh, dif_pos free] at passed
      cases passed
      exact ⟨rfl, rfl, rfl, (find_inserted_task db.tasks row fresh free row.id).trans (if_pos rfl)⟩
    · rw [Database.insertTask, dif_pos fresh, dif_neg free] at passed
      cases passed
  · rw [Database.insertTask, dif_neg fresh] at passed
    cases passed

theorem map_passed (key taskId : String) (unmapped : db.idempotency.find? key = none) (owned : db.tasks.find? taskId ≠ none) :
    ∃ after, db.insertIdempotency ⟨key, taskId, now⟩ = .ok (1, after) ∧ after.tasks = db.tasks ∧
      after.idempotency.rows = db.idempotency.rows ++ [⟨key, taskId, now⟩] := by
  rw [Database.insertIdempotency, dif_pos unmapped, dif_pos owned]
  exact ⟨_, rfl, rfl, rfl⟩

theorem create_outcome : Created db task status occurrence now (db.transaction (createTaskSteps task status occurrence now)) := by
  have first : (Statement.insertTask task status occurrence now).exec db =
      if (db.tasks.find? task.task_id).isNone && keyFree db task then db.insertTask (newTask task status occurrence now)
      else .ok (0, db) := rfl
  have second : ∀ (middle : Database) (key : String), (Statement.insertIdempotency key task.task_id now).exec middle =
      if (middle.tasks.find? task.task_id).any (fun row => row.createdAt = now) && (middle.idempotency.find? key).isNone then
        middle.insertIdempotency ⟨key, task.task_id, now⟩
      else .ok (0, middle) := fun _ _ => rfl
  by_cases free : db.tasks.find? task.task_id = none ∧ keyFree db task = true
  · rw [if_pos (by simp [free.1, free.2])] at first
    cases inserted : db.insertTask (newTask task status occurrence now) with
    | error error =>
        have failed : db.transaction (createTaskSteps task status occurrence now) = (.error error, db) := by
          simp only [Database.transaction, createTaskSteps, runSteps, first, inserted]
        rw [failed]
        exact .failed error free.1
    | ok outcome =>
        obtain ⟨changes, middle⟩ := outcome
        obtain ⟨rfl, rows, keys, found⟩ := insert_passed db _ changes middle inserted
        have made : (middle.tasks.find? task.task_id).any (fun row => decide (row.createdAt = now)) = true := by
          rw [show task.task_id = (newTask task status occurrence now).id from rfl, found]
          simp [newTask]
        cases keyed : truthy task.idempotency_key with
        | none =>
            have ran : db.transaction (createTaskSteps task status occurrence now) = (.ok [1], middle) := by
              simp only [Database.transaction, createTaskSteps, keyed, runSteps, first, inserted, checkExpectedChanges, Except.map]
            rw [ran]
            exact .stored [1] middle rfl free.1 rows (by simp [keys, keyed])
        | some key =>
            have unmapped : middle.idempotency.find? key = none := by
              have given := (Option.filter_eq_some_iff.mp keyed).1
              have open_ := free.2
              rw [keyFree, given, Option.all_some] at open_
              rw [keys]
              exact Option.isNone_iff_eq_none.mp open_
            obtain ⟨after, mapped, tasks, added⟩ := map_passed middle now key task.task_id unmapped
              (by rw [show task.task_id = (newTask task status occurrence now).id from rfl, found]; simp)
            have ran : db.transaction (createTaskSteps task status occurrence now) = (.ok [1, 1], after) := by
              simp only [Database.transaction, createTaskSteps, keyed, runSteps, first, inserted, second, made, unmapped, mapped,
                Option.isNone_none, Bool.and_self, if_true, checkExpectedChanges, Except.map]
            rw [ran]
            exact .stored [1, 1] after rfl free.1 (by rw [tasks, rows]) (by simp [added, keys, keyed])
  · rw [if_neg (by simpa using free)] at first
    cases keyed : truthy task.idempotency_key with
    | none =>
        have ran : db.transaction (createTaskSteps task status occurrence now) = (.ok [0], db) := by
          simp only [Database.transaction, createTaskSteps, keyed, runSteps, first, checkExpectedChanges, Except.map]
        rw [ran]
        refine .refused [0] free ?_ rfl
        intro rekeys
        obtain ⟨_, key, given, _⟩ := rekeys
        rw [keyed] at given
        cases given
    | some key =>
        have mine : ((db.tasks.find? task.task_id).any (fun row => decide (row.createdAt = now)) &&
            (db.idempotency.find? key).isNone) = true ↔ Rekeys db task now := by
          simp only [Rekeys, keyed, Option.some.injEq, exists_eq_left', Bool.and_eq_true, Option.any_eq_true,
            decide_eq_true_iff, Option.isNone_iff_eq_none]
        by_cases rekeys : Rekeys db task now
        · have owned : db.tasks.find? task.task_id ≠ none := by
            obtain ⟨⟨row, found, _⟩, _⟩ := rekeys
            rw [found]
            simp
          have unmapped := ((Bool.and_eq_true _ _).mp (mine.mpr rekeys)).2
          obtain ⟨after, mapped, tasks, added⟩ := map_passed db now key task.task_id (Option.isNone_iff_eq_none.mp unmapped) owned
          have ran : db.transaction (createTaskSteps task status occurrence now) = (.ok [0, 1], after) := by
            simp only [Database.transaction, createTaskSteps, keyed, runSteps, first, second, if_pos (mine.mpr rekeys), mapped,
              checkExpectedChanges, Except.map]
          rw [ran]
          exact .rekeyed [0, 1] after key rekeys keyed rfl tasks added
        · have ran : db.transaction (createTaskSteps task status occurrence now) = (.ok [0, 0], db) := by
            simp only [Database.transaction, createTaskSteps, keyed, runSteps, first, second, if_neg (mt mine.mp rekeys),
              checkExpectedChanges, Except.map]
          rw [ran]
          exact .refused [0, 0] free rekeys rfl

theorem create_run (agent : AgentState) :
    (createTask task status occurrence now).runIn AgentOp.exec agent =
      ((storeResult (agent.db.transaction (createTaskSteps task status occurrence now)).1).map fun results =>
          results.head? == some 1,
        { agent with db := (agent.db.transaction (createTaskSteps task status occurrence now)).2 }) := by
  rw [createTask, Async.run_in_bind, call, Async.run_in_perform, AgentOp.exec]
  cases (agent.db.transaction (createTaskSteps task status occurrence now)).1 <;> rfl

theorem traceless_iff (agent : AgentState) : Traceless task status occurrence now agent ↔ ¬Rekeys agent.db task now := by
  have outcome := create_outcome agent.db task status occurrence now
  rw [Traceless, create_run]
  generalize agent.db.transaction (createTaskSteps task status occurrence now) = ran at outcome
  cases outcome with
  | refused results taken unkeyed first => exact iff_of_true (fun _ => ⟨rfl, rfl⟩) unkeyed
  | rekeyed results after key rekeys keyed first tasks keys =>
      refine iff_of_false (fun traceless => ?_) (fun not => not rekeys)
      have rows := congrArg Table.rows (traceless (by simp [storeResult, Except.map, first])).2
      rw [keys] at rows
      exact absurd (congrArg List.length rows) (by simp)
  | failed error fresh =>
      refine iff_of_true (fun _ => ⟨rfl, rfl⟩) ?_
      intro rekeys
      obtain ⟨⟨row, found, _⟩, _⟩ := rekeys
      rw [fresh] at found
      cases found
  | stored results after first fresh tasks keys =>
      refine iff_of_true (fun returned => ?_) ?_
      · simp [storeResult, Except.map, first] at returned
      · intro rekeys
        obtain ⟨⟨row, found, _⟩, _⟩ := rekeys
        rw [fresh] at found
        cases found

end create

section writes

-- Rows stay, with what they were dispatched as.
def keepsDispatches (before after : Database) : Prop :=
  ∀ id row, before.tasks.find? id = some row → ∃ last, after.tasks.find? id = some last ∧ last.task = row.task

theorem keeps_dispatches_refl (db : Database) : keepsDispatches db db := fun _ row found => ⟨row, found, rfl⟩

theorem keeps_dispatches_trans (a b c : Database) (first : keepsDispatches a b) (second : keepsDispatches b c) :
    keepsDispatches a c := by
  intro id row found
  obtain ⟨middle, between, same⟩ := first id row found
  obtain ⟨last, later, still⟩ := second id middle between
  exact ⟨last, later, still.trans same⟩

theorem kept_rows_dispatches (before after : Database) (rows : keepsRows before after) : keepsDispatches before after :=
  fun id row found => ⟨row, rows id row found, rfl⟩

theorem updated_dispatches (db : Database) (selects : TaskRow → Bool) (change : TaskRow → TaskState) :
    keepsDispatches db (db.updateTasks selects change).2 := by
  intro id row found
  have updated : (db.updateTasks selects change).2.tasks.find? id = _ := find_updated_task db.tasks selects change id
  rw [found, Option.map_some] at updated
  refine ⟨_, updated, ?_⟩
  split <;> rfl

theorem statement_dispatches (db after : Database) (statement : Statement) (changes : Nat)
    (passed : statement.exec db = .ok (changes, after)) : keepsDispatches db after := by
  by_cases adds : statement.addsOnly = true
  · exact kept_rows_dispatches db after (adds_only_keeps db after statement changes adds passed)
  · cases statement with
    | failInterrupted id now =>
        cases passed
        exact updated_dispatches db _ _
    | setCancelRequested id now =>
        cases passed
        exact updated_dispatches db _ _
    | writeTask id status result error startedAt finishedAt now =>
        cases passed
        exact updated_dispatches db _ _
    | _ => exact absurd rfl adds

theorem claim_dispatches (db : Database) (now : Int) : keepsDispatches db (claimOldest db now).2 := by
  unfold claimOldest
  split
  · exact keeps_dispatches_refl db
  · exact updated_dispatches db _ _

-- What every statement of a call keeps, the call keeps.
theorem exec_holds (inv : Database → Prop) (op : AgentOp) (agent : AgentState) (here : inv agent.db)
    (statements : ∀ statement, (op = .run statement ∨ ∃ steps step, op = .transaction steps ∧ step ∈ steps ∧
      step.statement = statement) → ∀ db after changes, inv db → statement.exec db = .ok (changes, after) → inv after)
    (claims : ∀ now, inv (claimOldest agent.db now).2) : inv (op.exec agent).2.db := by
  cases op with
  | run statement =>
      simp only [AgentOp.exec, Database.run]
      cases passed : statement.exec agent.db with
      | error error => exact here
      | ok outcome => exact statements statement (Or.inl rfl) agent.db outcome.2 outcome.1 here passed
  | transaction steps =>
      exact transaction_holds inv steps
        (fun step member => statements step.statement (Or.inr ⟨steps, step, rfl, member, rfl⟩)) agent.db here
  | claimNextQueued now => exact claims now
  | beginPump =>
      simp only [AgentOp.exec]
      split <;> exact here
  | _ => exact here

theorem exec_dispatches (op : AgentOp) (agent : AgentState) : keepsDispatches agent.db (op.exec agent).2.db := by
  refine exec_holds (keepsDispatches agent.db) op agent (keeps_dispatches_refl agent.db) ?_ (claim_dispatches agent.db)
  intro statement _ middle after changes before passed
  exact keeps_dispatches_trans _ middle after before (statement_dispatches middle after statement changes passed)

end writes

section runs

-- What writes to the tables: a create, any other call, and the two statements of a retention pass for any rows.
inductive StoreEvent where
  | create (task : TaskDispatch) (status : TaskStatus) (occurrence : Option Occurrence) (now : Int)
  | other (op : AgentOp)
  | pruneOutput (candidate : TaskRow) (nowMs : Int)
  | deleteTasks (ids : List String)

def Retained.exec (state : Retained) (op : AgentOp) : Retained where
  db := (op.exec (AgentState.booting state.db [] [])).2.db
  pruned := state.pruned
  owned := by
    intro id member
    obtain ⟨row, found⟩ := Option.ne_none_iff_exists'.mp (state.owned id member)
    obtain ⟨last, stored, _⟩ := exec_dispatches op (AgentState.booting state.db [] []) id row found
    rw [stored]
    exact Option.some_ne_none last

def StoreEvent.step (state : Retained) : StoreEvent → Retained
  | .create task status occurrence now => state.exec (.transaction (createTaskSteps task status occurrence now))
  | .other op => state.exec op
  | .pruneOutput candidate nowMs => (state.pruneOutput candidate nowMs).2
  | .deleteTasks ids => (state.deleteTasks ids).2

-- Only a create writes to task_idempotency.
def Statement.keyless : Statement → Bool
  | .insertIdempotency _ _ _ => false
  | _ => true

def keylessOp : AgentOp → Bool
  | .run statement => Statement.keyless statement
  | .transaction steps => steps.all fun step => Statement.keyless step.statement
  | _ => true

-- No create finds its id on a row of the same millisecond while its key is free.
def Unconfused (state : Retained) : StoreEvent → Prop
  | .create task _ _ now => ¬Rekeys state.db task now
  | .other op => keylessOp op = true
  | .pruneOutput _ _ => True
  | .deleteTasks _ => True

instance (state : Retained) (event : StoreEvent) : Decidable (Unconfused state event) := by
  cases event <;> unfold Unconfused <;> infer_instance

-- Each key is mapped to a task that was created with it.
def KeysOwn (db : Database) : Prop :=
  ∀ row ∈ db.idempotency.rows, ∃ task, db.tasks.find? row.task_id = some task ∧
    task.task.idempotency_key = some row.idempotency_key

theorem keys_own_kept (before after : Database) (own : KeysOwn before) (keys : after.idempotency.rows ⊆ before.idempotency.rows)
    (keeps : keepsDispatches before after) : KeysOwn after := by
  intro row member
  obtain ⟨task, found, keyed⟩ := own row (keys member)
  obtain ⟨last, stored, same⟩ := keeps row.task_id task found
  exact ⟨last, stored, same ▸ keyed⟩

theorem keyless_keys (db after : Database) (statement : Statement) (changes : Nat)
    (keyless : Statement.keyless statement = true) (passed : statement.exec db = .ok (changes, after)) :
    after.idempotency = db.idempotency := by
  cases statement with
  | insertTask task status occurrence now =>
      simp only [Statement.exec] at passed
      split at passed
      · exact (insert_passed db _ changes after passed).2.2.1
      · cases passed
        rfl
  | insertIdempotency key taskId now => cases keyless
  | insertOccurrence task occurrence concurrency now =>
      simp only [Statement.exec] at passed
      split at passed
      · split at passed
        · cases passed
          rfl
        · exact (insert_passed db _ changes after passed).2.2.1
      · cases passed
        rfl
  | upsertScheduler id cron timezone enabled task next revision policy now =>
      cases passed
      simp only [Database.upsertScheduler]
      split <;> rfl
  | insertLog taskId sequence stream data =>
      simp only [Statement.exec, Database.insertLog] at passed
      split at passed
      · split at passed
        · cases passed
          rfl
        · cases passed
      · cases passed
  | claimScheduler advanced claimedAt now id revision raw =>
      cases passed
      rfl
  | deleteScheduler id =>
      cases passed
      rfl
  | failInterrupted id now =>
      cases passed
      rfl
  | setCancelRequested id now =>
      cases passed
      rfl
  | writeTask id status result error startedAt finishedAt now =>
      cases passed
      rfl

theorem claim_keys (db : Database) (now : Int) : (claimOldest db now).2.idempotency = db.idempotency := by
  unfold claimOldest
  split <;> rfl

theorem other_keys (op : AgentOp) (agent : AgentState) (keyless : keylessOp op = true) :
    (op.exec agent).2.db.idempotency = agent.db.idempotency := by
  refine exec_holds (fun db => db.idempotency = agent.db.idempotency) op agent rfl ?_ (claim_keys agent.db)
  intro statement sent db after changes here passed
  refine (keyless_keys db after statement changes ?_ passed).trans here
  rcases sent with rfl | ⟨steps, step, rfl, member, rfl⟩
  · exact keyless
  · exact List.all_eq_true.mp keyless step member

-- A create adds no key but its own, and that only along with its task.
theorem create_keys (state : Retained) (task : TaskDispatch) (status : TaskStatus) (occurrence : Option Occurrence) (now : Int)
    (own : KeysOwn state.db) (unconfused : ¬Rekeys state.db task now) :
    KeysOwn (state.exec (.transaction (createTaskSteps task status occurrence now))).db := by
  have outcome := create_outcome state.db task status occurrence now
  have keeps : keepsDispatches state.db (state.db.transaction (createTaskSteps task status occurrence now)).2 :=
    exec_dispatches (.transaction (createTaskSteps task status occurrence now)) (AgentState.booting state.db [] [])
  change KeysOwn (state.db.transaction (createTaskSteps task status occurrence now)).2
  generalize state.db.transaction (createTaskSteps task status occurrence now) = ran at outcome keeps
  cases outcome with
  | refused results taken unkeyed first => exact own
  | rekeyed results after key rekeys keyed first tasks keys => exact absurd rekeys unconfused
  | failed error fresh => exact own
  | stored results after first fresh tasks keys =>
      intro row member
      rw [keys, List.mem_append] at member
      rcases member with before | added
      · obtain ⟨other, found, keyed⟩ := own row before
        obtain ⟨last, stored, same⟩ := keeps row.task_id other found
        exact ⟨last, stored, same ▸ keyed⟩
      · rw [Option.mem_toList, Option.map_eq_some_iff] at added
        obtain ⟨key, given, rfl⟩ := added
        have stored := after.tasks.find_of_mem (newTask task status occurrence now) (by rw [tasks]; simp)
        exact ⟨newTask task status occurrence now, stored, (Option.filter_eq_some_iff.mp given).1⟩

theorem delete_keys (state : Retained) (ids : List String) (own : KeysOwn state.db) : KeysOwn (state.deleteTasks ids).2.db := by
  intro row member
  obtain ⟨stored, spared⟩ := List.mem_filter.mp member
  obtain ⟨task, found, keyed⟩ := own row stored
  refine ⟨task, ?_, keyed⟩
  refine (state.db.tasks.toTable.find_remaining _ row.task_id).trans ?_
  rw [found, Option.filter_some_pos]
  simpa [Database.deletes, found] using spared

theorem step_keys (state : Retained) (event : StoreEvent) (own : KeysOwn state.db) (unconfused : Unconfused state event) :
    KeysOwn (event.step state).db := by
  cases event with
  | create task status occurrence now => exact create_keys state task status occurrence now own unconfused
  | other op =>
      have same := other_keys op (AgentState.booting state.db [] []) unconfused
      exact keys_own_kept state.db _ own (by rw [StoreEvent.step, Retained.exec, same]; exact List.Subset.refl _)
        (exec_dispatches op (AgentState.booting state.db [] []))
  | pruneOutput candidate nowMs =>
      exact keys_own_kept state.db _ own (List.Subset.refl _)
        (updated_dispatches (state.db.deleteLogs candidate.id) (state.unpruned candidate.id) _)
  | deleteTasks ids => exact delete_keys state ids own

end runs

section concrete

def postedTask (id : String) (key : Option String) : TaskDispatch where
  backend_id := "backend"
  kind := .command "true" []
  profile := "default"
  timeout_seconds := 60
  verify := none
  retry := none
  environment := none
  idempotency_key := key
  output := { capture_stdout := true, capture_stderr := true, hard_max_bytes := 1024 }
  task_id := id
  source := some .mcp
  schedule_id := none

-- The second create is refused a millisecond after the first, with another key.
def repeatedCreate : List StoreEvent :=
  [.create (postedTask "task" (some "key")) .queued none 0, .create (postedTask "task" (some "other")) .queued none 1]

def postedAgent : AgentState := AgentState.booting (StoreEvent.step Retained.empty (.create (postedTask "task" none) .queued none 0)).db [] []

end concrete

-- A refused create changes nothing just when it does not find its id on a row of the same millisecond while its key is
-- free; and where no create of a run does, every key is mapped to a task created with it.
theorem create_traceless_iff (task : TaskDispatch) (status : TaskStatus) (occurrence : Option Occurrence) (now : Int) (agent : AgentState)
    (events : List StoreEvent) :
    (Traceless task status occurrence now agent ↔ ¬Rekeys agent.db task now) ∧
    (Along (fun state event => StoreEvent.step state event) Unconfused Retained.empty events →
      KeysOwn (runFrom (fun state event => StoreEvent.step state event) Retained.empty events).db) := by
  refine ⟨traceless_iff task status occurrence now agent, fun along => ?_⟩
  refine along_keeps (fun state event => StoreEvent.step state event) Unconfused (fun state => KeysOwn state.db) step_keys
    Retained.empty events ?_ along
  intro row member
  cases member

theorem repeated_create_traceless :
    Traceless (postedTask "task" (some "key")) .queued none 1 postedAgent ∧
      KeysOwn (runFrom (fun state event => StoreEvent.step state event) Retained.empty repeatedCreate).db := by
  have both := create_traceless_iff (postedTask "task" (some "key")) .queued none 1 postedAgent repeatedCreate
  exact ⟨both.1.mpr (by decide), both.2 (by decide)⟩

def confused : Retained :=
  StoreEvent.step ⟨postedAgent.db, [], by simp⟩ (.create (postedTask "task" (some "key")) .queued none 0)

-- In the same millisecond the refused create maps its key to the task that was created without it.
theorem refused_create_maps : ¬Traceless (postedTask "task" (some "key")) .queued none 0 postedAgent ∧ ¬KeysOwn confused.db := by
  have mapped : confused.db.idempotency.rows = [⟨"key", "task", 0⟩] := by rfl
  have unkeyed : (confused.db.tasks.find? "task").map (fun row => row.task.idempotency_key) = some none := by rfl
  refine ⟨fun traceless => ?_, fun own => ?_⟩
  · have keys := (traceless (by rfl)).2
    have rows := congrArg (fun table => table.rows.length) keys
    revert rows
    decide
  · obtain ⟨row, found, keyed⟩ := own ⟨"key", "task", 0⟩ (by rw [mapped]; simp)
    rw [found, Option.map_some, keyed] at unkeyed
    cases unkeyed

end Vacps.TaskStore
