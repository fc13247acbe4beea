import Vacps.Agent.Calls

/- What a call of the agent can do to the task rows that are already stored. -/
set_option autoImplicit false

namespace Vacps

open Library

def keepsRows (before after : Database) : Prop :=
  ∀ id row, before.tasks.find? id = some row → after.tasks.find? id = some row

theorem keeps_rows_refl (db : Database) : keepsRows db db := fun _ _ found => found

theorem keeps_rows_trans (a b c : Database) (first : keepsRows a b) (second : keepsRows b c) : keepsRows a c :=
  fun id row found => second id row (first id row found)

theorem insert_task_keeps (db after : Database) (row : TaskRow) (changes : Nat)
    (passed : db.insertTask row = .ok (changes, after)) : keepsRows db after := by
  by_cases fresh : db.tasks.find? row.id = none
  · by_cases free : db.tasks.taken row.occurrence = false
    · rw [Database.insertTask, dif_pos fresh, dif_pos free] at passed
      cases passed
      intro id stored found
      have different : row.id ≠ id := by
        intro same
        rw [same, found] at fresh
        cases fresh
      exact (find_inserted_task db.tasks row fresh free id).trans (by rw [if_neg different, found])
    · rw [Database.insertTask, dif_pos fresh, dif_neg free] at passed
      cases passed
  · rw [Database.insertTask, dif_neg fresh] at passed
    cases passed

theorem adds_only_keeps (db after : Database) (statement : Statement) (changes : Nat) (adds : statement.addsOnly = true)
    (passed : statement.exec db = .ok (changes, after)) : keepsRows db after := by
  cases statement with
  | insertTask task status occurrence now =>
      simp only [Statement.exec] at passed
      split at passed
      · exact insert_task_keeps db after _ changes passed
      · cases passed
        exact keeps_rows_refl db
  | insertIdempotency key taskId now =>
      simp only [Statement.exec] at passed
      split at passed
      · unfold Database.insertIdempotency at passed
        split at passed
        · split at passed
          · cases passed
            exact keeps_rows_refl db
          · cases passed
        · cases passed
      · cases passed
        exact keeps_rows_refl db
  | insertOccurrence task occurrence concurrency now =>
      simp only [Statement.exec] at passed
      split at passed
      · split at passed
        · cases passed
          exact keeps_rows_refl db
        · exact insert_task_keeps db after _ changes passed
      · cases passed
        exact keeps_rows_refl db
  | insertLog taskId sequence stream data =>
      simp only [Statement.exec, Database.insertLog] at passed
      split at passed
      · split at passed
        · cases passed
          exact keeps_rows_refl db
        · cases passed
      · cases passed
  | upsertScheduler id cron timezone enabled task next revision policy now =>
      cases passed
      intro other row found
      simp only [Database.upsertScheduler]
      split <;> exact found
  | claimScheduler advanced claimedAt now id revision raw =>
      cases passed
      exact keeps_rows_refl db
  | deleteScheduler id =>
      cases passed
      exact keeps_rows_refl db
  | failInterrupted id now => cases adds
  | setCancelRequested id now => cases adds
  | writeTask id status result error startedAt finishedAt now => cases adds

theorem run_keeps_rows (db : Database) (statement : Statement) (adds : statement.addsOnly = true) :
    keepsRows db (db.run statement).2 := by
  unfold Database.run
  cases passed : statement.exec db with
  | error error => exact keeps_rows_refl db
  | ok outcome => exact adds_only_keeps db outcome.2 statement outcome.1 adds passed

-- What each statement of a transaction keeps, the whole of it keeps.
theorem run_steps_hold (inv : Database → Prop) (steps : List TransactionStep)
    (kept : ∀ step ∈ steps, ∀ db after changes, inv db → step.statement.exec db = .ok (changes, after) → inv after)
    (db after : Database) (results : List Nat) (here : inv db) (passed : runSteps db steps = .ok (results, after)) : inv after := by
  induction steps generalizing db results with
  | nil =>
      cases passed
      exact here
  | cons step rest ih =>
      rw [runSteps] at passed
      cases first : step.statement.exec db with
      | error error =>
          rw [first] at passed
          cases passed
      | ok outcome =>
          obtain ⟨changes, middle⟩ := outcome
          have between := kept step List.mem_cons_self db middle changes here first
          rw [first] at passed
          simp only at passed
          split at passed
          · cases passed
          · cases later : runSteps middle rest with
            | error error =>
                rw [later] at passed
                cases passed
            | ok final =>
                rw [later] at passed
                cases passed
                exact ih (fun step member => kept step (List.mem_cons_of_mem _ member)) middle final.1 between later

theorem transaction_holds (inv : Database → Prop) (steps : List TransactionStep)
    (kept : ∀ step ∈ steps, ∀ db after changes, inv db → step.statement.exec db = .ok (changes, after) → inv after)
    (db : Database) (here : inv db) : inv (db.transaction steps).2 := by
  unfold Database.transaction
  cases passed : runSteps db steps with
  | error error => exact here
  | ok outcome => exact run_steps_hold inv steps kept db outcome.2 outcome.1 here passed

theorem transaction_keeps_rows (db : Database) (steps : List TransactionStep)
    (adds : ∀ step ∈ steps, step.statement.addsOnly = true) : keepsRows db (db.transaction steps).2 := by
  refine transaction_holds (keepsRows db) steps ?_ db (keeps_rows_refl db)
  intro step member middle after changes before passed
  exact keeps_rows_trans db middle after before (adds_only_keeps middle after _ changes (adds step member) passed)

theorem find_tested_task (db : Database) (id : String) (test : TaskRow → Bool) (change : TaskRow → TaskState) (other : String) :
    (db.updateTasks (fun row => decide (row.id = id) && test row) change).2.tasks.find? other =
      if other = id then (db.tasks.find? id).map fun row => if test row then row.with (change row) else row
      else db.tasks.find? other := by
  refine (find_updated_task db.tasks _ _ other).trans ?_
  by_cases same : other = id
  · subst same
    rw [if_pos rfl]
    cases found : db.tasks.find? other with
    | none => rfl
    | some row =>
        have rowId : row.id = other := db.tasks.find_key other row found
        simp only [Option.map_some, rowId, decide_true, Bool.true_and]
  · rw [if_neg same]
    cases found : db.tasks.find? other with
    | none => rfl
    | some row =>
        have rowId : row.id = other := db.tasks.find_key other row found
        rw [Option.map_some, if_neg (by simp [rowId, same])]

theorem find_changed_task (db : Database) (id : String) (change : TaskRow → TaskState) (other : String) :
    (db.updateTasks (fun row => decide (row.id = id)) change).2.tasks.find? other =
      if other = id then (db.tasks.find? id).map fun row => row.with (change row) else db.tasks.find? other := by
  simpa using find_tested_task db id (fun _ => true) change other

-- What a passive call leaves as it was.
structure Untouched (before after : AgentState) : Prop where
  rows : keepsRows before.db after.db
  ready : after.ready = before.ready
  pumpBusy : after.pumpBusy = before.pumpBusy
  executing : after.executing = before.executing
  handed : after.handed = before.handed
  started : after.started = before.started

theorem passive_untouched (op : AgentOp) (agent : AgentState) (passive : op.passive = true) :
    Untouched agent (op.exec agent).2 := by
  cases op with
  | run statement =>
      exact ⟨run_keeps_rows agent.db statement (Bool.and_eq_true_iff.mp passive).1, rfl, rfl, rfl, rfl, rfl⟩
  | transaction steps =>
      refine ⟨transaction_keeps_rows agent.db steps ?_, rfl, rfl, rfl, rfl, rfl⟩
      intro step member
      exact (Bool.and_eq_true_iff.mp (List.all_eq_true.mp passive step member)).1
  | claimNextQueued now => cases passive
  | beginPump => cases passive
  | endPump => cases passive
  | enterExecutor id => cases passive
  | leaveExecutor id => cases passive
  | startProcess id => cases passive
  | setReady => cases passive
  | _ => exact ⟨keeps_rows_refl agent.db, rfl, rfl, rfl, rfl, rfl⟩

end Vacps
