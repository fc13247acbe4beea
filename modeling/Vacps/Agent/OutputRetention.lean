import Vacps.Agent.TaskStore

/- TaskStore.pruneRetention: expired outputs first, then old rows. A row is deleted with its logs and its
   idempotency keys, as the foreign keys cascade. -/
set_option autoImplicit false

namespace Vacps

open Library

section deletes

def TaskTable.delete (table : TaskTable) (selects : TaskRow → Bool) : TaskTable where
  toTable := table.toTable.delete selects
  occurrences := table.occurrences.sublist (List.filter_sublist.filterMap _)

def Database.deletes (db : Database) (selects : TaskRow → Bool) (id : String) : Bool := (db.tasks.find? id).any selects

theorem remains_owned (db : Database) (selects : TaskRow → Bool) (id : String) (stored : db.tasks.find? id ≠ none)
    (spared : db.deletes selects id = false) : (db.tasks.delete selects).find? id ≠ none := by
  obtain ⟨row, found⟩ := Option.ne_none_iff_exists'.mp stored
  rw [Database.deletes, found, Option.any_some] at spared
  have kept := db.tasks.toTable.find_remaining selects id
  rw [found, Option.filter_some_pos (by simp [spared])] at kept
  exact fun absent => by cases kept.symm.trans absent

-- ON DELETE CASCADE
def Database.deleteTasks (db : Database) (selects : TaskRow → Bool) : Nat × Database :=
  (db.tasks.rows.countP selects,
    { db with
      tasks := db.tasks.delete selects
      idempotency := db.idempotency.delete fun row => db.deletes selects row.task_id
      logs := db.logs.delete fun row => db.deletes selects row.task_id
      keyed := by
        intro row member
        obtain ⟨stored, spared⟩ := List.mem_filter.mp member
        exact remains_owned db selects row.task_id (db.keyed row stored) (by simpa using spared)
      logged := by
        intro row member
        obtain ⟨stored, spared⟩ := List.mem_filter.mp member
        exact remains_owned db selects row.task_id (db.logged row stored) (by simpa using spared) })

def Database.deleteLogs (db : Database) (taskId : String) : Database :=
  { db with
    logs := db.logs.delete fun row => decide (row.task_id = taskId)
    logged := fun row member => db.logged row (List.mem_filter.mp member).1 }

end deletes

namespace TaskStore

-- The tables with the column output_pruned_at, as the ids it is set for.
structure Retained where
  db : Database
  pruned : List String
  owned : ∀ id ∈ pruned, db.tasks.find? id ≠ none

def Retained.empty : Retained := ⟨Database.empty, [], by simp⟩

-- value ?? otherwise
def coalesce : Option Json → Json → Json
  | some .null, otherwise | none, otherwise => otherwise
  | some value, _ => value

def expiredSummary (result : Option Json) : Json :=
  let r := result.getD (.obj [])
  .obj
    [("kind", .str "process"), ("exit_code", coalesce (r.member "exitCode") (coalesce (r.member "exit_code") .null)),
      ("signal", coalesce (r.member "signal") .null),
      ("timed_out", coalesce (r.member "timedOut") (coalesce (r.member "timed_out") (.bool false))),
      ("output_state", .str "expired")]

def outputBatch : Nat := 128

def deleteBatch : Nat := 128

-- unixepoch(finished_at) + CAST(json_extract(input_json, '$.output.retention_seconds') AS INTEGER)
def expirySecond (row : TaskRow) (finishedAt : Int) : Int := finishedAt / 1000 + row.task.output.retention_seconds

def Retained.dueOutput (state : Retained) (nowSec : Int) (row : TaskRow) : Bool :=
  !state.pruned.contains row.id && isTerminalTaskStatus row.status &&
    row.finishedAt.any fun finishedAt => decide (expirySecond row finishedAt ≤ nowSec)

def expiresBefore (first later : TaskRow) : Prop :=
  let second (row : TaskRow) : Int := row.finishedAt.elim 0 (expirySecond row)
  second first < second later ∨ second first = second later ∧ first.finishedAt.getD 0 ≤ later.finishedAt.getD 0

instance (first later : TaskRow) : Decidable (expiresBefore first later) := by
  unfold expiresBefore
  infer_instance

def Retained.candidates (state : Retained) (nowSec : Int) : List TaskRow :=
  ((state.db.tasks.rows.filter (state.dueOutput nowSec)).insertionSort expiresBefore).take outputBatch

-- UPDATE … WHERE id = ? AND output_pruned_at IS NULL
def Retained.unpruned (state : Retained) (id : String) (row : TaskRow) : Bool :=
  decide (row.id = id) && !state.pruned.contains id

-- The transaction of one candidate; its logs go whether the UPDATE finds the row or not.
def Retained.pruneOutput (state : Retained) (candidate : TaskRow) (nowMs : Int) : Nat × Retained :=
  let updated := (state.db.deleteLogs candidate.id).updateTasks (state.unpruned candidate.id) fun row =>
    { row.toTaskState with result := some (expiredSummary candidate.result), updatedAt := nowMs }
  (updated.1,
    { db := updated.2
      pruned := if updated.1 = 0 then state.pruned else candidate.id :: state.pruned
      owned := by
        have keeps : ∀ id, state.db.tasks.find? id ≠ none → updated.2.tasks.find? id ≠ none :=
          task_update_keeps state.db.tasks _ _
        intro id member
        by_cases none_ : updated.1 = 0
        · rw [if_pos none_] at member
          exact keeps id (state.owned id member)
        · rw [if_neg none_, List.mem_cons] at member
          rcases member with rfl | before
          · obtain ⟨row, stored, selected⟩ := List.countP_pos_iff.mp (Nat.pos_of_ne_zero none_)
            rw [Retained.unpruned, Bool.and_eq_true, decide_eq_true_iff] at selected
            have found := state.db.tasks.toTable.find_of_mem row stored
            exact keeps _ (by rw [← selected.1]; exact found ▸ Option.some_ne_none row)
          · exact keeps id (state.owned id before) })

def Retained.pruneOutputs (state : Retained) (nowMs : Int) : List TaskRow → Nat × Retained
  | [] => (0, state)
  | candidate :: rest =>
      let first := state.pruneOutput candidate nowMs
      let others := first.2.pruneOutputs nowMs rest
      ((if first.1 = 1 then 1 else 0) + others.1, others.2)

def oldBound (nowMs : Int) : Int := nowMs - 30 * 24 * 60 * 60 * 1000

def isOld (nowMs : Int) (row : TaskRow) : Bool :=
  (row.finishedAt.any fun finishedAt => decide (finishedAt ≤ oldBound nowMs)) && isTerminalTaskStatus row.status

def Retained.oldRows (state : Retained) (nowMs : Int) : List String :=
  (((state.db.tasks.rows.filter (isOld nowMs)).insertionSort
    fun first later => first.finishedAt.getD 0 ≤ later.finishedAt.getD 0).take deleteBatch).map TaskRow.id

-- DELETE FROM tasks WHERE id IN (…) AND status IN …
def Retained.deleteTasks (state : Retained) (ids : List String) : Nat × Retained :=
  let selects (row : TaskRow) : Bool := ids.contains row.id && isTerminalTaskStatus row.status
  let deleted := state.db.deleteTasks selects
  (deleted.1,
    { db := deleted.2
      pruned := state.pruned.filter fun id => !state.db.deletes selects id
      owned := by
        intro id member
        obtain ⟨before, spared⟩ := List.mem_filter.mp member
        exact remains_owned state.db selects id (state.owned id before) (by simpa using spared) })

def Retained.pruneRetention (state : Retained) (nowMs : Int) : (Nat × Nat) × Retained :=
  let nowSec := nowMs / 1000
  let expired := state.pruneOutputs nowMs (state.candidates nowSec)
  let deleted := expired.2.deleteTasks (expired.2.oldRows nowMs)
  ((expired.1, deleted.1), deleted.2)

end TaskStore

end Vacps
