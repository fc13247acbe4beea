import Vacps.Agent.TaskLogs
import Vacps.Agent.TaskRows

/- A retention pass against what GET /tasks/:id and GET /tasks/:id/logs say of a task whose output it removed. -/
set_option autoImplicit false

namespace Vacps.Server

open Library TaskStore Vacps.Native

section reports

def LogsReply.reportsExpired : LogsReply → Prop
  | .refused refusal => refusal = notFound
  | .gone _ _ | .expired _ => True
  | _ => False

-- The flag, or the state in the summary a pass has left.
def reportsTaskExpired : Except Refusal ShownTask → Prop
  | .error refusal => refusal = notFound
  | .ok task =>
      task.output_expired = true ∨ (task.result.bind (Json.member "output_state")).bind Json.asString = some "expired"

end reports

end Vacps.Server

namespace Vacps.TaskStore

open Library

section passes

variable (state : Retained) (nowMs : Int)

def prunedRow (candidate : TaskRow) : TaskRow :=
  candidate.with { candidate.toTaskState with result := some (expiredSummary candidate.result), updatedAt := nowMs }

def logsOf (db : Database) (id : String) : List LogRow := db.logs.rows.filter fun row => decide (row.task_id = id)

-- A task as the pass found it.
structure Undisturbed (after : Retained) (id : String) : Prop where
  row : after.db.tasks.find? id = state.db.tasks.find? id
  logs : logsOf after.db id = logsOf state.db id
  pruned : id ∈ after.pruned ↔ id ∈ state.pruned

-- A task whose output the pass removed.
structure Emptied (after : Retained) (candidate : TaskRow) : Prop where
  row : after.db.tasks.find? candidate.id = some (prunedRow nowMs candidate)
  logs : logsOf after.db candidate.id = []
  pruned : candidate.id ∈ after.pruned

theorem undisturbed_refl (id : String) : Undisturbed state state id := ⟨rfl, rfl, Iff.rfl⟩

theorem undisturbed_trans (middle after : Retained) (id : String) (first : Undisturbed state middle id)
    (second : Undisturbed middle after id) : Undisturbed state after id :=
  ⟨second.row.trans first.row, second.logs.trans first.logs, second.pruned.trans first.pruned⟩

theorem logs_deleted (db : Database) (taskId id : String) :
    logsOf (db.deleteLogs taskId) id = if taskId = id then [] else logsOf db id := by
  simp only [logsOf, Database.deleteLogs, Table.delete, List.filter_filter]
  by_cases same : taskId = id
  · rw [if_pos same, List.filter_eq_nil_iff]
    intro row _
    simp [same]
  · rw [if_neg same]
    refine List.filter_congr fun row _ => ?_
    by_cases here : row.task_id = id
    · simp [here, Ne.symm same]
    · simp [here]

theorem prune_find (candidate : TaskRow) (id : String) :
    (state.pruneOutput candidate nowMs).2.db.tasks.find? id =
      (state.db.tasks.find? id).map fun row =>
        if state.unpruned candidate.id row then
          row.with { row.toTaskState with result := some (expiredSummary candidate.result), updatedAt := nowMs }
        else row :=
  find_updated_task state.db.tasks (state.unpruned candidate.id) _ id

theorem prune_other (candidate : TaskRow) (id : String) (other : candidate.id ≠ id) :
    Undisturbed state (state.pruneOutput candidate nowMs).2 id where
  row := by
    rw [prune_find]
    cases found : state.db.tasks.find? id with
    | none => rfl
    | some row =>
        have named : row.id = id := state.db.tasks.find_key id row found
        rw [Option.map_some, if_neg (by simp [Retained.unpruned, named, Ne.symm other])]
  logs := (logs_deleted state.db candidate.id id).trans (if_neg other)
  pruned := by
    simp only [Retained.pruneOutput]
    split
    · exact Iff.rfl
    · rw [List.mem_cons, or_iff_right (Ne.symm other)]

theorem prune_own (candidate : TaskRow) (stored : state.db.tasks.find? candidate.id = some candidate)
    (unpruned : candidate.id ∉ state.pruned) : Emptied nowMs (state.pruneOutput candidate nowMs).2 candidate := by
  have selected : state.unpruned candidate.id candidate = true := by simp [Retained.unpruned, unpruned]
  have positive : 0 < state.db.tasks.rows.countP (state.unpruned candidate.id) :=
    List.countP_pos_iff.mpr ⟨candidate, state.db.tasks.find_mem candidate.id candidate stored, selected⟩
  refine ⟨?_, (logs_deleted state.db candidate.id candidate.id).trans (if_pos rfl), ?_⟩
  · rw [prune_find, stored, Option.map_some, if_pos selected]
    rfl
  · simp only [Retained.pruneOutput]
    split
    · rename_i nothing
      exact absurd nothing (Nat.ne_of_gt positive)
    · exact List.mem_cons_self

-- The candidates are rows of the table, each once, whose output is still there.
structure Pending (candidates : List TaskRow) : Prop where
  once : (candidates.map TaskRow.id).Nodup
  stored : ∀ candidate ∈ candidates, state.db.tasks.find? candidate.id = some candidate
  unpruned : ∀ candidate ∈ candidates, candidate.id ∉ state.pruned

theorem pending_next (candidate : TaskRow) (rest : List TaskRow) (pending : Pending state (candidate :: rest)) :
    Pending (state.pruneOutput candidate nowMs).2 rest := by
  obtain ⟨absent, once⟩ := List.nodup_cons.mp pending.once
  have others : ∀ later ∈ rest, Undisturbed state (state.pruneOutput candidate nowMs).2 later.id := by
    intro later member
    exact prune_other state nowMs candidate later.id fun same => absent (same ▸ List.mem_map_of_mem member)
  refine ⟨once, fun later member => ?_, fun later member => ?_⟩
  · rw [(others later member).row]
    exact pending.stored later (List.mem_cons_of_mem _ member)
  · rw [(others later member).pruned]
    exact pending.unpruned later (List.mem_cons_of_mem _ member)

theorem outputs_other (candidates : List TaskRow) (id : String) (other : id ∉ candidates.map TaskRow.id) :
    Undisturbed state (state.pruneOutputs nowMs candidates).2 id := by
  induction candidates generalizing state with
  | nil => exact undisturbed_refl state id
  | cons candidate rest ih =>
      rw [List.map_cons, List.mem_cons, not_or] at other
      have here := prune_other state nowMs candidate id (Ne.symm other.1)
      exact undisturbed_trans state _ _ id here (ih (state.pruneOutput candidate nowMs).2 other.2)

theorem outputs_own (candidates : List TaskRow) (pending : Pending state candidates) (candidate : TaskRow)
    (member : candidate ∈ candidates) : Emptied nowMs (state.pruneOutputs nowMs candidates).2 candidate := by
  induction candidates generalizing state with
  | nil => cases member
  | cons first rest ih =>
      have next := pending_next state nowMs first rest pending
      rcases List.mem_cons.mp member with rfl | later
      · obtain ⟨absent, _⟩ := List.nodup_cons.mp pending.once
        have here := prune_own state nowMs candidate (pending.stored candidate List.mem_cons_self)
          (pending.unpruned candidate List.mem_cons_self)
        have kept := outputs_other (state.pruneOutput candidate nowMs).2 nowMs rest candidate.id absent
        exact ⟨kept.row.trans here.row, kept.logs.trans here.logs, kept.pruned.mpr here.pruned⟩
      · exact ih (state.pruneOutput first nowMs).2 next later

theorem candidates_pending (nowSec : Int) : Pending state (state.candidates nowSec) := by
  have rows : ∀ candidate ∈ state.candidates nowSec, candidate ∈ state.db.tasks.rows ∧ state.dueOutput nowSec candidate = true := by
    intro candidate member
    exact List.mem_filter.mp ((List.perm_insertionSort _ _).subset (List.mem_of_mem_take member))
  refine ⟨?_, fun candidate member => state.db.tasks.find_of_mem candidate (rows candidate member).1, fun candidate member => ?_⟩
  · have sorted := (List.perm_insertionSort expiresBefore (state.db.tasks.rows.filter (state.dueOutput nowSec))).map TaskRow.id
    have once := sorted.nodup_iff.mpr (state.db.tasks.unique.sublist (List.filter_sublist.map TaskRow.id))
    exact once.sublist ((List.take_sublist _ _).map TaskRow.id)
  · have due := (rows candidate member).2
    simp only [Retained.dueOutput, Bool.and_eq_true, Bool.not_eq_true'] at due
    simpa using due.1.1

-- The rows that are old are so before the outputs are pruned as after.
theorem old_rows_mapped (after : Retained) (change : TaskRow → TaskRow) (rows : after.db.tasks.rows = state.db.tasks.rows.map change)
    (kept : ∀ row, (change row).id = row.id ∧ (change row).finishedAt = row.finishedAt ∧ (change row).status = row.status) :
    after.oldRows nowMs = state.oldRows nowMs := by
  have old : isOld nowMs ∘ change = isOld nowMs := by
    funext row
    rw [Function.comp_apply, isOld, isOld, (kept row).2.1, (kept row).2.2]
  have ids : TaskRow.id ∘ change = TaskRow.id := funext fun row => (kept row).1
  have sorted := List.map_insertionSort (fun first later : TaskRow => first.finishedAt.getD 0 ≤ later.finishedAt.getD 0)
    (fun first later : TaskRow => first.finishedAt.getD 0 ≤ later.finishedAt.getD 0) change (state.db.tasks.rows.filter (isOld nowMs))
    fun first _ later _ => by rw [(kept first).2.1, (kept later).2.1]
  rw [Retained.oldRows, Retained.oldRows, rows, List.filter_map, old, ← sorted, ← List.map_take, List.map_map, ids]

theorem outputs_old (candidates : List TaskRow) :
    (state.pruneOutputs nowMs candidates).2.oldRows nowMs = state.oldRows nowMs := by
  induction candidates generalizing state with
  | nil => rfl
  | cons candidate rest ih =>
      refine (ih (state.pruneOutput candidate nowMs).2).trans ?_
      refine old_rows_mapped state nowMs _ (fun row =>
        if state.unpruned candidate.id row then
          row.with { row.toTaskState with result := some (expiredSummary candidate.result), updatedAt := nowMs }
        else row) rfl fun row => ?_
      split <;> exact ⟨rfl, rfl, rfl⟩

theorem delete_spared (ids : List String) (id : String)
    (spared : ∀ row, state.db.tasks.find? id = some row → ids.contains id = false ∨ isTerminalTaskStatus row.status = false) :
    Undisturbed state (state.deleteTasks ids).2 id := by
  have kept : state.db.deletes (fun row => ids.contains row.id && isTerminalTaskStatus row.status) id = false := by
    rw [Database.deletes]
    cases found : state.db.tasks.find? id with
    | none => rfl
    | some row =>
        have named : row.id = id := state.db.tasks.find_key id row found
        rw [Option.any_some, named, Bool.and_eq_false_iff]
        exact spared row found
  refine ⟨?_, ?_, ?_⟩
  · refine (state.db.tasks.toTable.find_remaining _ id).trans ?_
    cases found : state.db.tasks.find? id with
    | none => rfl
    | some row =>
        rw [Database.deletes, found, Option.any_some] at kept
        exact Option.filter_some_pos ((Bool.not_eq_true' _).mpr kept)
  · simp only [logsOf, Retained.deleteTasks, Database.deleteTasks, Table.delete, List.filter_filter]
    refine List.filter_congr fun row _ => ?_
    by_cases here : row.task_id = id
    · rw [here, kept, Bool.not_false, Bool.and_true]
    · simp [here]
  · exact List.mem_filter.trans (and_iff_left ((Bool.not_eq_true' _).mpr kept))

theorem delete_taken (ids : List String) (id : String) (row : TaskRow) (found : state.db.tasks.find? id = some row)
    (listed : id ∈ ids) (terminal : isTerminalTaskStatus row.status = true) :
    (state.deleteTasks ids).2.db.tasks.find? id = none := by
  refine (state.db.tasks.toTable.find_remaining _ id).trans ?_
  have named : row.id = id := state.db.tasks.find_key id row found
  rw [found, Option.filter_some_neg]
  simp [named, listed, terminal]

end passes

section retention

variable (state : Retained) (id : String) (row : TaskRow) (nowMs : Int)

-- The pass finds the output of the task and leaves it pruned, or deletes the row.
structure RemovesOutput : Prop where
  unpruned : id ∉ state.pruned
  removed : id ∈ (state.pruneRetention nowMs).2.pruned ∨ (state.pruneRetention nowMs).2.db.tasks.find? id = none

abbrev Retained.expired : Retained := (state.pruneOutputs nowMs (state.candidates (nowMs / 1000))).2

variable (found : state.db.tasks.find? id = some row)

include found

theorem candidate_same (candidate : TaskRow) (member : candidate ∈ state.candidates (nowMs / 1000)) (same : candidate.id = id) :
    candidate = row := by
  have stored := (candidates_pending state (nowMs / 1000)).stored candidate member
  rw [same, found] at stored
  exact (Option.some.inj stored).symm

-- What the first half of the pass makes of the row.
theorem expired_row : ∃ left, (state.expired nowMs).db.tasks.find? id = some left ∧ left.status = row.status := by
  by_cases listed : id ∈ (state.candidates (nowMs / 1000)).map TaskRow.id
  · obtain ⟨candidate, member, same⟩ := List.mem_map.mp listed
    have emptied := outputs_own state nowMs _ (candidates_pending state (nowMs / 1000)) candidate member
    rw [candidate_same state id row nowMs found candidate member same] at emptied
    have named : row.id = id := state.db.tasks.find_key id row found
    rw [← named]
    exact ⟨_, emptied.row, rfl⟩
  · exact ⟨row, (outputs_other state nowMs _ id listed).row.trans found, rfl⟩

theorem old_deleted (terminal : isTerminalTaskStatus row.status = true) (old : id ∈ state.oldRows nowMs) :
    (state.pruneRetention nowMs).2.db.tasks.find? id = none := by
  obtain ⟨left, stored, status⟩ := expired_row state id row nowMs found
  exact delete_taken (state.expired nowMs) _ id left stored (outputs_old state nowMs _ ▸ old) (status ▸ terminal)

omit found in
theorem young_kept (young : id ∉ state.oldRows nowMs) : Undisturbed (state.expired nowMs) (state.pruneRetention nowMs).2 id := by
  refine delete_spared (state.expired nowMs) _ id fun left stored => Or.inl ?_
  rw [outputs_old state nowMs]
  simpa using young

theorem removed_emptied (young : id ∉ state.oldRows nowMs) (removes : RemovesOutput state id nowMs) :
    (state.pruneRetention nowMs).2.db.tasks.find? id = some (prunedRow nowMs row) := by
  have kept := young_kept state id nowMs young
  obtain ⟨left, stored, _⟩ := expired_row state id row nowMs found
  have marked : id ∈ (state.expired nowMs).pruned := by
    rcases removes.removed with pruned | gone
    · exact kept.pruned.mp pruned
    · rw [kept.row, stored] at gone
      cases gone
  have listed : id ∈ (state.candidates (nowMs / 1000)).map TaskRow.id := by
    by_contra other
    exact removes.unpruned ((outputs_other state nowMs _ id other).pruned.mp marked)
  obtain ⟨candidate, member, same⟩ := List.mem_map.mp listed
  have emptied := outputs_own state nowMs _ (candidates_pending state (nowMs / 1000)) candidate member
  rw [candidate_same state id row nowMs found candidate member same] at emptied
  have named : row.id = id := state.db.tasks.find_key id row found
  rw [kept.row, ← named]
  exact emptied.row

theorem running_undisturbed (running : isTerminalTaskStatus row.status = false) : Undisturbed state (state.pruneRetention nowMs).2 id := by
  have other : id ∉ (state.candidates (nowMs / 1000)).map TaskRow.id := by
    intro listed
    obtain ⟨candidate, member, same⟩ := List.mem_map.mp listed
    have due := (List.mem_filter.mp ((List.perm_insertionSort _ _).subset (List.mem_of_mem_take member))).2
    rw [candidate_same state id row nowMs found candidate member same] at due
    simp [Retained.dueOutput, running] at due
  have first := outputs_other state nowMs _ id other
  refine undisturbed_trans state (state.expired nowMs) _ id first (delete_spared (state.expired nowMs) _ id ?_)
  intro left stored
  rw [first.row, found] at stored
  exact Or.inr (Option.some.inj stored ▸ running)

end retention

end Vacps.TaskStore

namespace Vacps.Server

open Library TaskStore Vacps.Native

section agreement

variable (simdutf : Simdutf) (sha256Hex : String → String)

def RetentionAgrees (state : Retained) (id : String) (prunedAt askedAt : Int) : Prop :=
  let after := (state.pruneRetention prunedAt).2
  (∀ query, (getTaskLogs simdutf sha256Hex after.db id query askedAt).reportsExpired) ∧ reportsTaskExpired (getTaskById after.db id askedAt)

theorem admitted_retention (task : StoredTask) (admitted : 60 ≤ task.task.output.retention_seconds) :
    retentionSec task = task.task.output.retention_seconds := by
  have positive : task.task.output.retention_seconds ≠ 0 := by omega
  rw [retentionSec, numberOr, Option.filter_some_pos (by simpa using positive), Option.getD_some]
  omega

theorem gone_reports (db : Database) (id : String) (nowMs : Int) (gone : db.tasks.find? id = none) :
    (∀ query, (getTaskLogs simdutf sha256Hex db id query nowMs).reportsExpired) ∧ reportsTaskExpired (getTaskById db id nowMs) := by
  refine ⟨fun query => ?_, ?_⟩
  · rw [getTaskLogs, gone]
    rfl
  · rw [getTaskById, gone]
    rfl

theorem stored_reports (db : Database) (id : String) (row : TaskRow) (nowMs : Int) (found : db.tasks.find? id = some row) :
    ((∀ query, (getTaskLogs simdutf sha256Hex db id query nowMs).reportsExpired) ∧ reportsTaskExpired (getTaskById db id nowMs)) ↔
      outputExpired row.toStoredTask nowMs = true := by
  constructor
  · intro reports
    by_contra fresh
    rw [Bool.not_eq_true] at fresh
    have shown := reports.1 ⟨none, some .stdout, none, none, none⟩
    rw [logs_stream simdutf sha256Hex db id _ nowMs row found fresh .stdout rfl (by decide)] at shown
    exact shown
  · intro expired
    refine ⟨fun query => ?_, ?_⟩
    · rw [getTaskLogs, found, Option.map_some]
      simp only [expired, if_true]
      split <;> trivial
    · rw [getTaskById, found, Option.map_some]
      exact Or.inl expired

end agreement

section concrete

-- A task of one line that finished 999 milliseconds after the epoch; its output is kept for a day.
def finishedTask : Retained where
  db := ((TaskQueue.queuedDb.run (.insertLog "task" 1 .stdout "done")).2.run
    (.writeTask "task" .succeeded none none none (some 999) 999)).2
  pruned := []
  owned := by simp

def finishedRow : TaskRow :=
  { newTask TaskQueue.queuedTask .succeeded none 0 with finishedAt := some 999, updatedAt := 999 }

theorem finished_removed : RemovesOutput finishedTask "task" 86400000 :=
  ⟨by decide, Or.inl (by decide)⟩

end concrete

-- What a pass removes is reported as expired just when the row is among the old ones it deletes, or is asked for when
-- the milliseconds of the retention have passed, not only its seconds.
theorem retention_agrees_iff (simdutf : Simdutf) (sha256Hex : String → String) :
    (∀ (state : Retained) (id : String) (row : TaskRow) (prunedAt askedAt : Int), state.db.tasks.find? id = some row →
      isTerminalTaskStatus row.status = true →
      60 ≤ row.task.output.retention_seconds ∧ row.task.output.retention_seconds ≤ 2592000 → prunedAt ≤ askedAt →
      RemovesOutput state id prunedAt →
      (RetentionAgrees simdutf sha256Hex state id prunedAt askedAt ↔
        id ∈ state.oldRows prunedAt ∨
          ∃ finishedAt, row.finishedAt = some finishedAt ∧ finishedAt + row.task.output.retention_seconds * 1000 < askedAt)) ∧
    ∀ (state : Retained) (id : String) (row : TaskRow) (nowMs : Int), state.db.tasks.find? id = some row →
      isTerminalTaskStatus row.status = false → TaskStore.Undisturbed state (state.pruneRetention nowMs).2 id := by
  refine ⟨?_, running_undisturbed⟩
  intro state id row prunedAt askedAt found terminal admitted _ removes
  by_cases old : id ∈ state.oldRows prunedAt
  · exact iff_of_true (gone_reports simdutf sha256Hex _ id askedAt (old_deleted state id row prunedAt found terminal old)) (Or.inl old)
  · have left := removed_emptied state id row prunedAt found old removes
    refine (stored_reports simdutf sha256Hex _ id _ askedAt left).trans ?_
    rw [or_iff_right old]
    have seconds : retentionSec (prunedRow prunedAt row).toStoredTask = row.task.output.retention_seconds :=
      admitted_retention _ admitted.1
    have still : (prunedRow prunedAt row).toStoredTask.finishedAt = row.finishedAt := rfl
    have ended : isTerminalTaskStatus (prunedRow prunedAt row).toStoredTask.status = true := terminal
    rw [outputExpired, seconds, still, ended, Bool.true_and, Option.any_eq_true]
    refine exists_congr fun finishedAt => and_congr_right fun _ => ?_
    rw [decide_eq_true_iff]
    omega

theorem retention_agrees_later : RetentionAgrees reference (fun _ => "") finishedTask "task" 86400000 86401000 :=
  ((retention_agrees_iff reference fun _ => "").1 finishedTask "task" finishedRow 86400000 86401000 rfl rfl (by decide) (by decide)
    finished_removed).mpr (Or.inr ⟨999, rfl, by decide⟩)

-- At 86400 whole seconds the output is gone, and the log still reads as complete and empty.
theorem pruned_not_expired :
    let after := (finishedTask.pruneRetention 86400000).2
    RemovesOutput finishedTask "task" 86400000 ∧
      ¬RetentionAgrees reference (fun _ => "") finishedTask "task" 86400000 86400000 ∧
      listLogs finishedTask.db "task" (some .stdout) 0 50000 = [⟨"task", 1, .stdout, "done"⟩] ∧
      listLogs after.db "task" (some .stdout) 0 50000 = [] := by
  intro after
  refine ⟨finished_removed, fun agrees => ?_, by decide, by decide⟩
  have left := removed_emptied finishedTask "task" finishedRow 86400000 rfl (by decide) finished_removed
  have expired := (stored_reports reference (fun _ => "") after.db "task" _ 86400000 left).mp agrees
  revert expired
  decide

end Vacps.Server
